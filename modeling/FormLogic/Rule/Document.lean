import FormLogic.Json.Record
import FormLogic.Rule.Basic

/-!
# Rules in JSON

A rule is written as an object with one member, whose name tells what it is: `entry` with a
condition, or `and` or `or` with an array of rules. The empty rule is an empty object. A group may
also be read from an object with the members `bool_opr` and `subrules`, and the empty rule from an
empty array.
-/

namespace FormLogic

namespace Condition

def members : List String :=
  ["target", "opr", "val"]

def toJson (c : Condition) : Json :=
  .object ([("opr", .string c.operator), ("target", .string c.target)]
    ++ Json.optionalMember "val" (c.literal?.map Literal.toJson))

def ofJson? (j : Json) : Option Condition := do
  let [target, operator, literal] ← j.record? members | none
  let target ← Json.required Json.string? target
  let operator ← Json.required Json.string? operator
  let literal? ← Json.optional Literal.ofJson? literal
  return { target, operator, literal? }

end Condition

namespace Rule

mutual

def toJson : Rule → Json
  | empty => .object []
  | leaf condition => .object [("entry", condition.toJson)]
  | group connective operands => .object [(connective.name, .array (toJsonAll operands))]

def toJsonAll : List Rule → List Json
  | [] => []
  | rule :: rest => toJson rule :: toJsonAll rest

end

/-- A rule written as an object with a single member. `operands` holds, for each member, the
    rules that its value lists. -/
def ofTagged? (members : List Json.Member) (operands : List (String × Option (List Rule))) :
    Option Rule :=
  match members, operands with
  | [(name, value)], [(_, rules)] =>
    if name = "entry" then (Condition.ofJson? value).map leaf
    else do return group (← Connective.ofName? name) (← rules)
  | _, _ => none

/-- A group written with its connective as the value of a member. -/
def ofGrouped? (members : List Json.Member) (operands : List (String × Option (List Rule))) :
    Option Rule := do
  let connective ← (← Json.onlyMember? members "bool_opr").bind Json.choice?
  match operands.filter (·.1 == "subrules") with
  | [(_, rules)] => return group (← Connective.ofName? connective) (← rules)
  | _ => none

mutual

/-- The rule that a JSON value describes. -/
def ofJson? : Json → Option Rule
  | .object [] => some empty
  | .object members =>
    let operands := operandsOfMembers members
    (ofTagged? members operands).or (ofGrouped? members operands)
  | .array [] => some empty
  | _ => none

def operandsOfMembers : List Json.Member → List (String × Option (List Rule))
  | [] => []
  | (name, value) :: rest => (name, operands? value) :: operandsOfMembers rest

/-- The rules that the items of an array describe, if all of them do. -/
def operands? : Json → Option (List Rule)
  | .array items => ofItems? items
  | _ => none

def ofItems? : List Json → Option (List Rule)
  | [] => some []
  | item :: rest => do
    let rule ← ofJson? item
    return rule :: (← ofItems? rest)

end

/-- The rule that a JSON text describes. -/
def ofText? (text : String) : Option Rule :=
  (Json.ofText? text).bind ofJson?

end Rule

end FormLogic
