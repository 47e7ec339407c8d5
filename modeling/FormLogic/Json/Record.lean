import FormLogic.Json.Draft

/-!
# Records

A record of named parts is written as an object, where unknown members have no meaning and a
repeated known one is refused, or as an array of the parts in order, where parts may be missing
at the end. A part that is missing is told apart from one that is null.
-/

namespace FormLogic

namespace Json

/-- The only member of a name: `none` if there are several. -/
def onlyMember? (members : List Member) (name : String) : Option (Option Json) :=
  match members.filter (·.1 == name) with
  | [] => some none
  | [(_, value)] => some (some value)
  | _ => none

/-- The parts of a record, one for each name. -/
def record? (names : List String) : Json → Option (List (Option Json))
  | object members => names.mapM (onlyMember? members)
  | array items =>
    if items.length ≤ names.length then
      some (items.map some ++ List.replicate (names.length - items.length) none)
    else none
  | _ => none

/-- A part that must be there. -/
def required {α : Type} (decode : Json → Option α) (part : Option Json) : Option α :=
  part.bind decode

/-- A part that may be missing. -/
def withDefault {α : Type} (default : α) (decode : Json → Option α) : Option Json → Option α
  | none => some default
  | some value => decode value

/-- A part that may be missing or null. -/
def optional {α : Type} (decode : Json → Option α) : Option Json → Option (Option α)
  | none | some null => some none
  | some value => (decode value).map some

/-- A name out of a closed list: the text itself, or an object with the name as its only member
    and null as its value. -/
def choice? : Json → Option String
  | string name => some name
  | object [(name, null)] => some name
  | _ => none

/-- A member that is written only when it has a value. -/
def optionalMember (name : String) (value : Option Json) : List Member :=
  value.toList.map fun value => (name, value)

end Json

end FormLogic
