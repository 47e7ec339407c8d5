import FormLogic.Block.Basic
import FormLogic.Json.Record

/-!
# Rule blocks in JSON

Each entry of a list of blocks is a block, or an object whose member `value` is one. An entry that
can be read either way counts as the latter.
-/

namespace FormLogic

namespace Block

def members : List String :=
  ["field", "operator", "value_char", "value_number", "value_dropdown", "value_date", "value_time",
    "value_datetime", "rules"]

/-- An entry of a list, around a written block. -/
def entry (wrapped : Bool) (block : Json) : Json :=
  if wrapped then .object [("value", block)] else block

mutual

/-- A block by itself, not as an entry of a list. -/
def toJson : Block → Json
  | ⟨_, field, operator, slots, rules⟩ =>
    .object <|
      [("field", .string field), ("operator", .string operator)]
        ++ Json.optionalMember "rules"
          (if rules.isEmpty then none else some (.array (entriesToJson rules)))
        ++ Json.optionalMember "value_char" (slots.char?.map .string)
        ++ Json.optionalMember "value_date" (slots.date?.map .string)
        ++ Json.optionalMember "value_datetime" (slots.datetime?.map .string)
        ++ Json.optionalMember "value_dropdown" (slots.dropdown?.map .string)
        ++ Json.optionalMember "value_number" (slots.number?.map .ofScalar)
        ++ Json.optionalMember "value_time" (slots.time?.map .string)

/-- The entries of a list of blocks. -/
def entriesToJson : List Block → List Json
  | [] => []
  | block :: rest => entry block.wrapped (toJson block) :: entriesToJson rest

end

def wrap (b : Block) : Block :=
  { b with wrapped := true }

/-- A bare block from its written form, of which the part `rules` has been read already. -/
def ofParts? (j : Json) (rules : List (Option (List Block))) : Option Block := do
  let [field, operator, char, number, dropdown, date, time, datetime, _] ← j.record? members | none
  let field ← Json.required Json.string? field
  let operator ← Json.withDefault "" Json.string? operator
  let char? ← Json.optional Json.string? char
  let number? ← Json.optional Json.double? number
  let dropdown? ← Json.optional Json.string? dropdown
  let date? ← Json.optional Json.string? date
  let time? ← Json.optional Json.string? time
  let datetime? ← Json.optional Json.string? datetime
  let rules ← rules.headD (some [])
  return {
    wrapped := false, field, operator, rules,
    slots := { char?, number?, dropdown?, date?, time?, datetime? } }

/-- The block of an entry, wrapped if it can be; `values` are the readings of its members
    `value`. -/
def ofWrapped? (values : List (Option Block)) (bare : Unit → Option Block) : Option Block :=
  match values with
  | [some block] => some block.wrap
  | _ => bare ()

mutual

/-- The block that a JSON value is. -/
def ofJson? : Json → Option Block
  | .object members => ofParts? (.object members) (rulesOfMembers members)
  | .array items => ofParts? (.array items) (rulesOfItems 8 items)
  | _ => none

/-- The block that an entry of a list holds. -/
def ofEntry? : Json → Option Block
  | .object members =>
    ofWrapped? (valuesOfMembers members) fun _ =>
      ofParts? (.object members) (rulesOfMembers members)
  | .array items => ofParts? (.array items) (rulesOfItems 8 items)
  | _ => none

/-- The readings of the members `value`. -/
def valuesOfMembers : List Json.Member → List (Option Block)
  | [] => []
  | (name, value) :: rest =>
    if name = "value" then ofJson? value :: valuesOfMembers rest else valuesOfMembers rest

/-- The readings of the members `rules`. -/
def rulesOfMembers : List Json.Member → List (Option (List Block))
  | [] => []
  | (name, value) :: rest =>
    if name = "rules" then ofList? value :: rulesOfMembers rest else rulesOfMembers rest

/-- The reading of the item at a position. -/
def rulesOfItems : Nat → List Json → List (Option (List Block))
  | _, [] => []
  | 0, item :: _ => [ofList? item]
  | position + 1, _ :: rest => rulesOfItems position rest

/-- The blocks of a list, if each entry holds one. -/
def ofList? : Json → Option (List Block)
  | .array items => ofEntries? items
  | _ => none

def ofEntries? : List Json → Option (List Block)
  | [] => some []
  | item :: rest => do
    let block ← ofEntry? item
    return block :: (← ofEntries? rest)

end

/-- The rule of a stored list of blocks. -/
def ruleOfStored (stored : Json) : Except BlockError Rule :=
  match ofList? stored with
  | some blocks => ruleOfList blocks
  | none => .error .malformed

end Block

end FormLogic
