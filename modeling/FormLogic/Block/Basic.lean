import FormLogic.Rule.Basic
import FormLogic.Time.Timestamp

/-!
# Rule blocks

A form builder stores a rule as blocks. A block names a field, an operator and a value, which
stands in the slot of the widget that the author used; or it names a connective and lists blocks.
-/

namespace FormLogic

/-- The value slots of a block. -/
structure Slots where
  char? : Option String
  number? : Option Scalar
  dropdown? : Option String
  date? : Option String
  time? : Option String
  datetime? : Option String

/-- A block of a stored rule. -/
structure Block where
  /-- Whether the block stands in its list as the value of an object. -/
  wrapped : Bool
  /-- The field that the block compares, or the name of a connective. -/
  field : String
  operator : String
  slots : Slots
  rules : List Block

/-- Why stored blocks make no rule. -/
inductive BlockError where
  | malformed
  /-- The slot of a block holds something else than a moment. -/
  | invalidTimestamp (field slot value : String)
  deriving DecidableEq

namespace BlockError

def code : BlockError → String
  | malformed => "malformed"
  | invalidTimestamp _ _ _ => "invalid_timestamp"

def message : BlockError → String
  | malformed => "rule block is malformed"
  | invalidTimestamp field slot value =>
    "rule block for '" ++ field ++ "' has an unreadable " ++ slot ++ " '" ++ value ++ "'"

end BlockError

namespace Slots

/-- A slot in which something stands. -/
def filled? (slot? : Option String) : Option String :=
  slot?.filter fun text => !Text.allBlank text

/-- The slots for moments, by name, in the order in which they count. -/
def moments (s : Slots) : List (String × Option String) :=
  [("value_date", s.date?), ("value_time", s.time?), ("value_datetime", s.datetime?)]

/-- The first slot for a moment in which something stands. -/
def moment? (s : Slots) : Option (String × String) :=
  s.moments.findSome? fun (slot, text?) => (filled? text?).map fun text => (slot, text)

/-- The value of the slots that hold no moment: the option picked, or else the number without its
    fraction, or else the text. -/
def plainLiteral? (s : Slots) : Option Literal :=
  ((filled? s.dropdown?).map .text).or
    ((s.number?.map fun x => .number x.trunc).or ((filled? s.char?).map .text))

/-- The value of a block. A moment goes before anything else and is given as its timestamp. -/
def literal? (s : Slots) (field : String) : Except BlockError (Option Literal) :=
  match s.moment? with
  | none => .ok s.plainLiteral?
  | some (slot, text) =>
    match Timestamp.ofText? text with
    | some seconds => .ok (some (.number (.ofInt seconds)))
    | none => .error (.invalidTimestamp field slot text)

end Slots

namespace Block

mutual

/-- The rule that a block stands for. -/
def toRule : Block → Except BlockError Rule
  | ⟨_, field, operator, slots, rules⟩ =>
    match Connective.ofName? field with
    | some connective => (toRules rules).map (Rule.group connective)
    | none => (slots.literal? field).map fun literal? => .leaf ⟨field, operator, literal?⟩

def toRules : List Block → Except BlockError (List Rule)
  | [] => .ok []
  | block :: rest => do
    let rule ← toRule block
    return rule :: (← toRules rest)

end

/-- The rule of stored blocks, of which only the first counts. -/
def ruleOfList : List Block → Except BlockError Rule
  | [] => .ok .empty
  | block :: _ => block.toRule

end Block

end FormLogic
