import FormLogic.Operator.Comparison

/-!
# Operators

The operators that a condition may name. The kinds that an operator is meant for only guide
authors; a condition compares whatever its target holds.
-/

namespace FormLogic

inductive Operator where
  | equal
  | notEqual
  | is
  | isNot
  | lower
  | lowerOrEqual
  | upper
  | upperOrEqual
  | before
  | beforeOrEqual
  | after
  | afterOrEqual
  | contains
  | lacks
  | oneOf
  | noneOf
  | checked
  | unchecked
  deriving DecidableEq

namespace Operator

/-- All operators, in the order in which they are listed. -/
def all : List Operator :=
  [equal, notEqual, is, isNot, lower, lowerOrEqual, upper, upperOrEqual, before, beforeOrEqual,
    after, afterOrEqual, contains, lacks, oneOf, noneOf, checked, unchecked]

/-- The id by which a condition names the operator. -/
def id : Operator → String
  | equal => "eq"
  | notEqual => "neq"
  | is => "is"
  | isNot => "nis"
  | lower => "lt"
  | lowerOrEqual => "lte"
  | upper => "ut"
  | upperOrEqual => "ute"
  | before => "bt"
  | beforeOrEqual => "bte"
  | after => "at"
  | afterOrEqual => "ate"
  | contains => "ct"
  | lacks => "nct"
  | oneOf => "in"
  | noneOf => "nin"
  | checked => "c"
  | unchecked => "nc"

def label : Operator → String
  | equal => "is equal to"
  | notEqual => "is not equal to"
  | is => "is"
  | isNot => "is not"
  | lower => "is lower than"
  | lowerOrEqual => "is lower or equal to"
  | upper => "is upper than"
  | upperOrEqual => "is upper or equal to"
  | before => "is before than"
  | beforeOrEqual => "is before or equal to"
  | after => "is after than"
  | afterOrEqual => "is after or equal to"
  | contains => "contains"
  | lacks => "does not contain"
  | oneOf => "is one of"
  | noneOf => "is not one of"
  | checked => "is checked"
  | unchecked => "is not checked"

def symbol : Operator → String
  | equal | is => "="
  | notEqual | isNot => "≠"
  | lower | before => "<"
  | lowerOrEqual | beforeOrEqual => "≤"
  | upper | after => ">"
  | upperOrEqual | afterOrEqual => "≥"
  | contains => "∋"
  | lacks => "∌"
  | oneOf => "∈"
  | noneOf => "∉"
  | checked => "✔"
  | unchecked => "✖"

/-- The kinds of field that the operator is meant for. -/
def kinds : Operator → List ValueKind
  | equal | notEqual | is | isNot => [.text, .numeric, .singleChoice, .date]
  | lower | lowerOrEqual | upper | upperOrEqual => [.numeric, .date]
  | before | beforeOrEqual | after | afterOrEqual => [.date]
  | contains | lacks => [.text, .multiChoice]
  | oneOf | noneOf => [.singleChoice, .multiChoice]
  | checked | unchecked => [.boolean]

def appliesTo (op : Operator) (kind : ValueKind) : Bool :=
  op.kinds.contains kind

/-- The operators meant for a kind. -/
def forKind (kind : ValueKind) : List Operator :=
  all.filter (·.appliesTo kind)

def ofId? (id : String) : Option Operator :=
  all.find? (·.id == id)

theorem ofId?_id (op : Operator) : ofId? op.id = some op := by
  cases op <;> decide

/-- Whether a condition with this operator is of use without a literal. -/
def standsAlone : Operator → Bool
  | checked | unchecked => true
  | _ => false

/-- Whether the operator holds between a value and the literal of a condition. -/
def holds (op : Operator) (value : FieldValue) (literal? : Option Literal) : Bool :=
  match op with
  | equal | is => literal?.bind value.equals? == some true
  | notEqual | isNot => literal?.bind value.equals? == some false
  | lower | before => (literal?.bind value.order?).any Ordering.isLT
  | lowerOrEqual | beforeOrEqual => (literal?.bind value.order?).any Ordering.isLE
  | upper | after => (literal?.bind value.order?).any Ordering.isGT
  | upperOrEqual | afterOrEqual => (literal?.bind value.order?).any Ordering.isGE
  | contains => literal?.bind value.contains? == some true
  | lacks => literal?.bind value.contains? == some false
  | oneOf => literal?.bind value.memberOf? == some true
  | noneOf => literal?.bind value.memberOf? == some false
  | checked => value.checked? == some true
  | unchecked => value.checked? == some false

end Operator

end FormLogic
