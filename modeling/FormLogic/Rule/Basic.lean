import FormLogic.Literal

/-!
# Rules

When a field is shown: always, on a condition about another field, or on a combination of rules.
-/

namespace FormLogic

/-- A comparison of a field with a literal, by the id of an operator. -/
structure Condition where
  target : String
  operator : String
  literal? : Option Literal
  deriving DecidableEq

/-- The two ways to combine rules. -/
inductive Connective where
  | and
  | or
  deriving DecidableEq

namespace Connective

def name : Connective → String
  | and => "and"
  | or => "or"

def ofName? : String → Option Connective
  | "and" => some and
  | "or" => some or
  | _ => none

theorem ofName?_eq_some_iff {name : String} {c : Connective} :
    ofName? name = some c ↔ name = c.name := by
  cases c <;> grind [ofName?, Connective.name]

end Connective

inductive Rule where
  | empty
  | leaf (condition : Condition)
  | group (connective : Connective) (operands : List Rule)
  deriving Inhabited

namespace Rule

def isEmpty : Rule → Bool
  | empty => true
  | leaf _ | group _ _ => false

mutual

/-- The conditions of a rule, from left to right. -/
def conditions : Rule → List Condition
  | empty => []
  | leaf condition => [condition]
  | group _ operands => conditionsOfAll operands

def conditionsOfAll : List Rule → List Condition
  | [] => []
  | rule :: rest => conditions rule ++ conditionsOfAll rest

end

end Rule

end FormLogic
