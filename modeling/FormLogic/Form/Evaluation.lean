import FormLogic.Form.State
import FormLogic.Operator.Basic

/-!
# Evaluation of rules

A rule is evaluated against the controls as they are. A condition holds if its operator does and
its target is active, so that what depends on a hidden field is hidden too. All operands of a group
are evaluated, and the first that fails from the left fails the group.
-/

namespace FormLogic

/-- Why a rule cannot be evaluated. -/
inductive EvalError where
  | unresolvedTarget (target : String)
  | unknownOperator (operator : String)
  /-- A rule of `field` refers to a field that is not declared before it. -/
  | forwardReference (field target : String)
  deriving DecidableEq

namespace EvalError

def code : EvalError → String
  | unresolvedTarget _ => "unresolved_target"
  | unknownOperator _ => "unknown_operator"
  | forwardReference _ _ => "forward_reference"

def message : EvalError → String
  | unresolvedTarget target => "rule references unknown field '" ++ target ++ "'"
  | unknownOperator operator => "unknown operator '" ++ operator ++ "'"
  | forwardReference field target =>
    "field '" ++ field ++ "' references '" ++ target ++ "', which is not declared before it"

end EvalError

/-- What a rule comes to. -/
structure Evaluation where
  /-- The rule with the labels of fields. -/
  formula : String
  /-- The rule with the values of fields in place of their labels. -/
  trace : String
  isActive : Bool
  indent : Nat
  deriving DecidableEq

namespace Evaluation

def empty : Evaluation :=
  ⟨"∅", "∅", true, 0⟩

/-- The three parts of a line that explains the evaluation. -/
def explain (formula trace : String) (isActive : Bool) : String :=
  formula ++ "   ⇒   " ++ trace ++ "   ⇒   " ++ (if isActive then "true" else "false")

def diagnostic (e : Evaluation) : String :=
  explain e.formula e.trace e.isActive

/-- The parts of a group in one text. -/
def join (connective : Connective) (parts : List String) : String :=
  let separator := match connective with
    | .and => ") AND ("
    | .or => ") OR ("
  "(" ++ separator.intercalate parts ++ ")"

def maxIndent (operands : List Evaluation) : Nat :=
  operands.foldr (fun e level => max e.indent level) 0

/-- A group of evaluated operands. All operands indent a conjunction, the active ones a
    disjunction. -/
def combine (connective : Connective) (operands : List Evaluation) : Evaluation where
  formula := join connective (operands.map (·.formula))
  trace := join connective (operands.map (·.trace))
  isActive := match connective with
    | .and => operands.all (·.isActive)
    | .or => operands.any (·.isActive)
  indent := match connective with
    | .and => maxIndent operands
    | .or => maxIndent (operands.filter (·.isActive))

/-- A comparison in words. -/
def comparison (left : String) (op : Operator) : Option Literal → String
  | some literal => left ++ " " ++ op.symbol ++ " \"" ++ literal.display ++ "\""
  | none => left ++ " " ++ op.symbol

/-- A condition on a control. -/
def ofCondition (target : Control) (op : Operator) (literal? : Option Literal) : Evaluation where
  formula := comparison target.field.label op literal?
  trace := comparison ("\"" ++ target.value.display ++ "\"") op literal?
  isActive := op.holds target.value literal? && target.active
  indent := target.indent + 1

end Evaluation

/-- The control that a condition refers to. Evaluated for the field at the position `origin?`, a
    condition may only refer to fields before that. -/
def Control.resolve (controls : List Control) (origin? : Option Nat) (target : String) :
    Except EvalError Control :=
  match Control.position? controls target with
  | none => .error (.unresolvedTarget target)
  | some position =>
    match controls[position]? with
    | none => .error (.unresolvedTarget target)
    | some control =>
      match origin? with
      | none => .ok control
      | some origin =>
        if position < origin then .ok control
        else .error (.forwardReference ((controls[origin]?.map Control.id).getD "") target)

/-- Evaluates a condition. -/
def Condition.evaluate (controls : List Control) (origin? : Option Nat) (c : Condition) :
    Except EvalError Evaluation := do
  let target ← Control.resolve controls origin? c.target
  match Operator.ofId? c.operator with
  | none => throw (.unknownOperator c.operator)
  | some op => return Evaluation.ofCondition target op c.literal?

namespace Rule

mutual

/-- Evaluates a rule, on behalf of the field at a position if one is given. -/
def evaluate (controls : List Control) (origin? : Option Nat) :
    Rule → Except EvalError Evaluation
  | empty => .ok Evaluation.empty
  | leaf condition => condition.evaluate controls origin?
  | group connective operands =>
    (evaluateAll controls origin? operands).map (Evaluation.combine connective)

def evaluateAll (controls : List Control) (origin? : Option Nat) :
    List Rule → Except EvalError (List Evaluation)
  | [] => .ok []
  | rule :: rest => do
    let evaluation ← evaluate controls origin? rule
    return evaluation :: (← evaluateAll controls origin? rest)

end

end Rule

end FormLogic
