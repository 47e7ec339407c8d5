import FormLogic.Form.Evaluation
import FormLogic.Json.Pointer

/-!
# Issues in form definitions

What can be wrong with a definition before anybody fills it in. Errors keep a form or a rule from
working at all; a warning points at a rule that works and is probably not meant.
-/

namespace FormLogic

inductive Severity where
  | error
  | warning
  deriving DecidableEq

namespace Severity

def name : Severity → String
  | error => "error"
  | warning => "warning"

end Severity

/-- What is wrong. -/
inductive Fault where
  | duplicateField
  | emptyGroup (connective : Connective)
  | unknownOperator (operator : String)
  | unresolvedTarget (target : String)
  | forwardReference (target : String)
  | kindMismatch (operator : Operator) (kind : ValueKind) (target : String)
  | missingValue (operator : Operator)
  | unknownChoice (key target : String)
  deriving DecidableEq

namespace Fault

def code : Fault → String
  | duplicateField => "duplicate_field"
  | emptyGroup _ => "empty_group"
  | unknownOperator _ => "unknown_operator"
  | unresolvedTarget _ => "unresolved_target"
  | forwardReference _ => "forward_reference"
  | kindMismatch _ _ _ => "kind_mismatch"
  | missingValue _ => "missing_value"
  | unknownChoice _ _ => "unknown_choice"

def severity : Fault → Severity
  | duplicateField | unknownOperator _ | unresolvedTarget _ | forwardReference _ => .error
  | emptyGroup _ | kindMismatch _ _ _ | missingValue _ | unknownChoice _ _ => .warning

def message : Fault → String
  | duplicateField => "field id is declared more than once"
  | emptyGroup connective => "'" ++ connective.name ++ "' group has no conditions"
  | unknownOperator operator => (EvalError.unknownOperator operator).message
  | unresolvedTarget target => "target '" ++ target ++ "' is not a field of this form"
  | forwardReference target => "target '" ++ target ++ "' is not declared before this field"
  | kindMismatch operator kind target =>
    "operator '" ++ operator.id ++ "' does not apply to " ++ kind.name ++ " field '" ++ target ++ "'"
  | missingValue operator => "operator '" ++ operator.id ++ "' needs a value"
  | unknownChoice key target => "'" ++ key ++ "' is not an option key of '" ++ target ++ "'"

end Fault

/-- A fault, the field in whose declaration it is, and its place in the written definition. -/
structure Issue where
  fieldId : String
  path : Json.Pointer
  fault : Fault

namespace Issue

def severity (i : Issue) : Severity :=
  i.fault.severity

def toJson (i : Issue) : Json :=
  .object [("code", .string i.fault.code), ("field_id", .string i.fieldId),
    ("message", .string i.fault.message), ("path", .string i.path.text),
    ("severity", .string i.severity.name)]

end Issue

end FormLogic
