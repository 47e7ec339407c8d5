import FormLogic.Form.Evaluation

/-!
# Failures of a service call
-/

namespace FormLogic

/-- Why a call is answered with an error. -/
inductive ServiceError where
  /-- A configuration, form definition, rule, value or set of answers cannot be read. -/
  | unreadable
  | formUnavailable (id : String)
  | unknownKind (name : String)
  | form (error : FormError)
  | rule (error : EvalError)

namespace ServiceError

def message : ServiceError → String
  | unreadable => "failed to parse config/document"
  | formUnavailable id => "form '" ++ id ++ "' is not available"
  | unknownKind name => "unknown value kind '" ++ name ++ "'"
  | form error => error.message
  | rule error => error.message

end ServiceError

end FormLogic
