import FormLogic.Check.Rules
import FormLogic.Form.Submission
import FormLogic.Form.View
import FormLogic.Service.Config

/-!
# The service

Calls that take and give JSON text (`Endpoint`), and what they come to (`Service`). A call about a
form names the form, and is refused if the configuration serves another one. The service keeps
nothing between calls: whoever calls hands in all answers each time.
-/

namespace FormLogic

namespace Operator

def toJson (op : Operator) : Json :=
  .object [("id", .string op.id), ("kinds", .ofStrings (op.kinds.map ValueKind.name)),
    ("label", .string op.label), ("symbol", .string op.symbol)]

end Operator

namespace Evaluation

def toJson (e : Evaluation) : Json :=
  .object [("formula", .string e.formula), ("indent_level", .ofNat e.indent),
    ("is_active", .bool e.isActive), ("trace", .string e.trace)]

end Evaluation

namespace Service

/-- The answers that a text holds: none, if it cannot be read. -/
def answersOfText (text : String) : Json :=
  (Json.valueOfText? text).getD (.object [])

/-- Answers with one more, in place of any other to the same field. -/
def withAnswer (answers : Json) (field : String) (value : Json) : Json :=
  .object (Json.insert field value answers.entries)

/-- The form of an id, if the configuration serves it. -/
def form (id config : String) : Except ServiceError FormSpec :=
  match (ServiceConfig.ofText? config).bind ServiceConfig.spec? with
  | none => .error .unreadable
  | some spec => if spec.id = id then .ok spec else .error (.formUnavailable id)

/-- A value that has to be readable. -/
def readable {α : Type} : Option α → Except ServiceError α
  | some value => .ok value
  | none => .error .unreadable

/-- The view of a form with some answers. -/
def view (spec : FormSpec) (answers : Json) : Except ServiceError Json :=
  ((FormView.ofAnswers spec answers).mapError .form).map FormView.toJson

/-- The definition of a form. -/
def describe (id config : String) : Except ServiceError Json :=
  (form id config).map FormSpec.toJson

/-- The operators for a kind of value, or all of them if none is named. -/
def operatorsFor (kind : String) : Except ServiceError (List Operator) :=
  if Text.allBlank kind then .ok Operator.all
  else
    match ValueKind.ofName? kind with
    | some kind => .ok (Operator.forKind kind)
    | none => .error (.unknownKind kind)

def operators (kind : String) : Except ServiceError Json :=
  (operatorsFor kind).map fun ops => .array (ops.map Operator.toJson)

/-- What is wrong with the definition of a form. -/
def checkRules (id config : String) : Except ServiceError Json :=
  (form id config).map fun spec => Check.toJson spec.issues

/-- The view of a form. -/
def refresh (id config answers : String) : Except ServiceError Json := do
  view (← form id config) (answersOfText answers)

/-- What a rule comes to in a form, as if a new last field had it. -/
def evaluateRule (id config answers rule : String) : Except ServiceError Json := do
  let spec ← form id config
  let rule ← readable (Rule.ofText? rule)
  let state ← (FormState.ofAnswers spec (answersOfText answers)).mapError .form
  let evaluation ← (rule.evaluate state.refreshed.controls none).mapError .rule
  return evaluation.toJson

/-- Takes one more answer; gives all answers and the view. -/
def applyInput (id config answers field value : String) : Except ServiceError Json := do
  let spec ← form id config
  let value ← readable (Json.valueOfText? value)
  let answers := withAnswer (answersOfText answers) field value
  return .object [("answers", answers), ("form", ← view spec answers)]

/-- What a submission comes to. -/
def enabledFields (id config answers : String) : Except ServiceError Json := do
  let spec ← form id config
  let answers ← readable (Json.valueOfText? answers)
  let submission ← (Submission.check spec answers).mapError .form
  return submission.toJson

/-- The text that answers a call. -/
def respond : Except ServiceError Json → String
  | .ok value => value.compact
  | .error error => (Json.object [("error", .string error.message)]).compact

end Service

/-! ## Calls -/

namespace Endpoint

def describe (id config : String) : String :=
  Service.respond (Service.describe id config)

def operators (kind : String) : String :=
  Service.respond (Service.operators kind)

def checkRules (id config : String) : String :=
  Service.respond (Service.checkRules id config)

def refresh (id config answers : String) : String :=
  Service.respond (Service.refresh id config answers)

def evaluateRule (id config answers rule : String) : String :=
  Service.respond (Service.evaluateRule id config answers rule)

def applyInput (id config answers field value : String) : String :=
  Service.respond (Service.applyInput id config answers field value)

def enabledFields (id config answers : String) : String :=
  Service.respond (Service.enabledFields id config answers)

end Endpoint

end FormLogic
