import FormLogic.Form.Evaluation

/-!
# Visibility passes

A pass evaluates the rule of every field in the order of declaration and settles each field before
it goes on to the next, so that a rule sees the fields before it as the pass has left them. A field
whose rule cannot be evaluated stays as it was.
-/

namespace FormLogic

/-- What a pass found for a field. -/
structure FieldOutcome where
  id : String
  label : String
  hasRule : Bool
  outcome : Except EvalError Evaluation

/-- What a pass found, in the order of declaration. -/
structure Report where
  fields : List FieldOutcome

namespace Report

def empty : Report :=
  ⟨[]⟩

def field? (r : Report) (id : String) : Option FieldOutcome :=
  r.fields.find? (·.id == id)

/-- The fields whose rules could not be evaluated, and why. -/
def failures (r : Report) : List (String × EvalError) :=
  r.fields.filterMap fun f =>
    match f.outcome with
    | .ok _ => none
    | .error error => some (f.id, error)

end Report

/-- How grave a message of the log is. -/
inductive LogLevel where
  | debug
  | warn
  deriving DecidableEq

namespace LogLevel

def name : LogLevel → String
  | debug => "debug"
  | warn => "warn"

end LogLevel

namespace FieldOutcome

/-- What a pass logs for a field. -/
def log (f : FieldOutcome) : List (LogLevel × String) :=
  match f.outcome with
  | .ok evaluation =>
    if f.hasRule then [(.debug, "=== " ++ f.label ++ " === " ++ evaluation.diagnostic)] else []
  | .error error =>
    [(.warn, "visibility of field '" ++ f.id ++ "' left unchanged: " ++ error.message)]

end FieldOutcome

namespace Report

/-- What a pass logs. -/
def log (r : Report) : List (LogLevel × String) :=
  (.debug, "===== updating fields visibility =====") :: r.fields.flatMap FieldOutcome.log

end Report

namespace Control

/-- The control shown as an evaluation of its rule says. -/
def apply (c : Control) (e : Evaluation) : Control :=
  { c with
    active := e.isActive
    hidden := !e.isActive
    required := c.field.required && e.isActive
    indent := e.indent }

/-- The control after its rule has been evaluated or has failed. -/
def settle (c : Control) : Except EvalError Evaluation → Control
  | .ok evaluation => c.apply evaluation
  | .error _ => c

def outcome (c : Control) (result : Except EvalError Evaluation) : FieldOutcome :=
  ⟨c.id, c.field.label, c.field.hasRule, result⟩

/-- Settles the controls that follow some settled ones. -/
def sweep (settled : List Control) : List Control → List Control × List FieldOutcome
  | [] => ([], [])
  | c :: rest =>
    let result := c.field.rule.evaluate (settled ++ c :: rest) (some settled.length)
    let (controls, outcomes) := sweep (settled ++ [c.settle result]) rest
    (c.settle result :: controls, c.outcome result :: outcomes)

end Control

namespace FormState

/-- A visibility pass. -/
def refresh (s : FormState) : FormState × Report :=
  let (controls, outcomes) := Control.sweep [] s.controls
  ({ s with controls }, ⟨outcomes⟩)

/-- The state after a visibility pass. -/
def refreshed (s : FormState) : FormState :=
  s.refresh.1

/-- Which fields are active. -/
def visibility (s : FormState) : List (String × Bool) :=
  s.controls.map fun c => (c.id, c.active)

end FormState

/-- Which fields are active once some answers are filled in. -/
def FormSpec.resolveVisibility (s : FormSpec) (answers : Json) : Except FormError (List (String × Bool)) :=
  return (← FormState.ofAnswers s answers).refreshed.visibility

end FormLogic
