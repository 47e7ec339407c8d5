import FormLogic.Form.Visibility

/-!
# Submissions

What a submitted form comes to. Answers that cannot be taken are noted and left out; the others
decide by one visibility pass which fields count.
-/

namespace FormLogic

/-- What is wrong with a submitted answer or with the rule of a field. -/
inductive SubmissionFault where
  | answer (error : FormError)
  | rule (error : EvalError)

namespace SubmissionFault

def code : SubmissionFault → String
  | answer _ => "invalid_value"
  | rule error => error.code

def message : SubmissionFault → String
  | answer error => error.message
  | rule error => error.message

end SubmissionFault

/-- The outcome of a submission. -/
structure Submission where
  /-- Active fields. -/
  enabled : List String
  disabled : List String
  /-- Active fields that ask for an answer and have none. -/
  missingRequired : List String
  /-- Answers to fields that the form does not have. -/
  unknownFields : List String
  errors : List (String × SubmissionFault)

namespace Submission

def isValid (s : Submission) : Bool :=
  s.errors.isEmpty && s.missingRequired.isEmpty && s.unknownFields.isEmpty

/-- A form with the answers taken so far, and the ones that could not be taken. -/
structure Intake where
  state : FormState
  unknown : List String
  rejected : List (String × SubmissionFault)

/-- One more answer. -/
def Intake.take (i : Intake) (entry : Json.Member) : Intake :=
  match i.state.putValue entry.1 entry.2 with
  | (state, .ok ()) => { i with state }
  | (state, .error (.unknownField id)) => { i with state, unknown := i.unknown ++ [id] }
  | (state, .error error) =>
    { i with state, rejected := i.rejected ++ [(entry.1, .answer error)] }

/-- Takes the answers that can be taken. -/
def intake (state : FormState) (answers : Json) : Intake :=
  answers.entries.foldl Intake.take ⟨state, [], []⟩

/-- Checks answers against a form. -/
def check (s : FormSpec) (answers : Json) : Except FormError Submission := do
  let taken := intake (← FormState.ofSpec s) answers
  let (state, report) := taken.state.refresh
  let active := state.controls.filter (·.active)
  return {
    enabled := active.map Control.id
    disabled := (state.controls.filter (!·.active)).map Control.id
    missingRequired := (active.filter fun c => c.required && c.answer.isBlank).map Control.id
    unknownFields := taken.unknown
    errors := taken.rejected ++ report.failures.map fun (id, error) => (id, .rule error) }

def toJson (s : Submission) : Json :=
  .object [
    ("disabled", .ofStrings s.disabled),
    ("enabled", .ofStrings s.enabled),
    ("errors", .array (s.errors.map fun (id, fault) =>
      .object [("code", .string fault.code), ("field_id", .string id),
        ("message", .string fault.message)])),
    ("missing_required", .ofStrings s.missingRequired),
    ("unknown_fields", .ofStrings s.unknownFields),
    ("valid", .bool s.isValid)]

end Submission

/-- The ids of the fields that count once some answers are filled in. -/
def FormSpec.enabledFields (s : FormSpec) (answers : Json) : Except FormError (List String) :=
  return (← Submission.check s answers).enabled

end FormLogic
