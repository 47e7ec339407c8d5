import FormLogic.Form.FieldValue

/-!
# The state of a form

A control is a field together with what its widget holds and how it is shown at the moment. The
state of a form is the list of its controls in the order of declaration. Putting an answer into a
form changes nothing else, and nothing at all if the answer is refused; how controls are shown is
settled by a visibility pass.
-/

namespace FormLogic

/-- Why a form cannot be set up or an answer not be taken. -/
inductive FormError where
  | duplicateField (id : String)
  | unknownField (id : String)
  | invalidValue (field : String) (reason : Rejection)
  deriving DecidableEq

namespace FormError

def code : FormError → String
  | duplicateField _ => "duplicate_field"
  | unknownField _ => "unknown_field"
  | invalidValue _ _ => "invalid_value"

def message : FormError → String
  | duplicateField id => "field '" ++ id ++ "' is declared more than once"
  | unknownField id => "field '" ++ id ++ "' does not exist"
  | invalidValue field reason => "invalid value for field '" ++ field ++ "': " ++ reason.message

end FormError

/-- A field of a form that is being filled in. -/
structure Control where
  field : Field
  answer : Answer
  /-- Whether the field counts: its rule held at the last visibility pass. -/
  active : Bool
  hidden : Bool
  /-- Whether an answer is asked for at the moment. -/
  required : Bool
  /-- How many levels the field is indented below the fields that it depends on. -/
  indent : Nat

namespace Control

def id (c : Control) : String :=
  c.field.id

/-- The answer that a JSON value gives to a field. -/
def answerOf (f : Field) (j : Json) : Except FormError Answer :=
  (Answer.ofJson f.widget f.choices j).mapError (.invalidValue f.id)

/-- A field as it is first shown: with its default answer, and active. -/
def ofField (f : Field) : Except FormError Control := do
  let answer ← match f.default? with
    | some default => answerOf f default
    | none => .ok (Answer.blank f.widget f.choices.length)
  return { field := f, answer, active := true, hidden := false, required := f.required, indent := 0 }

/-- The typed value of the control's contents. -/
def value (c : Control) : FieldValue :=
  FieldValue.ofAnswer c.field.widget c.answer

/-- The controls for fields that follow some others, whose ids they may not repeat. -/
def ofFields (before : List String) : List Field → Except FormError (List Control)
  | [] => .ok []
  | f :: rest => do
    if before.contains f.id then throw (.duplicateField f.id)
    let control ← ofField f
    return control :: (← ofFields (f.id :: before) rest)

/-- The position of a field among controls. -/
def position? (controls : List Control) (id : String) : Option Nat :=
  controls.findIdx? (·.id == id)

end Control

/-- A form that is being filled in. -/
structure FormState where
  controls : List Control
  policy : Policy

namespace FormState

/-- A form as it is first shown, before any visibility pass. -/
def ofSpec (s : FormSpec) : Except FormError FormState := do
  return { controls := ← Control.ofFields [] s.fields, policy := s.policy }

def position? (s : FormState) (id : String) : Option Nat :=
  Control.position? s.controls id

def control? (s : FormState) (id : String) : Option Control :=
  s.controls.find? (·.id == id)

/-- Puts an answer into a field of any widget. What is left of the form is given beside the outcome,
    whether the answer is taken or not. -/
def putAnswer (s : FormState) (id : String) (answer : Answer) : FormState × Except FormError Unit :=
  match s.position? id with
  | none => (s, .error (.unknownField id))
  | some index => ({ s with controls := s.controls.modify index ({ · with answer }) }, .ok ())

/-- Puts the answer that a JSON value gives into a field. -/
def putValue (s : FormState) (id : String) (j : Json) : FormState × Except FormError Unit :=
  match s.control? id with
  | none => (s, .error (.unknownField id))
  | some control =>
    match Control.answerOf control.field j with
    | .error error => (s, .error error)
    | .ok answer => s.putAnswer id answer

/-- The form with an answer in a field, for callers who have no use for it if it is refused. -/
def setAnswer (s : FormState) (id : String) (answer : Answer) : Except FormError FormState :=
  let (state, outcome) := s.putAnswer id answer
  outcome.map fun _ => state

/-- The form with the answer that a JSON value gives in a field. -/
def setValue (s : FormState) (id : String) (j : Json) : Except FormError FormState :=
  let (state, outcome) := s.putValue id j
  outcome.map fun _ => state

def setPolicy (s : FormState) (policy : Policy) : FormState :=
  { s with policy }

/-- A form as it is first shown with some answers filled in. Whatever is not an object holds no
    answers. -/
def ofAnswers (s : FormSpec) (answers : Json) : Except FormError FormState := do
  answers.entries.foldlM (fun state (id, value) => state.setValue id value) (← ofSpec s)

end FormState

end FormLogic
