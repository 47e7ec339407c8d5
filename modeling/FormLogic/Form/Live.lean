import FormLogic.Form.Debouncer
import FormLogic.Form.Visibility
import FormLogic.Json.Record

/-!
# Live forms

A form whose visibility follows its inputs. An input changes an answer at once; the visibility pass
comes when inputs have been quiet for a while.
-/

namespace FormLogic

/-- A change of one field. -/
structure FieldInput where
  field : String
  value : Json

namespace FieldInput

def members : List String :=
  ["field", "value"]

def ofJson? (j : Json) : Option FieldInput := do
  let [field, value] ← j.record? members | none
  let field ← Json.required Json.string? field
  let value ← Json.withDefault .null (fun value => some value.canonical) value
  return { field, value }

/-- The input that a JSON text describes. -/
def ofText? (text : String) : Option FieldInput :=
  (Json.ofTextKnowing? (Draft.record members fun _ part => part) text).bind ofJson?

end FieldInput

/-- A form on screen. -/
structure LiveForm where
  state : FormState
  debouncer : Debouncer
  /-- How many visibility passes there have been. -/
  passes : Nat

namespace LiveForm

/-- A visibility pass. -/
def run (l : LiveForm) : LiveForm × Report :=
  let (state, report) := l.state.refresh
  ({ l with state, passes := l.passes + 1 }, report)

/-- Shows a form, under a clock with so many units of time to a millisecond; a first pass is made at
    once. -/
def ofState (s : FormState) (millisecond : Nat := 1) : LiveForm × Report :=
  run {
    state := s
    debouncer := Debouncer.ofDelay (s.policy.debounce * millisecond)
    passes := 0 }

def ofSpec (s : FormSpec) (millisecond : Nat := 1) : Except FormError (LiveForm × Report) :=
  (FormState.ofSpec s).map fun state => ofState state millisecond

/-- A form with changed answers, and a pass due a delay from now. -/
def changed (l : LiveForm) (state : FormState) (now : Nat) : LiveForm :=
  { l with state, debouncer := l.debouncer.schedule now }

/-- What an attempt to put in an answer leaves: only with an answer that has been taken, a pass
    falls due a delay from now. -/
def afterInput (l : LiveForm) (now : Nat) :
    FormState × Except FormError Unit → LiveForm × Except FormError Unit
  | (state, .ok ()) => (l.changed state now, .ok ())
  | (state, .error error) => ({ l with state }, .error error)

/-- Takes an answer from a widget, unless it is refused. -/
def input (l : LiveForm) (field : String) (answer : Answer) (now : Nat) :
    LiveForm × Except FormError Unit :=
  l.afterInput now (l.state.putAnswer field answer)

/-- Takes an answer in JSON, unless it is refused. -/
def apply (l : LiveForm) (input : FieldInput) (now : Nat) : LiveForm × Except FormError Unit :=
  l.afterInput now (l.state.putValue input.field input.value)

/-- Makes the pass that is due, if one is. -/
def tick (l : LiveForm) (now : Nat) : LiveForm × Option Report :=
  let (debouncer, due) := l.debouncer.fire now
  if due then
    let (l, report) := { l with debouncer }.run
    (l, some report)
  else (l, none)

/-- Makes the pass that is pending, if one is. -/
def flush (l : LiveForm) : LiveForm × Option Report :=
  if l.debouncer.isPending then
    let (l, report) := { l with debouncer := l.debouncer.cancel }.run
    (l, some report)
  else (l, none)

/-- What may happen to a form on screen. -/
inductive Event where
  | input (field : String) (answer : Answer) (now : Nat)
  | apply (input : FieldInput) (now : Nat)
  | tick (now : Nat)
  | flush

/-- What comes of an event. -/
inductive Response where
  | taken
  | refused (error : FormError)
  | passed (report : Report)
  | idle

namespace Response

def ofOutcome : Except FormError Unit → Response
  | .ok () => taken
  | .error error => refused error

def ofReport? : Option Report → Response
  | some report => passed report
  | none => idle

end Response

/-- What an event leaves, and what comes of it. -/
def step (l : LiveForm) : Event → LiveForm × Response
  | .input field answer now =>
    let (l, outcome) := l.input field answer now
    (l, .ofOutcome outcome)
  | .apply input now =>
    let (l, outcome) := l.apply input now
    (l, .ofOutcome outcome)
  | .tick now =>
    let (l, report?) := l.tick now
    (l, .ofReport? report?)
  | .flush =>
    let (l, report?) := l.flush
    (l, .ofReport? report?)

end LiveForm

end FormLogic
