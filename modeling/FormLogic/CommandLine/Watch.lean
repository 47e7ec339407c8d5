import FormLogic.CommandLine.Arguments
import FormLogic.Form.Live
import FormLogic.Form.View

/-!
# Watching a form

A form is printed after every visibility pass while inputs arrive, one JSON text a line. Lines that
cannot be read or taken are left out.
-/

namespace FormLogic

/-- A form that is being watched. -/
structure Watch where
  spec : FormSpec
  layout : Layout
  form : LiveForm

namespace Watch

/-- A printed form. -/
def print (layout : Layout) (pass : Nat) (view : FormView) : String :=
  match layout with
  | .text => "--- pass " ++ toString pass ++ " ---\n" ++ view.toText ++ "\n"
  | .json => view.toJson.compact ++ "\n"

/-- What is printed after a pass. -/
def printPass (w : Watch) (report : Report) : String :=
  print w.layout w.form.passes (FormView.ofState w.spec w.form.state report)

/-- What is printed after a step that may have made a pass. -/
def afterStep (w : Watch) (step : LiveForm × Option Report) : Watch × String :=
  let w := { w with form := step.1 }
  (w, (step.2.map w.printPass).getD "")

/-- Starts watching, under a clock with so many units of time to a millisecond; the first pass is
    printed at once. -/
def start (spec : FormSpec) (layout : Layout) (millisecond : Nat := 1) :
    Except FormError (Watch × String) := do
  let (form, report) ← LiveForm.ofSpec spec millisecond
  let w := { spec, layout, form }
  return (w, w.printPass report)

/-- Takes a line at a time. An input in it is put into the form, which may refuse it. -/
def takeLine (w : Watch) (now : Nat) (line : String) : Watch :=
  match FieldInput.ofText? (String.ofList (Text.trim line.toList)) with
  | none => w
  | some input => { w with form := (w.form.apply input now).1 }

/-- Makes the pass that is due. -/
def tick (w : Watch) (now : Nat) : Watch × String :=
  w.afterStep (w.form.tick now)

/-- Makes the pass that is pending, when no more lines come. -/
def finish (w : Watch) : Watch × String :=
  w.afterStep w.form.flush

/-- What is printed when all lines come at once. -/
def replay (spec : FormSpec) (layout : Layout) (lines : List String) (millisecond : Nat := 1) :
    Except FormError String := do
  let (w, first) ← start spec layout millisecond
  return first ++ (lines.foldl (fun w line => w.takeLine 0 line) w).finish.2

end Watch

end FormLogic
