import FormLogic.Form.Visibility

/-!
# Views of a form

What is shown of a form: its controls as they are, and what the last visibility pass found for
their rules. A view is written as JSON for a page, or as text.
-/

namespace FormLogic

/-- What is shown of a field. -/
structure FieldView where
  id : String
  label : String
  widget : Widget
  visible : Bool
  required : Bool
  indent : Nat
  /-- The left padding in `em`, as text. -/
  padding : String
  currentValue : String
  /-- The outcome of the field's rule, if it has one. -/
  outcome? : Option (Except EvalError Evaluation)

namespace FieldView

def ofControl (policy : Policy) (report : Report) (c : Control) : FieldView where
  id := c.id
  label := c.field.label
  widget := c.field.widget
  visible := !c.hidden
  required := c.required
  indent := c.indent
  padding := policy.paddingText c.indent
  currentValue := if c.answer.isBlank then "" else c.value.display
  outcome? := ((report.field? c.id).filter (·.hasRule)).map (·.outcome)

def evaluation? (v : FieldView) : Option Evaluation :=
  match v.outcome? with
  | some (.ok evaluation) => some evaluation
  | _ => none

def error? (v : FieldView) : Option EvalError :=
  match v.outcome? with
  | some (.error error) => some error
  | _ => none

def toJson (v : FieldView) : Json :=
  .object <|
    [("block", .string (if v.widget.isOwnBlock then "self" else "parent")),
      ("current_value", .string v.currentValue)]
      ++ Json.optionalMember "error" (v.error?.map fun error => .string error.message)
      ++ Json.optionalMember "formula" (v.evaluation?.map fun e => .string e.formula)
      ++ [("id", .string v.id), ("indent_level", .ofNat v.indent), ("label", .string v.label),
        ("padding_left", .string (v.padding ++ "em")), ("required", .bool v.required)]
      ++ Json.optionalMember "trace" (v.evaluation?.map fun e => .string e.trace)
      ++ [("type", v.widget.toJson), ("visible", .bool v.visible)]

/-- The blanks in front of a field. -/
def margin (v : FieldView) : String :=
  String.ofList (List.replicate (2 * v.indent) ' ')

/-- The field itself, its current value last. -/
def headline (v : FieldView) : String :=
  v.margin ++ (if v.visible then "+ " else "- ") ++ v.label ++ " (" ++ v.id ++ ")"
    ++ (if v.required then " [required]" else "")
    ++ (if v.currentValue.isEmpty then "" else " = " ++ v.currentValue)

/-- What the field's rule came to. -/
def explanation (v : FieldView) : List String :=
  match v.outcome? with
  | none => []
  | some (.ok e) => [v.margin ++ "    " ++ Evaluation.explain e.formula e.trace v.visible]
  | some (.error error) => [v.margin ++ "    error: " ++ error.message]

def lines (v : FieldView) : List String :=
  v.headline :: v.explanation

end FieldView

/-- What is shown of a form. -/
structure FormView where
  id : String
  title : String
  version : String
  fields : List FieldView

namespace FormView

/-- The view of a form in a state after a pass with a report. -/
def ofState (s : FormSpec) (state : FormState) (report : Report) : FormView where
  id := s.id
  title := s.title
  version := s.version
  fields := state.controls.map (FieldView.ofControl state.policy report)

def total (v : FormView) : Nat :=
  v.fields.length

def visible (v : FormView) : Nat :=
  (v.fields.filter (·.visible)).length

def toJson (v : FormView) : Json :=
  .object [
    ("fields", .array (v.fields.map FieldView.toJson)),
    ("form_id", .string v.id),
    ("form_title", .string v.title),
    ("form_version", .string v.version),
    ("progress", .object [("total", .ofNat v.total), ("visible", .ofNat v.visible)])]

def toText (v : FormView) : String :=
  "\n".intercalate <|
    [ "Form: " ++ v.title ++ " (" ++ v.id ++ ")",
      "Visible fields: " ++ toString v.visible ++ "/" ++ toString v.total ]
      ++ v.fields.flatMap FieldView.lines

/-- The view of a form with some answers filled in, after one visibility pass. -/
def ofAnswers (s : FormSpec) (answers : Json) : Except FormError FormView := do
  let (state, report) := (← FormState.ofAnswers s answers).refresh
  return ofState s state report

end FormView

end FormLogic
