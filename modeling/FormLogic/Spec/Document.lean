import FormLogic.Rule.Document
import FormLogic.Spec.Basic

/-!
# Form definitions in JSON

The members of each record, how a definition is written and how it is read. Members are written in
the order of their names, and those that would only repeat a default are left out.
-/

namespace FormLogic

namespace Field

def members : List String :=
  ["id", "label", "type", "required", "choices", "default_value", "rule"]

def toJson (f : Field) : Json :=
  .object <|
    Json.optionalMember "choices" (if f.choices.isEmpty then none else some (.ofStrings f.choices))
      ++ Json.optionalMember "default_value" f.default?
      ++ [("id", .string f.id), ("label", .string f.label), ("required", .bool f.required)]
      ++ Json.optionalMember "rule" (if f.rule.isEmpty then none else some f.rule.toJson)
      ++ [("type", f.widget.toJson)]

def ofJson? (j : Json) : Option Field := do
  let [id, label, widget, required, choices, default, rule] ← j.record? members | none
  let id ← Json.required Json.string? id
  let label ← Json.required Json.string? label
  let widget ← Json.required Widget.ofJson? widget
  let required ← Json.withDefault false Json.bool? required
  let choices ← Json.withDefault [] Json.strings? choices
  let default? ← Json.optional (fun value => some value.canonical) default
  let rule ← Json.withDefault .empty Rule.ofJson? rule
  return { id, label, widget, required, choices, default?, rule }

/-- The part of a document that a reader of fields looks at. -/
def known : Draft → Draft :=
  Draft.record members fun _ part => part

end Field

namespace Policy

def members : List String :=
  ["debounce_ms", "indent_step_em"]

def toJson (p : Policy) : Json :=
  .object [("debounce_ms", .ofNat p.debounce), ("indent_step_em", .ofScalar p.indentStep)]

def ofJson? (j : Json) : Option Policy := do
  let [debounce, indentStep] ← j.record? members | none
  let debounce ← Json.withDefault standard.debounce Json.natural? debounce
  let indentStep ← Json.withDefault standard.indentStep Json.single? indentStep
  return { debounce, indentStep }

/-- The part of a document that a reader of policies looks at. -/
def known : Draft → Draft :=
  Draft.record members fun _ part => part

/-- The policy that a JSON text describes. -/
def ofText? (text : String) : Option Policy :=
  (Json.ofTextKnowing? known text).bind ofJson?

end Policy

namespace FormSpec

def members : List String :=
  ["id", "title", "version", "description", "visibility_policy", "fields"]

def toJson (s : FormSpec) : Json :=
  .object <|
    Json.optionalMember "description" (s.description?.map .string)
      ++ [("fields", .array (s.fields.map Field.toJson)), ("id", .string s.id),
        ("title", .string s.title), ("version", .string s.version)]
      ++ Json.optionalMember "visibility_policy" (s.policy?.map Policy.toJson)

def ofJson? (j : Json) : Option FormSpec := do
  let [id, title, version, description, policy, fields] ← j.record? members | none
  let id ← Json.required Json.string? id
  let title ← Json.required Json.string? title
  let version ← Json.required Json.string? version
  let description? ← Json.optional Json.string? description
  let policy? ← Json.optional Policy.ofJson? policy
  let fields ← (← Json.required Json.array? fields).mapM Field.ofJson?
  return { id, title, version, description?, policy?, fields }

/-- The part of a document that a reader of form definitions looks at. -/
def known : Draft → Draft :=
  Draft.record members fun name part =>
    if name = "fields" then part.eachItem Field.known
    else if name = "visibility_policy" then Policy.known part
    else part

/-- The definition that a JSON text describes. -/
def ofText? (text : String) : Option FormSpec :=
  (Json.ofTextKnowing? known text).bind ofJson?

end FormSpec

end FormLogic
