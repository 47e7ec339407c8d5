import FormLogic.Service.Error
import FormLogic.Spec.Document
import FormLogic.Spec.Membership

/-!
# Configuration of the service

A configuration may hold a form definition, as JSON text, and a policy that goes before the policy
of the form. Without a definition the sample form is served.
-/

namespace FormLogic

structure ServiceConfig where
  specText? : Option String
  policy? : Option Policy

namespace ServiceConfig

def members : List String :=
  ["form_spec_json", "visibility_policy"]

def toJson (c : ServiceConfig) : Json :=
  .object <|
    Json.optionalMember "form_spec_json" (c.specText?.map .string)
      ++ Json.optionalMember "visibility_policy" (c.policy?.map Policy.toJson)

def ofJson? (j : Json) : Option ServiceConfig := do
  let [specText, policy] ← j.record? members | none
  let specText? ← Json.optional Json.string? specText
  let policy? ← Json.optional Policy.ofJson? policy
  return { specText?, policy? }

/-- The part of a document that a reader of configurations looks at. -/
def known : Draft → Draft :=
  Draft.record members fun name part =>
    if name = "visibility_policy" then Policy.known part else part

/-- The configuration that a text is; a blank text configures nothing. -/
def ofText? (text : String) : Option ServiceConfig :=
  if Text.allBlank text then some ⟨none, none⟩
  else (Json.ofTextKnowing? known text).bind ofJson?

/-- The form that a configuration serves. -/
def spec? (c : ServiceConfig) : Option FormSpec := do
  let spec ← match c.specText? with
    | some text => FormSpec.ofText? text
    | none => some FormSpec.membership
  return match c.policy? with
    | some policy => { spec with policy? := some policy }
    | none => spec

end ServiceConfig

end FormLogic
