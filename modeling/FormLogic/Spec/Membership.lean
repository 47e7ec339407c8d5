import FormLogic.Spec.Basic

/-!
# A sample form

The form that is used where none is given: a sign-up form with a section for guardians and one for
newsletters.
-/

namespace FormLogic

namespace FormSpec

/-- The rule of a single condition. -/
def sampleRule (target operator : String) (literal? : Option Literal) : Rule :=
  .leaf { target, operator, literal? }

def membership : FormSpec where
  id := "membership"
  title := "Membership"
  version := "1.0.0"
  description? := some "Sign-up form with guardian and newsletter sections."
  policy? := some { debounce := 300, indentStep := .ofRat 2 }
  fields := [
    { id := "age", label := "Age", widget := .number, required := true, choices := [],
      default? := none, rule := .empty },
    { id := "guardian", label := "Guardian name", widget := .singleline, required := true,
      choices := [], default? := none, rule := sampleRule "age" "lt" (some (.text "18")) },
    { id := "guardian_phone", label := "Guardian phone", widget := .singleline, required := true,
      choices := [], default? := none, rule := sampleRule "guardian" "neq" (some (.text "")) },
    { id := "subscribe", label := "Subscribe", widget := .checkbox, required := false,
      choices := [], default? := none, rule := .empty },
    { id := "topics", label := "Topics", widget := .checkboxes, required := true,
      choices := ["News", "Offers", "Events"], default? := none,
      rule := sampleRule "subscribe" "c" none },
    { id := "frequency", label := "Frequency", widget := .radio, required := false,
      choices := ["Daily", "Weekly"], default? := none,
      rule := .group .and
        [sampleRule "subscribe" "c" none, sampleRule "topics" "ct" (some (.text "c1"))] },
    { id := "start", label := "Start date", widget := .date, required := false, choices := [],
      default? := none,
      rule := .group .or
        [sampleRule "age" "ute" (some (.number (.ofRat 18))), sampleRule "subscribe" "c" none] }]

end FormSpec

end FormLogic
