import FormLogic.Json.Printer
import FormLogic.Spec.Basic
import FormLogic.Text.Blank

/-!
# Answers

What a widget holds at the moment, and how it is set from JSON. A text, number or date is held as
typed; a choice as one flag for each option.
-/

namespace FormLogic

/-- The raw contents of a widget. -/
inductive Answer where
  | text (value : String)
  | checked (value : Bool)
  | options (flags : List Bool)
  deriving DecidableEq

/-- Why a JSON value is no answer for a field. -/
inductive Rejection where
  | notBoolean
  | tooManyOptions
  | notOptionKey
  | unknownOption (pick : String)
  | notScalar
  deriving DecidableEq

namespace Rejection

def message : Rejection → String
  | notBoolean => "expected a boolean"
  | tooManyOptions => "expected at most one option"
  | notOptionKey => "expected option keys"
  | unknownOption pick => "unknown option '" ++ pick ++ "'"
  | notScalar => "expected a scalar value"

end Rejection

/-- The position of the option that a text names: by its key, or else by its label. -/
def optionIndex? (choices : List String) (pick : String) : Option Nat :=
  ((List.range choices.length).find? fun index => choiceKey index == pick).or
    (choices.findIdx? (· == pick))

namespace Answer

/-- An untouched widget. -/
def blank (w : Widget) (optionCount : Nat) : Answer :=
  match w.kind with
  | .boolean => checked false
  | .singleChoice | .multiChoice => options (List.replicate optionCount false)
  | .text | .numeric | .date => text ""

/-- Whether nothing has been filled in. -/
def isBlank : Answer → Bool
  | text value => Text.allBlank value
  | checked value => !value
  | options flags => !flags.any id

/-- One more option picked. -/
def pick (choices : List String) (flags : List Bool) (j : Json) : Except Rejection (List Bool) :=
  match j with
  | .string name =>
    match optionIndex? choices name with
    | some index => .ok (flags.set index true)
    | none => .error (.unknownOption name)
  | _ => .error .notOptionKey

/-- The options that a JSON value picks: none for null, the items of an array, or itself. -/
def picks : Json → List Json
  | .null => []
  | .array items => items
  | other => [other]

/-- The answer that a JSON value gives to a field with the widget `w`. -/
def ofJson (w : Widget) (choices : List String) (j : Json) : Except Rejection Answer :=
  match w.kind with
  | .boolean =>
    match j with
    | .bool value => .ok (checked value)
    | .null => .ok (checked false)
    | _ => .error .notBoolean
  | .singleChoice | .multiChoice =>
    if w.kind = .singleChoice ∧ 1 < (picks j).length then .error .tooManyOptions
    else options <$> (picks j).foldlM (pick choices) (List.replicate choices.length false)
  | .text | .numeric | .date =>
    match j with
    | .string value => .ok (text value)
    | .number value => .ok (text value.text)
    | .bool value => .ok (text (if value then "true" else "false"))
    | .null => .ok (text "")
    | .array _ | .object _ => .error .notScalar

end Answer

end FormLogic
