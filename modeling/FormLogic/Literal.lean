import FormLogic.Json.Basic
import FormLogic.Number.Decimal
import FormLogic.Number.Notation
import FormLogic.Text.Blank

/-!
# Literals

What a rule compares a field with.
-/

namespace FormLogic

inductive Literal where
  | bool (value : Bool)
  | number (value : Scalar)
  | text (value : String)
  | list (items : List String)
  deriving DecidableEq

/-- The number that a text denotes, blanks around it left aside. -/
def numberOfText? (text : String) : Option Scalar :=
  (Scalar.ofChars? (Text.trim text.toList)).filter (!·.isNaN)

namespace Literal

/-- The literal in words. -/
def display : Literal → String
  | bool value => if value then "true" else "false"
  | number value => value.text
  | text value => value
  | list items => ",".intercalate items

def text? : Literal → Option String
  | text value => some value
  | _ => none

/-- The literal as a number; a text counts as the number it denotes. -/
def scalar? : Literal → Option Scalar
  | number value => some value
  | text value => numberOfText? value
  | bool _ | list _ => none

def toJson : Literal → Json
  | bool value => .bool value
  | number value => .ofScalar value
  | text value => .string value
  | list items => .ofStrings items

def ofJson? : Json → Option Literal
  | .bool value => some (bool value)
  | .number value => some (number value.toDouble)
  | .string value => some (text value)
  | j@(.array _) => j.strings?.map list
  | .null | .object _ => none

end Literal

end FormLogic
