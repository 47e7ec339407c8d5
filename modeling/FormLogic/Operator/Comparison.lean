import FormLogic.Form.FieldValue

/-!
# Comparisons

How a value compares with a literal. Each comparison may have no answer, and an operator holds
only where its comparison gives the answer that it asks for; so neither an operator nor its
negation holds of what cannot be compared.
-/

namespace FormLogic

namespace FieldValue

/-- The order of a number or of a moment against a literal. A text literal is read as a number or
    as a moment in any of the layouts. -/
def order? : FieldValue → Literal → Option Ordering
  | number value, literal => literal.scalar?.bind value.compare?
  | timestamp seconds, .number value => (Scalar.ofInt seconds).compare? value
  | timestamp seconds, .text value => (Timestamp.ofText? value).map (compare seconds)
  | _, _ => none

/-- The truth value that a text names. -/
def boolOfText? : String → Option Bool
  | "true" => some true
  | "false" => some false
  | _ => none

/-- Whether a value is equal to a literal. A set of picked options is equal to a list with the
    same elements, and to a text if that is the only option picked. -/
def equals? : FieldValue → Literal → Option Bool
  | text _, .list _ => none
  | text value, literal => some (value == literal.display)
  | value@(number _), literal | value@(timestamp _), literal =>
    (value.order? literal).map Ordering.isEq
  | checked value, .bool expected => some (value == expected)
  | checked value, .text expected => (boolOfText? expected).map (value == ·)
  | choice key, .text expected => some (key == some expected)
  | choices keys, .list expected => some (keys == KeySet.ofList expected)
  | choices keys, .text expected => some (keys == KeySet.ofList [expected])
  | _, _ => none

/-- Whether a value contains a literal: a text as a piece of it, a choice as an option picked. -/
def contains? : FieldValue → Literal → Option Bool
  | text _, .list _ => none
  | text value, literal => some (Text.occursIn literal.display.toList value.toList)
  | choices keys, .text key => some (key ∈ keys)
  | choice key, .text expected => some (key == some expected)
  | _, _ => none

/-- Whether a value, or one of the options picked, is among some texts. -/
def isAmong? (allowed : List String) : FieldValue → Option Bool
  | text value => some (allowed.contains value)
  | choice key => some (key.any allowed.contains)
  | choices keys => some (keys.toList.any allowed.contains)
  | _ => none

/-- Whether a value is among the texts of a literal. -/
def memberOf? (value : FieldValue) : Literal → Option Bool
  | .list items => value.isAmong? items
  | .text item => value.isAmong? [item]
  | .bool _ | .number _ => none

/-- Whether a box is checked. -/
def checked? : FieldValue → Option Bool
  | checked value => some value
  | _ => none

end FieldValue

end FormLogic
