import FormLogic.Number.Format

/-!
# Reading decimals

The texts that a number field accepts: an optional sign, digits with an optional point somewhere
among or beside them, an optional exponent; or one of the words for an infinity or for no number,
in any case. The value is rounded once, from the exact decimal.
-/

namespace FormLogic

def isDigit (c : Char) : Bool :=
  '0' ≤ c && c ≤ '9'

def digitValue (c : Char) : Nat :=
  c.toNat - '0'.toNat

/-- The value of a run of digits. -/
def digitsValue (cs : List Char) : Nat :=
  cs.foldl (fun n c => 10 * n + digitValue c) 0

/-- Two to the power of 64: the numbers below it fit into 64 bits. -/
def wordLimit : Nat := 0x10000000000000000

/-- An optional sign in front, and whether it was a minus. -/
def splitSign : List Char → Bool × List Char
  | '+' :: rest => (false, rest)
  | '-' :: rest => (true, rest)
  | cs => (false, cs)

/-- A whole number with an optional sign and nothing else. -/
def signedWhole? (cs : List Char) : Option Int :=
  let (negative, digits) := splitSign cs
  if digits ≠ [] ∧ digits.all isDigit then
    some (if negative then -(digitsValue digits : Int) else digitsValue digits)
  else none

/-- A decimal as written: `coefficient * 10 ^ exponent`. -/
structure Decimal where
  coefficient : Nat
  exponent : Int

namespace Decimal

/-- The double nearest to a decimal. The two early answers spare the large power: with `n` digits
    the decimal lies below `10 ^ (n + exponent)` and not below a tenth of that. -/
def toScalar (d : Decimal) : Scalar :=
  if d.coefficient = 0 then .ofRat 0
  else
    let order : Int := (Nat.toDigits 10 d.coefficient).length + d.exponent
    if 400 < order then .infinite false
    else if order < -400 then .ofRat 0
    else Format.double.round (d.coefficient * (10 : Rat) ^ d.exponent)

/-- Digits with an optional point and an optional exponent. -/
def ofChars? (cs : List Char) : Option Decimal := do
  let (whole, rest) := cs.span isDigit
  let (fraction, rest) := match rest with
    | '.' :: rest => rest.span isDigit
    | _ => ([], rest)
  if whole = [] ∧ fraction = [] then none
  let exponent ← match rest with
    | [] => some 0
    | 'e' :: rest | 'E' :: rest => signedWhole? rest
    | _ => none
  return ⟨digitsValue (whole ++ fraction), exponent - fraction.length⟩

end Decimal

namespace Scalar

/-- An unsigned number or one of the words. -/
def ofUnsignedChars? (cs : List Char) : Option Scalar :=
  match String.ofList (cs.map Char.toLower) with
  | "inf" | "infinity" => some (.infinite false)
  | "nan" => some .nan
  | _ => (Decimal.ofChars? cs).map Decimal.toScalar

/-- The number that a whole text denotes. -/
def ofChars? (cs : List Char) : Option Scalar :=
  let (negative, rest) := splitSign cs
  (ofUnsignedChars? rest).map fun x => if negative then x.neg else x

end Scalar

end FormLogic
