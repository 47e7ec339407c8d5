import FormLogic.Json.Basic
import FormLogic.Number.Decimal

/-!
# JSON numerals

The written form of a JSON number and the number it denotes. A numeral without point and exponent
denotes a whole number as long as that fits into 64 bits. Any other numeral is read in steps, each
rounded to a double: the digits that fit into 64 bits, then a multiplication or division by a
power of ten. A numeral of too large a magnitude denotes nothing.
-/

namespace FormLogic

/-- A JSON number as written. -/
structure Numeral where
  negative : Bool
  whole : List Char
  /-- The digits after a point. -/
  fraction : Option (List Char)
  /-- The exponent, whether it is negative and its digits. -/
  exponent : Option (Bool × List Char)

namespace Numeral

/-- Digits, without a zero in front of others. -/
def isWhole : List Char → Bool
  | [] => false
  | ['0'] => true
  | '0' :: _ => false
  | _ => true

/-- A point and at least one digit, or no point. -/
def splitFraction? : List Char → Option (Option (List Char) × List Char)
  | '.' :: rest =>
    match rest.span isDigit with
    | ([], _) => none
    | (digits, rest) => some (some digits, rest)
  | cs => some (none, cs)

/-- What is left must be an exponent with at least one digit, or nothing. -/
def exponent? : List Char → Option (Option (Bool × List Char))
  | [] => some none
  | 'e' :: rest | 'E' :: rest =>
    let (negative, digits) := splitSign rest
    if digits ≠ [] ∧ digits.all isDigit then some (some (negative, digits)) else none
  | _ => none

/-- The numeral that a whole text is. -/
def ofChars? (cs : List Char) : Option Numeral := do
  let (negative, cs) := match cs with
    | '-' :: rest => (true, rest)
    | _ => (false, cs)
  let (whole, rest) := cs.span isDigit
  if !isWhole whole then none
  let (fraction, rest) ← splitFraction? rest
  let exponent ← exponent? rest
  return ⟨negative, whole, fraction, exponent⟩

/-- The double nearest to a power of ten. -/
def tenTo (n : Nat) : Rat :=
  Format.double.nearest ((10 : Rat) ^ n)

/-- A rounded product with a power of ten, if it is in range. -/
def scaleUp? (x : Rat) (n : Nat) : Option Rat :=
  if x = 0 then some 0
  else if 308 < n then none
  else
    let r := Format.double.nearest (x * tenTo n)
    if (2 : Rat) ^ Format.double.maxExponent ≤ r then none else some r

/-- A rounded quotient by a power of ten. A power beyond the range of a double is applied in two
    steps, and beyond twice the range nothing is left of 64 bits. -/
def scaleDown (x : Rat) (n : Nat) : Rat :=
  if n ≤ 308 then Format.double.nearest (x / tenTo n)
  else if n ≤ 616 then
    Format.double.nearest (Format.double.nearest (x / tenTo 308) / tenTo (n - 308))
  else 0

/-- Takes digits into a significand for as long as it fits into 64 bits; also gives the digits
    left over. -/
def absorb (significand : Nat) : List Char → Nat × List Char
  | [] => (significand, [])
  | c :: rest =>
    let next := 10 * significand + digitValue c
    if next < wordLimit then absorb next rest else (significand, c :: rest)

/-- The significand and the power of ten that goes with it, the written exponent left aside. A
    digit of the whole part that no longer fits counts as a place; one of the fraction is
    dropped. -/
def significand (n : Numeral) : Nat × Int :=
  let fraction := n.fraction.getD []
  let (whole, wholeLeft) := absorb 0 n.whole
  let (all, fractionLeft) := absorb whole fraction
  (all, (wholeLeft.length : Int) - (fraction.length - fractionLeft.length))

/-- A written exponent of at least this size is not looked at: nothing but zero is left of a number
    with a negative one, and a positive one is out of range. -/
def exponentLimit : Nat := 0x80000000

/-- The magnitude of a numeral that is read as a double. -/
def magnitude? (n : Numeral) : Option Rat :=
  let (digits, places) := n.significand
  let (negative, written) := match n.exponent with
    | some (negative, written) => (negative, digitsValue written)
    | none => (false, 0)
  if exponentLimit ≤ written then
    if digits ≠ 0 ∧ !negative then none else some 0
  else
    let x := Format.double.nearest digits
    match places + (if negative then -(written : Int) else written) with
    | .ofNat up => scaleUp? x up
    | .negSucc down => some (scaleDown x (down + 1))

/-- The number that a numeral denotes; `none` if it is out of range. -/
def toNumber? (n : Numeral) : Option Json.Number :=
  let value := digitsValue n.whole
  let plain := n.fraction.isNone && n.exponent.isNone
  if plain && !n.negative && value < wordLimit then some (.whole value)
  else if plain && n.negative && 0 < value && 2 * value ≤ wordLimit then some (.whole (-(value : Int)))
  else n.magnitude?.map fun r =>
    .floating (.ofRat n.negative (if n.negative then -r else r))

end Numeral

end FormLogic
