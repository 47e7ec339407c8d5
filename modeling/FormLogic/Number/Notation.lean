import FormLogic.Number.Shortest

/-!
# Written numbers

Two notations. Plain text never uses an exponent and writes whole numbers without a point. JSON
marks every number of a floating format by a point or an exponent, and turns to an exponent for
magnitudes outside `1e-5` to `1e16`.
-/

namespace FormLogic

namespace Digits

/-- The digits as text, without a sign. -/
def text (d : Digits) : List Char :=
  Nat.toDigits 10 d.digits

/-- The power of ten of the first digit. -/
def leadingExponent (d : Digits) : Int :=
  d.text.length - 1 + d.exponent

/-- Positional notation without an exponent. -/
def positional (d : Digits) : List Char :=
  let text := d.text
  match d.exponent with
  | .ofNat zeros => text ++ List.replicate zeros '0'
  | .negSucc n =>
    let places := n + 1
    if places < text.length then
      text.take (text.length - places) ++ '.' :: text.drop (text.length - places)
    else
      '0' :: '.' :: List.replicate (places - text.length) '0' ++ text

/-- Notation with one digit before the point and a signed exponent. -/
def scientific (d : Digits) : List Char :=
  let e := d.leadingExponent
  let mantissa := match d.text with
    | first :: rest@(_ :: _) => first :: '.' :: rest
    | text => text
  mantissa ++ 'e' :: (if e < 0 then '-' else '+') :: Nat.toDigits 10 e.natAbs

/-- Positional notation between `1e-5` and `1e16`, always with a point; scientific notation
    elsewhere. -/
def marked (d : Digits) : List Char :=
  if -5 ≤ d.leadingExponent ∧ d.leadingExponent ≤ 15 then
    d.positional ++ (if 0 ≤ d.exponent then ['.', '0'] else [])
  else d.scientific

end Digits

/-- A text with a minus sign in front if asked. -/
def signed (negative : Bool) (text : List Char) : String :=
  String.ofList (if negative then '-' :: text else text)

/-- The plain text of a number of a format. Of two equally near decimals the larger is written. -/
def Format.plain (f : Format) : Scalar → String
  | .nan => "NaN"
  | .infinite negative => signed negative ['i', 'n', 'f']
  | .finite x =>
    signed x.isNegative
      (if x.toRat = 0 then ['0'] else (f.shortest .up x.toRat.abs).positional)

/-- The plain text of a double. -/
def Scalar.text (x : Scalar) : String :=
  Format.double.plain x

/-- The JSON text of a double. Of two equally near decimals the one with the even last digit is
    written. -/
def FiniteScalar.jsonText (x : FiniteScalar) : String :=
  signed x.isNegative
    (if x.toRat = 0 then ['0', '.', '0']
    else (Format.double.shortest .even x.toRat.abs).marked)

end FormLogic
