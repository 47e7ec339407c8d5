import FormLogic.Number.Scalar

/-!
# Floating point formats

A format fixes which rationals can be stored: those of the shape `n * 2 ^ e` with a significand
`n` of limited width and an exponent `e` that does not fall below a least one. Rounding goes to
the nearest such rational, from halfway to the even significand, and to an infinity from the
format's limit on.
-/

namespace FormLogic

/-- The integer nearest to `q`; a half goes to the even neighbour. -/
def roundEven (q : Rat) : Int :=
  let whole := q.floor
  let rest := q - whole
  if rest < 1 / 2 then whole
  else if 1 / 2 < rest then whole + 1
  else whole + whole % 2

/-- The exponent `e` with `2 ^ e ≤ |q| < 2 ^ (e + 1)`, for a `q` other than zero. -/
def binaryExponent (q : Rat) : Int :=
  let e : Int := q.num.natAbs.log2 - q.den.log2
  if (2 : Rat) ^ e ≤ q.abs then e else e - 1

/-- A binary floating point format. -/
structure Format where
  /-- Number of bits of a significand. -/
  width : Nat
  /-- Exponent of the smallest positive number. -/
  minExponent : Int
  /-- No number reaches two to this power. -/
  maxExponent : Nat

namespace Format

/-- Sixty-four bits: fields, literals and JSON. -/
def double : Format := ⟨53, -1074, 1024⟩

/-- Thirty-two bits: the indentation step. -/
def single : Format := ⟨24, -149, 128⟩

/-- The exponent of the last bit that the format keeps of `q`. -/
def unitExponent (f : Format) (q : Rat) : Int :=
  max (binaryExponent q - (f.width - 1)) f.minExponent

/-- The nearest rational of the format, its upper limit left aside. -/
def nearest (f : Format) (q : Rat) : Rat :=
  if q = 0 then 0
  else
    let unit := (2 : Rat) ^ f.unitExponent q
    roundEven (q / unit) * unit

/-- The number that the format stores for `q`. -/
def round (f : Format) (q : Rat) : Scalar :=
  let r := f.nearest q
  if (2 : Rat) ^ f.maxExponent ≤ r.abs then .infinite (q < 0)
  else .finite (.ofRat (q < 0) r)

/-- A number brought into the format. -/
def convert (f : Format) : Scalar → Scalar
  | .finite (.rational value) => f.round value
  | other => other

end Format

namespace Scalar

/-- The double nearest to an integer. -/
def ofInt (n : Int) : Scalar :=
  Format.double.round n

end Scalar

end FormLogic
