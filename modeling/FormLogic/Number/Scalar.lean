/-!
# Numbers

A number in a form is an exact rational, a zero with a minus sign, an infinity, or no number at
all. Which rationals occur is decided by the `Format` that a number was rounded to; everything
else, the order included, is exact.
-/

namespace FormLogic

/-- A finite number: a rational, or the second zero. -/
inductive FiniteScalar where
  | negativeZero
  | rational (value : Rat)
  deriving DecidableEq

namespace FiniteScalar

/-- Zero with the given sign. -/
def zero (negative : Bool) : FiniteScalar :=
  if negative then negativeZero else rational 0

/-- The rational that a number stands for; both zeros stand for `0`. -/
def toRat : FiniteScalar → Rat
  | negativeZero => 0
  | rational value => value

/-- Whether the number carries a minus sign; a negative zero does. -/
def isNegative : FiniteScalar → Bool
  | negativeZero => true
  | rational value => value < 0

def neg : FiniteScalar → FiniteScalar
  | negativeZero => rational 0
  | rational value => if value = 0 then negativeZero else rational (-value)

/-- A rational with the sign that a zero takes. -/
def ofRat (negative : Bool) (value : Rat) : FiniteScalar :=
  if value = 0 then zero negative else rational value

/-- The whole part, toward zero; the sign is kept when nothing else remains. -/
def trunc (x : FiniteScalar) : FiniteScalar :=
  ofRat x.isNegative (x.toRat.num.tdiv x.toRat.den)

end FiniteScalar

/-- A number as fields and literals hold it. -/
inductive Scalar where
  | nan
  | infinite (negative : Bool)
  | finite (value : FiniteScalar)
  deriving DecidableEq

namespace Scalar

/-- A rational as a number. -/
def ofRat (value : Rat) : Scalar :=
  finite (.rational value)

def isNaN : Scalar → Bool
  | nan => true
  | infinite _ | finite _ => false

/-- Whether the number carries a minus sign. -/
def isNegative : Scalar → Bool
  | nan => false
  | infinite negative => negative
  | finite x => x.isNegative

def neg : Scalar → Scalar
  | nan => nan
  | infinite negative => infinite (!negative)
  | finite x => finite x.neg

/-- Where a number lies on the line: below, among or above the rationals, and at which rational.
    What is not a number lies nowhere. -/
def rank : Scalar → Option (Int × Rat)
  | nan => none
  | infinite negative => some (if negative then -1 else 1, 0)
  | finite x => some (0, x.toRat)

/-- The order of two numbers; `none` as soon as one of them is not a number. -/
def compare? (a b : Scalar) : Option Ordering := do
  let (side, p) ← a.rank
  let (side', q) ← b.rank
  return (compareOfLessAndEq side side').then (compareOfLessAndEq p q)

/-- The exact product. Its sign is negative when exactly one factor is, and an infinity times
    zero is not a number. -/
def mul (a b : Scalar) : Scalar :=
  let negative := a.isNegative != b.isNegative
  match a, b with
  | nan, _ | _, nan => nan
  | infinite _, infinite _ => infinite negative
  | infinite _, finite x | finite x, infinite _ =>
    if x.toRat = 0 then nan else infinite negative
  | finite x, finite y => finite (.ofRat negative (x.toRat * y.toRat))

/-- The whole part, toward zero. -/
def trunc : Scalar → Scalar
  | finite x => finite x.trunc
  | other => other

end Scalar

end FormLogic
