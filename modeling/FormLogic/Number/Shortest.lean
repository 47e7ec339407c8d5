import FormLogic.Number.Format

/-!
# Shortest digits

Of all decimals that round to a given number of a format, the one with the fewest digits is
written, and of those with equally few the nearest. The search goes over decimal grids, from one
digit up: if any point of a grid lies among the rationals that round to the number, then so does
one of the number's two neighbours on that grid.
-/

namespace FormLogic

/-- A positive decimal: `digits * 10 ^ exponent`. -/
structure Digits where
  digits : Nat
  exponent : Int
  deriving DecidableEq

namespace Digits

def toRat (d : Digits) : Rat :=
  d.digits * (10 : Rat) ^ d.exponent

/-- Drops zeros at the end, at most `limit` of them. -/
def trim : Nat → Digits → Digits
  | 0, d => d
  | limit + 1, d =>
    if d.digits % 10 = 0 ∧ d.digits ≠ 0 then trim limit ⟨d.digits / 10, d.exponent + 1⟩ else d

end Digits

/-- The exponent `k` with `10 ^ k ≤ q < 10 ^ (k + 1)`, for a positive `q`. -/
def decimalExponent (q : Rat) : Int :=
  let k : Int := (Nat.toDigits 10 q.num.natAbs).length - (Nat.toDigits 10 q.den).length
  if (10 : Rat) ^ k ≤ q then k else k - 1

/-- The rationals that round to one number of a format. -/
structure RoundingInterval where
  lower : Rat
  upper : Rat
  /-- Whether the two ends round to the number too. -/
  closed : Bool

namespace RoundingInterval

def contains (i : RoundingInterval) (q : Rat) : Bool :=
  if i.closed then i.lower ≤ q && q ≤ i.upper else i.lower < q && q < i.upper

end RoundingInterval

/-- Which of two decimals is written that are equally near. -/
inductive Tie where
  | even
  | up

namespace Format

/-- The rationals that the format rounds to its positive number `q`. Below a power of two the
    next number is only half as far away. -/
def interval (f : Format) (q : Rat) : RoundingInterval :=
  let e := f.unitExponent q
  let unit := (2 : Rat) ^ e
  let atPower := q = (2 : Rat) ^ binaryExponent q ∧ f.minExponent < e
  ⟨q - (if atPower then unit / 4 else unit / 2), q + unit / 2, (q / unit).floor % 2 = 0⟩

/-- The decimal on the grid of `10 ^ k` that is written for `q`, if one rounds to it. -/
def onGrid? (f : Format) (tie : Tie) (q : Rat) (k : Int) : Option Digits :=
  let scaled := q / (10 : Rat) ^ k
  let below : Digits := ⟨scaled.floor.toNat, k⟩
  let above : Digits := ⟨scaled.floor.toNat + 1, k⟩
  let rest := scaled - scaled.floor
  let preferAbove :=
    1 / 2 < rest ||
      (rest == 1 / 2 && match tie with
        | .even => below.digits % 2 == 1
        | .up => true)
  let i := f.interval q
  match 0 < below.digits && i.contains below.toRat, i.contains above.toRat with
  | true, true => some (if preferAbove then above else below)
  | true, false => some below
  | false, true => some above
  | false, false => none

/-- The fewest digits that read back as the positive number `q`. Seventeen always suffice. -/
def shortest (f : Format) (tie : Tie) (q : Rat) : Digits :=
  let k := decimalExponent q
  let found := (List.range 17).findSome? fun (n : Nat) => f.onGrid? tie q (k - n)
  (found.getD ⟨(q / (10 : Rat) ^ (k - 16)).floor.toNat, k - 16⟩).trim 20

end Format

end FormLogic
