import FormLogic.Number.Format
import Mathlib.Algebra.Order.Field.Rat
import Mathlib.Algebra.Order.Field.Power
import Mathlib.Data.Rat.Floor
import Mathlib.Tactic.Linarith
import Mathlib.Tactic.Positivity
import Mathlib.Tactic.Ring

/-!
# Rounding

A number is rounded by at most half a unit, and the unit is no larger than the number itself unless
the number is very small. So numbers that are well within the range of a format stay finite.
-/

namespace FormLogic

/-- Whether a number is neither an infinity nor no number at all. -/
def Scalar.isFinite : Scalar → Bool
  | finite _ => true
  | nan | infinite _ => false

theorem Scalar.isFinite_iff {x : Scalar} : x.isFinite = true ↔ ∃ value, x = .finite value := by
  cases x <;> simp [isFinite]

theorem Scalar.isFinite_trunc (x : Scalar) : x.trunc.isFinite = x.isFinite := by
  cases x <;> rfl

/-! ## Whole numbers -/

theorem abs_roundEven_sub_le (x : Rat) : |(roundEven x : Rat) - x| ≤ 1 / 2 := by
  have below : (x.floor : Rat) ≤ x := Rat.floor_le x
  have above := x.lt_floor_add_one
  push_cast at above
  rw [abs_le, roundEven]
  split
  · constructor <;> linarith
  · split
    · push_cast
      constructor <;> linarith
    · have exact : x = x.floor + 1 / 2 := by linarith
      rcases Int.emod_two_eq_zero_or_one x.floor with even | odd
      · rw [even]
        push_cast
        constructor <;> linarith
      · rw [odd]
        push_cast
        constructor <;> linarith

/-! ## Units -/

theorem rat_abs_eq (q : Rat) : q.abs = |q| := by
  rw [Rat.abs]
  split
  · next nonneg => rw [abs_of_nonneg nonneg]
  · next negative => rw [abs_of_neg (not_le.mp negative)]

/-- The quotient of two natural numbers is larger than half the quotient of the powers of two below
them. -/
theorem two_zpow_log2_lt {n d : Nat} (pos : 0 < n) (posDen : 0 < d) :
    (2 : Rat) ^ ((n.log2 : Int) - d.log2 - 1) ≤ n / d := by
  have power : (2 : Rat) ^ ((n.log2 : Int) - d.log2 - 1) = 2 ^ n.log2 / 2 ^ (d.log2 + 1) := by
    rw [sub_sub, zpow_sub₀ two_ne_zero, zpow_natCast]
    norm_cast
  have upper : (2 : Rat) ^ n.log2 ≤ n := by
    exact_mod_cast Nat.log2_self_le pos.ne'
  have lower : (d : Rat) ≤ 2 ^ (d.log2 + 1) := by
    exact_mod_cast Nat.lt_log2_self.le
  rw [power]
  exact div_le_div₀ (by positivity) upper (by positivity) lower

theorem abs_eq_natAbs_div_den (q : Rat) : |q| = (q.num.natAbs : Rat) / q.den := by
  conv_lhs => rw [← Rat.num_div_den q, abs_div, Nat.abs_cast]
  rw [Nat.cast_natAbs, Int.cast_abs]

theorem two_zpow_binaryExponent_le {q : Rat} (nonzero : q ≠ 0) :
    (2 : Rat) ^ binaryExponent q ≤ |q| := by
  rw [binaryExponent]
  split
  · next fits => rwa [rat_abs_eq] at fits
  · have numerator : 0 < q.num.natAbs := Int.natAbs_pos.mpr (Rat.num_ne_zero.mpr nonzero)
    rw [abs_eq_natAbs_div_den]
    exact two_zpow_log2_lt numerator q.den_pos

namespace Format

variable {f : Format}

/-- A number is rounded by at most half a unit. -/
theorem abs_nearest_sub_le (f : Format) {q : Rat} (nonzero : q ≠ 0) :
    |f.nearest q - q| ≤ 2 ^ f.unitExponent q / 2 := by
  have positive : (0 : Rat) < 2 ^ f.unitExponent q := by positivity
  rw [nearest, if_neg nonzero]
  generalize (2 : Rat) ^ f.unitExponent q = unit at positive
  have inUnits : (roundEven (q / unit) : Rat) * unit - q =
      (roundEven (q / unit) - q / unit) * unit := by
    rw [sub_mul, div_mul_cancel₀ _ positive.ne']
  calc |(roundEven (q / unit) : Rat) * unit - q|
      = |(roundEven (q / unit) : Rat) - q / unit| * unit := by
        rw [inUnits, abs_mul, abs_of_pos positive]
    _ ≤ 1 / 2 * unit := mul_le_mul_of_nonneg_right (abs_roundEven_sub_le _) positive.le
    _ = unit / 2 := by ring

/-- A unit is no larger than the number that is rounded, or than one. -/
theorem unit_le (wide : 1 ≤ f.width) (small : f.minExponent ≤ 0) {q : Rat} (nonzero : q ≠ 0) :
    (2 : Rat) ^ f.unitExponent q ≤ |q| + 1 := by
  have nonneg := abs_nonneg q
  rw [unitExponent]
  rcases max_choice (binaryExponent q - (f.width - 1)) f.minExponent with normal | subnormal
  · rw [normal]
    have within : (2 : Rat) ^ (binaryExponent q - (f.width - 1)) ≤ 2 ^ binaryExponent q :=
      zpow_le_zpow_right₀ one_le_two (by omega)
    linarith [two_zpow_binaryExponent_le nonzero]
  · rw [subnormal]
    have within : (2 : Rat) ^ f.minExponent ≤ 1 := zpow_le_one_of_nonpos₀ one_le_two small
    linarith

theorem abs_nearest_le (wide : 1 ≤ f.width) (small : f.minExponent ≤ 0) (q : Rat) :
    |f.nearest q| ≤ 2 * |q| + 1 := by
  by_cases zero : q = 0
  · subst zero
    norm_num [nearest]
  · have unit := unit_le wide small zero
    have rounded := f.abs_nearest_sub_le zero
    linarith [abs_nonneg q, abs_sub_abs_le_abs_sub (f.nearest q) q]

/-- Numbers well below the limit of a format stay finite. -/
theorem isFinite_round (wide : 1 ≤ f.width) (small : f.minExponent ≤ 0) {q : Rat}
    (bound : 2 * |q| + 1 < 2 ^ f.maxExponent) : (f.round q).isFinite = true := by
  have inRange : ¬ (2 : Rat) ^ f.maxExponent ≤ (f.nearest q).abs := by
    rw [rat_abs_eq, not_le]
    exact (abs_nearest_le wide small q).trans_lt bound
  rw [round]
  simp only [if_neg inRange]
  rfl

end Format

/-- A whole number of up to 64 bits, its sign not counted, is stored as a finite number. -/
theorem Scalar.isFinite_ofInt {n : Int} (bound : |n| ≤ 2 ^ 64) : (ofInt n).isFinite = true := by
  apply Format.isFinite_round (by decide) (by decide)
  have cast : |(n : Rat)| ≤ 2 ^ 64 := by exact_mod_cast bound
  have room : 2 * (2 : Rat) ^ 64 + 1 < 2 ^ Format.double.maxExponent := by
    calc 2 * (2 : Rat) ^ 64 + 1 < 2 ^ 66 := by norm_num
      _ ≤ 2 ^ Format.double.maxExponent := pow_le_pow_right₀ one_le_two (by decide)
  linarith

end FormLogic
