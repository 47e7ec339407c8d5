import FormLogic.Json.Basic
import FormLogic.Proofs.Rounding

/-!
# Exact numbers

A format leaves the numbers alone that lie on its grid, so rounding twice is rounding once. The
whole numbers that fit into the significand of a double lie on its grid.
-/

namespace FormLogic

/-! ## Magnitudes -/

/-- The quotient of two natural numbers is smaller than twice the quotient of the powers of two
below them. -/
theorem lt_two_zpow_log2 (n : Nat) {d : Nat} (posDen : 0 < d) :
    (n : Rat) / d < 2 ^ ((n.log2 : Int) - d.log2 + 1) := by
  have power : (2 : Rat) ^ ((n.log2 : Int) - d.log2 + 1) = 2 ^ (n.log2 + 1) / 2 ^ d.log2 := by
    rw [sub_add_eq_add_sub, zpow_sub₀ two_ne_zero, zpow_natCast]
    norm_cast
  have upper : (n : Rat) < 2 ^ (n.log2 + 1) := by
    exact_mod_cast Nat.lt_log2_self
  have lower : (2 : Rat) ^ d.log2 ≤ d := by
    exact_mod_cast Nat.log2_self_le posDen.ne'
  rw [power]
  exact div_lt_div₀ upper lower (by positivity) (by positivity)

theorem lt_two_zpow_binaryExponent (q : Rat) : |q| < 2 ^ (binaryExponent q + 1) := by
  rw [binaryExponent]
  split
  · rw [abs_eq_natAbs_div_den]
    exact lt_two_zpow_log2 _ q.den_pos
  · next large =>
    rw [rat_abs_eq, not_le] at large
    rwa [sub_add_cancel]

theorem binaryExponent_le {q : Rat} (nonzero : q ≠ 0) {k : Int} (bound : |q| ≤ 2 ^ k) :
    binaryExponent q ≤ k := by
  have below := (two_zpow_binaryExponent_le nonzero).trans bound
  rwa [zpow_le_zpow_iff_right₀ one_lt_two] at below

theorem binaryExponent_lt {q : Rat} (nonzero : q ≠ 0) {k : Int} (bound : |q| < 2 ^ k) :
    binaryExponent q < k := by
  have below := (two_zpow_binaryExponent_le nonzero).trans_lt bound
  rwa [zpow_lt_zpow_iff_right₀ one_lt_two] at below

/-! ## Grids -/

theorem roundEven_intCast (n : Int) : roundEven (n : Rat) = n := by
  simp [roundEven]

namespace Format

variable {f : Format}

/-- A number on a grid that is no finer than the one of its own magnitude is left alone. -/
theorem nearest_of_grid {q : Rat} {n e : Int} (coarse : f.unitExponent q ≤ e)
    (grid : q = n * 2 ^ e) : f.nearest q = q := by
  by_cases zero : q = 0
  · rw [zero, nearest, if_pos rfl]
  · have positive : (0 : Rat) < 2 ^ f.unitExponent q := by positivity
    have finer : (2 : Rat) ^ e = 2 ^ (e - f.unitExponent q).toNat * 2 ^ f.unitExponent q := by
      rw [← zpow_natCast, ← zpow_add₀ two_ne_zero]
      congr 1
      omega
    have inUnits : q / 2 ^ f.unitExponent q =
        ((n * 2 ^ (e - f.unitExponent q).toNat : Int) : Rat) := by
      rw [div_eq_iff positive.ne']
      conv_lhs => rw [grid, finer]
      push_cast
      ring
    rw [nearest, if_neg zero]
    simp only
    rw [inUnits, roundEven_intCast, ← inUnits, div_mul_cancel₀ _ positive.ne']

/-- A number has at most as many units as its significand has room for, and one more at most after
rounding. -/
theorem abs_roundEven_le (f : Format) (q : Rat) :
    |roundEven (q / 2 ^ f.unitExponent q)| ≤ 2 ^ f.width := by
  have positive : (0 : Rat) < 2 ^ f.unitExponent q := by positivity
  have room : binaryExponent q + 1 ≤ f.width + f.unitExponent q := by
    have normal := le_max_left (binaryExponent q - (f.width - 1)) f.minExponent
    rw [unitExponent]
    omega
  have units : |q / 2 ^ f.unitExponent q| < 2 ^ f.width := by
    rw [abs_div, abs_of_pos positive, div_lt_iff₀ positive]
    calc |q| < 2 ^ (binaryExponent q + 1) := lt_two_zpow_binaryExponent q
      _ ≤ 2 ^ ((f.width : Int) + f.unitExponent q) := zpow_le_zpow_right₀ one_le_two room
      _ = 2 ^ f.width * 2 ^ f.unitExponent q := by rw [zpow_add₀ two_ne_zero, zpow_natCast]
  have rounded := abs_roundEven_sub_le (q / 2 ^ f.unitExponent q)
  have close := abs_sub_abs_le_abs_sub (roundEven (q / 2 ^ f.unitExponent q) : Rat)
    (q / 2 ^ f.unitExponent q)
  have cast : (|roundEven (q / 2 ^ f.unitExponent q)| : Rat) < 2 ^ f.width + 1 := by linarith
  have whole : |roundEven (q / 2 ^ f.unitExponent q)| < 2 ^ f.width + 1 := by exact_mod_cast cast
  omega

/-- What has been rounded lies on the grid. -/
theorem nearest_nearest (wide : 1 ≤ f.width) (q : Rat) : f.nearest (f.nearest q) = f.nearest q := by
  by_cases zero : f.nearest q = 0
  · rw [zero, nearest, if_pos rfl]
  · have positive : (0 : Rat) < 2 ^ f.unitExponent q := by positivity
    have least : f.minExponent ≤ f.unitExponent q := le_max_right _ _
    obtain ⟨n, units, grid⟩ : ∃ n : Int, |n| ≤ 2 ^ f.width ∧
        f.nearest q = n * 2 ^ f.unitExponent q := by
      refine ⟨_, f.abs_roundEven_le q, ?_⟩
      rw [nearest, if_neg]
      rintro rfl
      exact zero (by rw [nearest, if_pos rfl])
    have size : |f.nearest q| = |n| * 2 ^ f.unitExponent q := by
      rw [grid, abs_mul, abs_of_pos positive, Int.cast_abs]
    have power : (2 : Rat) ^ ((f.width : Int) + f.unitExponent q) =
        2 ^ f.width * 2 ^ f.unitExponent q := by
      rw [zpow_add₀ two_ne_zero, zpow_natCast]
    rcases units.lt_or_eq with fewer | full
    · -- The significand has room for all units: the unit is still the one of the number.
      apply nearest_of_grid _ grid
      have below : |f.nearest q| < 2 ^ ((f.width : Int) + f.unitExponent q) := by
        have cast : (|n| : Rat) < 2 ^ f.width := by exact_mod_cast fewer
        rw [size, power, Int.cast_abs]
        exact mul_lt_mul_of_pos_right cast positive
      have exponent := binaryExponent_lt zero below
      rw [unitExponent, max_le_iff]
      omega
    · -- The number has been rounded up to a power of two.
      have cast : (|n| : Rat) = 2 ^ f.width := by exact_mod_cast full
      have exact : |f.nearest q| = 2 ^ ((f.width : Int) + f.unitExponent q) := by
        rw [size, power, Int.cast_abs, cast]
      have exponent := binaryExponent_le zero exact.le
      have coarse : f.unitExponent (f.nearest q) ≤ f.width + f.unitExponent q := by
        rw [unitExponent, max_le_iff]
        omega
      rcases abs_choice (f.nearest q) with nonneg | negative
      · apply nearest_of_grid (n := 1) coarse
        rw [← exact, nonneg, Int.cast_one, one_mul]
      · apply nearest_of_grid (n := -1) coarse
        rw [← exact, negative, Int.cast_neg, Int.cast_one, neg_mul_neg, one_mul]

/-! ## Stored numbers -/

theorem round_of_nearest_eq {q : Rat} (same : f.nearest q = q) (small : |q| < 2 ^ f.maxExponent) :
    f.round q = .ofRat q := by
  have inRange : ¬ (2 : Rat) ^ f.maxExponent ≤ q.abs := by
    rwa [rat_abs_eq, not_le]
  rw [round]
  simp only [same, if_neg inRange, FiniteScalar.ofRat, Scalar.ofRat]
  split
  · next zero => simp [zero, FiniteScalar.zero]
  · rfl

/-- A number that has been brought into a format stays as it is when it is brought there again. -/
theorem convert_round (wide : 1 ≤ f.width) (q : Rat) : f.convert (f.round q) = f.round q := by
  rw [round]
  split
  · rfl
  · next small =>
    rw [rat_abs_eq, not_le] at small
    rw [FiniteScalar.ofRat]
    split
    · next zero =>
      rw [FiniteScalar.zero]
      split
      · rfl
      · exact round_of_nearest_eq (by rw [nearest, if_pos rfl]) (by rw [abs_zero]; positivity)
    · exact round_of_nearest_eq (nearest_nearest wide q) small

theorem convert_convert (wide : 1 ≤ f.width) (x : Scalar) :
    f.convert (f.convert x) = f.convert x := by
  cases x with
  | finite value =>
    cases value with
    | negativeZero => rfl
    | rational value => exact convert_round wide value
  | nan => rfl
  | infinite negative => rfl

end Format

/-- A number in single precision is the single nearest to itself. -/
theorem Json.Number.convert_toSingle (n : Json.Number) :
    Format.single.convert n.toSingle = n.toSingle := by
  cases n with
  | whole value => exact Format.convert_round (by decide) value
  | floating value => exact Format.convert_convert (by decide) (.finite value)

/-- A whole number that fits into the significand of a double is stored as it is. -/
theorem Scalar.ofInt_of_abs_lt {n : Int} (bound : |n| < 2 ^ 53) : ofInt n = .ofRat n := by
  have cast : |(n : Rat)| < 2 ^ 53 := by exact_mod_cast bound
  apply Format.round_of_nearest_eq
  · by_cases zero : (n : Rat) = 0
    · rw [zero, Format.nearest, if_pos rfl]
    · apply Format.nearest_of_grid (n := n) (e := 0)
      · have exponent := binaryExponent_lt (k := 53) zero (by exact_mod_cast cast)
        rw [Format.unitExponent, max_le_iff]
        exact ⟨by simp only [Format.double]; omega, by decide⟩
      · rw [zpow_zero, mul_one]
  · exact cast.trans_le (pow_le_pow_right₀ one_le_two (by decide))

end FormLogic
