import FormLogic.Proofs.TimestampRange

/-!
# The count of days

Days are counted as the calendar goes on: the day after a date, across the ends of months and years
and with the leap days of all centuries, has the next number, and of two dates the earlier one has
the smaller number.
-/

namespace FormLogic

/-! ## Months and years -/

theorem le_monthLength (year : Int) (month : Nat) : 28 ≤ monthLength year month := by
  rw [monthLength]
  split
  · split <;> decide
  · split <;> decide

theorem daysBeforeMonth_succ (year : Int) {month : Nat} (positive : 1 ≤ month) :
    daysBeforeMonth year (month + 1) = daysBeforeMonth year month + monthLength year month := by
  obtain ⟨before, rfl⟩ := Nat.exists_eq_add_of_le' positive
  rw [daysBeforeMonth]

theorem daysBeforeMonth_mono (year : Int) {month month' : Nat} (notLater : month ≤ month') :
    daysBeforeMonth year month ≤ daysBeforeMonth year month' := by
  refine monotone_nat_of_le_succ (fun month => ?_) notLater
  cases month with
  | zero => exact Nat.le_refl 0
  | succ month =>
    rw [daysBeforeMonth_succ year (Nat.succ_pos month)]
    exact Nat.le_add_right _ _

/-- A year has all its months before the next one begins, a leap day among them. -/
theorem daysBeforeYear_succ (year : Int) :
    daysBeforeYear (year + 1) = daysBeforeYear year + daysBeforeMonth year 13 := by
  have yearLength : daysBeforeMonth year 13 = 365 + if isLeapYear year then 1 else 0 := by
    simp only [daysBeforeMonth, monthLength]
    cases isLeapYear year <;> rfl
  have leap : isLeapYear year = true ↔ year % 4 = 0 ∧ (year % 100 ≠ 0 ∨ year % 400 = 0) := by
    simp [isLeapYear]
  rw [yearLength, daysBeforeYear, daysBeforeYear]
  split
  · next isLeap =>
    rw [leap] at isLeap
    omega
  · next noLeap =>
    rw [leap] at noLeap
    omega

theorem daysBeforeYear_mono {year year' : Int} (notLater : year ≤ year') :
    daysBeforeYear year ≤ daysBeforeYear year' := by
  refine monotone_int_of_le_succ (fun year => ?_) notLater
  rw [daysBeforeYear_succ]
  exact Int.le_add_of_nonneg_right (Int.natCast_nonneg _)

namespace CalendarDate

/-! ## Dates in order -/

/-- Whether a date is earlier than another: in an earlier year, an earlier month of one year, or on
an earlier day of one month. -/
inductive Precedes (d e : CalendarDate) : Prop where
  | year (earlier : d.year < e.year)
  | month (sameYear : d.year = e.year) (earlier : d.month < e.month)
  | day (sameYear : d.year = e.year) (sameMonth : d.month = e.month) (earlier : d.day < e.day)

theorem precedes_iff {d e : CalendarDate} : d.Precedes e ↔
    d.year < e.year ∨
      d.year = e.year ∧ (d.month < e.month ∨ d.month = e.month ∧ d.day < e.day) := by
  constructor
  · rintro (earlier | ⟨sameYear, earlier⟩ | ⟨sameYear, sameMonth, earlier⟩)
    · exact .inl earlier
    · exact .inr ⟨sameYear, .inl earlier⟩
    · exact .inr ⟨sameYear, .inr ⟨sameMonth, earlier⟩⟩
  · rintro (earlier | ⟨sameYear, earlier | ⟨sameMonth, earlier⟩⟩)
    · exact .year earlier
    · exact .month sameYear earlier
    · exact .day sameYear sameMonth earlier

theorem ext {d e : CalendarDate} (year : d.year = e.year) (month : d.month = e.month)
    (day : d.day = e.day) : d = e := by
  cases d
  cases e
  cases year
  cases month
  cases day
  rfl

theorem precedes_trichotomy (d e : CalendarDate) : d.Precedes e ∨ d = e ∨ e.Precedes d := by
  rcases lt_trichotomy d.year e.year with earlier | sameYear | later
  · exact .inl (.year earlier)
  · rcases lt_trichotomy d.month e.month with earlier | sameMonth | later
    · exact .inl (.month sameYear earlier)
    · rcases lt_trichotomy d.day e.day with earlier | sameDay | later
      · exact .inl (.day sameYear sameMonth earlier)
      · exact .inr (.inl (ext sameYear sameMonth sameDay))
      · exact .inr (.inr (.day sameYear.symm sameMonth.symm later))
    · exact .inr (.inr (.month sameYear.symm later))
  · exact .inr (.inr (.year later))

/-- A month is over before the months after it begin. -/
theorem dayOfYear_lt (d : CalendarDate) {month : Nat} (later : d.month < month) :
    daysBeforeMonth d.year d.month + (d.day - 1) < daysBeforeMonth d.year month := by
  have nextMonth := daysBeforeMonth_mono d.year (Nat.succ_le_of_lt later)
  rw [Nat.succ_eq_add_one, daysBeforeMonth_succ d.year d.month_pos] at nextMonth
  have positive := d.day_pos
  have inMonth := d.day_le
  omega

theorem dayNumber_lt {d e : CalendarDate} (earlier : d.Precedes e) :
    d.dayNumber < e.dayNumber := by
  rw [dayNumber, dayNumber]
  cases earlier with
  | year earlier =>
    have nextYear := daysBeforeYear_mono (Int.add_one_le_of_lt earlier)
    have inYear : daysBeforeMonth d.year d.month + (d.day - 1) < daysBeforeMonth d.year 13 :=
      d.dayOfYear_lt (Nat.lt_succ_of_le d.month_le)
    rw [daysBeforeYear_succ] at nextYear
    omega
  | month sameYear earlier =>
    have inMonths := d.dayOfYear_lt earlier
    rw [← sameYear]
    omega
  | day sameYear sameMonth earlier =>
    have positive := d.day_pos
    rw [← sameYear, ← sameMonth]
    omega

/-- Of two dates the earlier one has the smaller number. -/
theorem daysSinceEpoch_lt_iff {d e : CalendarDate} :
    d.daysSinceEpoch < e.daysSinceEpoch ↔ d.Precedes e := by
  rw [daysSinceEpoch, daysSinceEpoch, Int.sub_lt_sub_right_iff]
  constructor
  · intro smaller
    rcases precedes_trichotomy d e with earlier | rfl | later
    · exact earlier
    · exact absurd smaller (Int.lt_irrefl _)
    · exact absurd (dayNumber_lt later) (Int.not_lt.mpr smaller.le)
  · exact dayNumber_lt

/-! ## The next day -/

theorem of?_eq_some {year : Int} {month day : Nat} (month_pos : 1 ≤ month) (month_le : month ≤ 12)
    (day_pos : 1 ≤ day) (day_le : day ≤ monthLength year month) :
    of? year month day = some ⟨year, month, day, month_pos, month_le, day_pos, day_le⟩ :=
  dif_pos ⟨⟨month_pos, month_le⟩, day_pos, day_le⟩

/-- The day after a date has the next number. -/
theorem daysSinceEpoch_next (d : CalendarDate) :
    ∃ e, d.next = some e ∧ e.daysSinceEpoch = d.daysSinceEpoch + 1 := by
  obtain ⟨year, month, day, month_pos, month_le, day_pos, day_le⟩ := d
  simp only [next, isMonthEnd, beq_iff_eq, daysSinceEpoch, dayNumber]
  have firstDay {year : Int} {month : Nat} : 1 ≤ monthLength year month :=
    (by decide : 1 ≤ 28).trans (le_monthLength _ _)
  by_cases monthEnd : day = monthLength year month
  · rw [if_pos monthEnd]
    by_cases yearEnd : month = 12
    · rw [if_pos yearEnd]
      refine ⟨_, of?_eq_some (Nat.le_refl 1) (by decide) (Nat.le_refl 1) firstDay, ?_⟩
      subst yearEnd
      have yearOver := daysBeforeYear_succ year
      have monthOver : daysBeforeMonth year 13 =
          daysBeforeMonth year 12 + monthLength year 12 := daysBeforeMonth_succ year month_pos
      have noneBefore : daysBeforeMonth (year + 1) 1 = 0 := rfl
      simp only [noneBefore]
      omega
    · rw [if_neg yearEnd]
      have monthOver := daysBeforeMonth_succ year month_pos
      refine ⟨_, of?_eq_some (Nat.le_add_left 1 month) (by omega) (Nat.le_refl 1) firstDay, ?_⟩
      simp only
      omega
  · rw [if_neg monthEnd]
    refine ⟨_, of?_eq_some month_pos month_le (Nat.le_add_left 1 day) (by omega), ?_⟩
    simp only
    omega

end CalendarDate

end FormLogic
