import FormLogic.Proofs.WrittenMoments
import Mathlib.Algebra.Order.Group.Int
import Mathlib.Tactic.Linarith

/-!
# The range of timestamps

A year is written with four digits, so the moment that a text denotes lies within some thousands of
years of 1970: its seconds are whole numbers that a double holds.
-/

namespace FormLogic

/-! ## Days and seconds -/

theorem monthLength_le (year : Int) (month : Nat) : monthLength year month ≤ 31 := by
  rw [monthLength]
  split
  · split <;> decide
  · split <;> decide

theorem daysBeforeMonth_le (year : Int) (month : Nat) : daysBeforeMonth year month ≤ 31 * month := by
  induction month with
  | zero => exact Nat.le_refl 0
  | succ month ih =>
    cases month with
    | zero => exact Nat.zero_le _
    | succ month =>
      have longest := monthLength_le year (month + 1)
      rw [daysBeforeMonth]
      omega

/-- With a year of four digits a date is less than 4.4 million days away from 1970. -/
theorem CalendarDate.abs_daysSinceEpoch_le {d : CalendarDate} (year : |d.year| ≤ 9999) :
    |d.daysSinceEpoch| ≤ 4400000 := by
  have months := daysBeforeMonth_le d.year d.month
  have days := d.day_le.trans (monthLength_le d.year d.month)
  have lastMonth := d.month_le
  have epoch : daysBeforeYear 1970 = 719162 := rfl
  rw [abs_le] at year ⊢
  rw [daysSinceEpoch, dayNumber, daysBeforeYear, epoch]
  omega

theorem CalendarDate.parts_of? {year : Int} {month day : Nat} {date : CalendarDate}
    (real : of? year month day = some date) :
    date.year = year ∧ date.month = month ∧ date.day = day := by
  rw [of?] at real
  split at real
  · cases real
    exact ⟨rfl, rfl, rfl⟩
  · cases real

theorem TimeOfDay.seconds_range (t : TimeOfDay) : 0 ≤ t.seconds ∧ t.seconds < secondsPerDay := by
  have hours := t.hour_lt
  have minutes := t.minute_lt
  have seconds := t.second_lt
  rw [TimeOfDay.seconds, secondsPerDay]
  omega

namespace Timestamp

/-- Whether a moment is a second of a day that is less than 4.4 million days away from 1970, in some
zone. -/
def InRange (seconds : Int) : Prop :=
  ∃ days second, |days| ≤ 4400000 ∧ -secondsPerDay < second ∧ second < 2 * secondsPerDay ∧
    seconds = days * secondsPerDay + second

theorem InRange.lt_two_pow {seconds : Int} (inRange : InRange seconds) : |seconds| < 2 ^ 53 := by
  obtain ⟨days, second, near, after, before, rfl⟩ := inRange
  rw [abs_le] at near
  rw [abs_lt, secondsPerDay]
  rw [secondsPerDay] at after before
  omega

/-! ## Texts -/

theorem Dated.abs_daysSinceEpoch_le {date : CalendarDate} {text : List Char}
    (dated : Dated date text) : |date.daysSinceEpoch| ≤ 4400000 := by
  obtain ⟨_, written, real⟩ := dated
  have digits := written.year_lt
  apply CalendarDate.abs_daysSinceEpoch_le
  rw [(CalendarDate.parts_of? real).1, abs_le]
  split <;> omega

theorem zone?_lt {cs : List Char} {ahead : Int} (read : zone? cs = some ahead) :
    -secondsPerDay < ahead ∧ ahead < secondsPerDay := by
  rw [zone?.eq_def] at read
  split at read
  · cases read
    decide
  · cases read
    decide
  · next sign rest _ _ =>
    dsimp only at read
    by_cases unsigned : sign ≠ '+' ∧ sign ≠ '-'
    · rw [if_pos unsigned] at read
      cases read
    · rw [if_neg unsigned] at read
      obtain ⟨⟨hours, _⟩, _, read⟩ := Option.bind_eq_some_iff.mp read
      obtain ⟨_, _, read⟩ := Option.bind_eq_some_iff.mp read
      obtain ⟨⟨minutes, rest⟩, _, read⟩ := Option.bind_eq_some_iff.mp read
      dsimp only at read
      by_cases invalid : rest ≠ [] ∨ 24 ≤ hours ∨ 60 ≤ minutes
      · rw [if_pos invalid] at read
        cases read
      · rw [if_neg invalid] at read
        cases read
        rw [secondsPerDay]
        split <;> omega
  · cases read

theorem Dated.inRange_of_zone {date : CalendarDate} {text : List Char} (dated : Dated date text)
    (time : TimeOfDay) {ahead : Int} (shift : -secondsPerDay < ahead ∧ ahead < secondsPerDay) :
    InRange (date.daysSinceEpoch * secondsPerDay + (time.seconds - ahead)) := by
  have range := time.seconds_range
  refine ⟨date.daysSinceEpoch, time.seconds - ahead, dated.abs_daysSinceEpoch_le, ?_, ?_, rfl⟩ <;>
    omega

theorem internet?_inRange {cs : List Char} {seconds : Int} (read : internet? cs = some seconds) :
    InRange seconds := by
  obtain ⟨written, real, _, _, _, _, _, zoned, _, _⟩ := internet?_eq_some_iff.mp read
  exact (Dated.mk .none written real).inRange_of_zone _ (zone?_lt zoned)

theorem local?_inRange {cs : List Char} {seconds : Int} (read : local? cs = some seconds) :
    InRange seconds := by
  obtain ⟨date, time, _, _, dated, _, _, rfl⟩ := local?_eq_some_iff.mp read
  have universal : -secondsPerDay < 0 ∧ 0 < secondsPerDay := by decide
  have inRange := dated.inRange_of_zone time universal
  rwa [Int.sub_zero] at inRange

theorem date?_inRange {cs : List Char} {seconds : Int} (read : date? cs = some seconds) :
    InRange seconds := by
  obtain ⟨date, dated, rfl⟩ := date?_eq_some_iff.mp read
  exact ⟨date.daysSinceEpoch, 0, dated.abs_daysSinceEpoch_le, by decide, by decide, by omega⟩

theorem time?_inRange {cs : List Char} {seconds : Int} (read : time? cs = some seconds) :
    InRange seconds := by
  obtain ⟨time, _, rfl⟩ := Option.map_eq_some_iff.mp read
  have range := time.seconds_range
  refine ⟨0, time.seconds, by decide, ?_, ?_, by omega⟩ <;> omega

/-- A text denotes a moment within some thousands of years of 1970. -/
theorem ofText?_abs_lt {text : String} {seconds : Int} (read : ofText? text = some seconds) :
    |seconds| < 2 ^ 53 := by
  apply InRange.lt_two_pow
  rw [ofText?, Option.or_eq_some_iff, Option.or_eq_some_iff, dateTime?, Option.or_eq_some_iff] at read
  rcases read with ((internet | ⟨_, here⟩) | ⟨_, date⟩) | ⟨_, time⟩
  · exact internet?_inRange internet
  · exact local?_inRange here
  · exact date?_inRange date
  · exact time?_inRange time

end Timestamp

end FormLogic
