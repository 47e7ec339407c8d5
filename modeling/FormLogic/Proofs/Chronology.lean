import FormLogic.Form.State
import FormLogic.Operator.Basic
import FormLogic.Proofs.DayCount
import FormLogic.Proofs.OwnText
import Mathlib.Data.Char
import Mathlib.Data.List.Lex

/-!
# Chronological order

Dates without a sign are ordered as their texts are, which is the order of the calendar; and the
moment of a date with a time of day is the sum of the two, whatever joins them. A zone moves it by as
much as the zone is ahead of universal time or behind it (`moments_follow_calendar`).
-/

namespace FormLogic

/-! ## Digits in order -/

theorem digitValue_lt_digitValue {c d : Char} (digit : isDigit c = true) (smaller : c < d) :
    digitValue c < digitValue d := by
  rw [isDigit, Bool.and_eq_true, decide_eq_true_eq, decide_eq_true_eq] at digit
  have lower : '0'.toNat ≤ c.toNat := digit.1
  have smaller : c.toNat < d.toNat := smaller
  rw [digitValue, digitValue]
  omega

/-- The first digit that differs decides, whatever follows it. -/
theorem digitsValue_lt_of_head {c d : Char} {cs ds : List Char}
    (sameLength : cs.length = ds.length) (digit : isDigit c = true)
    (digits : cs.all isDigit = true) (smaller : c < d) :
    digitsValue (c :: cs) < digitsValue (d :: ds) := by
  have heads := digitValue_lt_digitValue digit smaller
  calc digitsValue (c :: cs)
      < (digitValue c + 1) * 10 ^ cs.length := digitsValue_cons_lt c (digitsValue_lt digits)
    _ ≤ digitValue d * 10 ^ ds.length := sameLength ▸ Nat.mul_le_mul_right _ heads
    _ ≤ digitsValue (d :: ds) := digitsValue_cons d ds ▸ Nat.le_add_right _ _

/-- Equally long runs of digits are ordered as their values are. -/
theorem digitsValue_lt_iff {cs ds : List Char} (sameLength : cs.length = ds.length)
    (digits : cs.all isDigit = true) (digits' : ds.all isDigit = true) :
    digitsValue cs < digitsValue ds ↔ cs < ds := by
  induction cs generalizing ds with
  | nil =>
    obtain rfl : ds = [] := List.length_eq_zero_iff.mp sameLength.symm
    simp
  | cons c cs ih =>
    cases ds with
    | nil => cases sameLength
    | cons d ds =>
      rw [List.all_cons, Bool.and_eq_true] at digits digits'
      have sameRest : cs.length = ds.length := Nat.succ.inj sameLength
      rw [List.cons_lt_cons_iff]
      rcases lt_trichotomy c d with smaller | rfl | larger
      · simp [smaller, digitsValue_lt_of_head sameRest digits.1 digits.2 smaller]
      · rw [digitsValue_cons, digitsValue_cons, sameRest, Nat.add_lt_add_iff_left,
          ih sameRest digits.2 digits'.2]
        simp
      · have reversed := digitsValue_lt_of_head sameRest.symm digits'.1 digits'.2 larger
        simp [larger.not_gt, larger.ne', reversed.not_gt]

/-- Texts with equally long beginnings are ordered by these, and after equal ones by the rest. -/
theorem append_lt_append_iff {as bs xs ys : List Char} (sameLength : as.length = bs.length) :
    as ++ xs < bs ++ ys ↔ as < bs ∨ as = bs ∧ xs < ys := by
  induction as generalizing bs with
  | nil =>
    obtain rfl : bs = [] := List.length_eq_zero_iff.mp sameLength.symm
    simp
  | cons a as ih =>
    cases bs with
    | nil => cases sameLength
    | cons b bs =>
      rw [List.cons_append, List.cons_append, List.cons_lt_cons_iff, List.cons_lt_cons_iff,
        ih (Nat.succ.inj sameLength), List.cons.injEq]
      tauto

namespace Timestamp

namespace Padded

variable {count m n : Nat} {cs ds : List Char}

theorem lt_iff (written : Padded count m cs) (written' : Padded count n ds) :
    cs < ds ↔ m < n := by
  rw [← digitsValue_lt_iff (written.length.trans written'.length.symm) written.digits
    written'.digits, written.value, written'.value]

theorem eq_iff (written : Padded count m cs) (written' : Padded count n ds) :
    cs = ds ↔ m = n := by
  constructor
  · rintro rfl
    exact written.value.symm.trans written'.value
  · rintro rfl
    rcases lt_trichotomy cs ds with smaller | same | larger
    · exact absurd ((written.lt_iff written').mp smaller) (Nat.lt_irrefl _)
    · exact same
    · exact absurd ((written'.lt_iff written).mp larger) (Nat.lt_irrefl _)

end Padded

/-- Texts of dates are ordered by year, month and day. -/
theorem DateText.lt_iff {year month day year' month' day' : Nat} {a b : List Char}
    (written : DateText year month day a) (written' : DateText year' month' day' b) :
    a < b ↔ year < year' ∨ year = year' ∧ (month < month' ∨ month = month' ∧ day < day') := by
  obtain ⟨writtenYear, writtenMonth, writtenDay⟩ := written
  obtain ⟨writtenYear', writtenMonth', writtenDay'⟩ := written'
  have dash : ¬ '-' < '-' := by decide
  rw [append_lt_append_iff (writtenYear.length.trans writtenYear'.length.symm),
    List.cons_lt_cons_iff,
    append_lt_append_iff (writtenMonth.length.trans writtenMonth'.length.symm),
    List.cons_lt_cons_iff, writtenYear.lt_iff writtenYear', writtenYear.eq_iff writtenYear',
    writtenMonth.lt_iff writtenMonth', writtenMonth.eq_iff writtenMonth',
    writtenDay.lt_iff writtenDay']
  simp only [dash, false_or, true_and]

end Timestamp

/-! ## Dates as typed -/

/-- A text that a date field reads as a moment, with neither blanks around it nor a sign before its
year. -/
structure PlainDate (text : String) (seconds : Int) : Prop where
  firstSolid : ∀ c ∈ text.toList.head?, Text.isBlank c = false
  lastSolid : ∀ c ∈ text.toList.getLast?, Text.isBlank c = false
  noPlus : text.toList.head? ≠ some '+'
  noMinus : text.toList.head? ≠ some '-'
  read : FieldValue.ofAnswer .date (.text text) = .timestamp seconds

namespace PlainDate

variable {a b text : String} {s s' seconds : Int}

/-- A text that is a date as it stands has no blanks around it. -/
theorem of_date? (read : Timestamp.date? text.toList = some seconds)
    (noPlus : text.toList.head? ≠ some '+') (noMinus : text.toList.head? ≠ some '-') :
    PlainDate text seconds := by
  obtain ⟨_, dated, _⟩ := Timestamp.date?_eq_some_iff.mp read
  refine ⟨fun c first => dated.solid c (List.mem_of_head? first),
    fun c last => dated.solid c (List.mem_of_getLast? last), noPlus, noMinus, ?_⟩
  have asItStands := Text.trim_of_solid dated.solid
  simp [FieldValue.ofAnswer, Widget.kind, FieldValue.timestamp?, asItStands, read]

theorem timestamp?_eq (plain : PlainDate text seconds) :
    FieldValue.timestamp? .date text = some seconds := by
  have read := plain.read
  cases found : FieldValue.timestamp? .date text with
  | none => simp [FieldValue.ofAnswer, Widget.kind, found] at read
  | some other => simpa [FieldValue.ofAnswer, Widget.kind, found] using read

/-- A plain date is the text of a day in the calendar. -/
theorem exists_date (plain : PlainDate text seconds) :
    ∃ year month day, ∃ date : CalendarDate,
      Timestamp.DateText year month day text.toList ∧
      CalendarDate.of? year month day = some date ∧
      date.daysSinceEpoch * secondsPerDay = seconds := by
  have read := plain.timestamp?_eq
  rw [FieldValue.timestamp?, Text.trim_eq_self plain.firstSolid plain.lastSolid] at read
  obtain ⟨date, dated, value⟩ := Timestamp.date?_eq_some_iff.mp read
  obtain ⟨year, month, day, written, real⟩ := dated.unsigned plain.noPlus plain.noMinus
  exact ⟨year, month, day, date, written, real, value⟩

/-- The calendar, the seconds and the texts order dates in the same way. -/
theorem order_eq (plainA : PlainDate a s) (plainB : PlainDate b s') :
    ∃ d e, Timestamp.Dated d a.toList ∧ Timestamp.Dated e b.toList ∧
      (s < s' ↔ d.Precedes e) ∧ (d.Precedes e ↔ a < b) := by
  obtain ⟨_, _, _, d, writtenA, realA, rfl⟩ := plainA.exists_date
  obtain ⟨_, _, _, e, writtenB, realB, rfl⟩ := plainB.exists_date
  refine ⟨d, e, .mk .none writtenA realA, .mk .none writtenB realB, ?_, ?_⟩
  · rw [← CalendarDate.daysSinceEpoch_lt_iff]
    exact Int.mul_lt_mul_right (by decide)
  · obtain ⟨yearA, rfl, rfl⟩ := CalendarDate.parts_of? realA
    obtain ⟨yearB, rfl, rfl⟩ := CalendarDate.parts_of? realB
    rw [String.lt_iff, writtenA.lt_iff writtenB, CalendarDate.precedes_iff, yearA, yearB,
      Int.ofNat_lt, Int.ofNat_inj]

theorem lt_iff (plainA : PlainDate a s) (plainB : PlainDate b s') : s < s' ↔ a < b := by
  obtain ⟨d, e, _, _, seconds, texts⟩ := plainA.order_eq plainB
  exact seconds.trans texts

theorem eq_iff (plainA : PlainDate a s) (plainB : PlainDate b s') : s = s' ↔ a = b := by
  constructor
  · rintro rfl
    rcases lt_trichotomy a.toList b.toList with earlier | same | later
    · exact absurd ((plainA.lt_iff plainB).mpr (String.lt_iff.mpr earlier)) (Int.lt_irrefl _)
    · exact String.toList_injective same
    · exact absurd ((plainB.lt_iff plainA).mpr (String.lt_iff.mpr later)) (Int.lt_irrefl _)
  · rintro rfl
    exact Option.some.inj (plainA.timestamp?_eq.symm.trans plainB.timestamp?_eq)

/-- A date field compares with the text of a date as the texts do. -/
theorem holds_iff (plainA : PlainDate a s) (plainB : PlainDate b s') :
    (Operator.before.holds (.timestamp s) (some (.text b)) = true ↔ a < b) ∧
      (Operator.after.holds (.timestamp s) (some (.text b)) = true ↔ b < a) ∧
      (Operator.equal.holds (.timestamp s) (some (.text b)) = true ↔ a = b) := by
  have order : (FieldValue.timestamp s).order? (.text b) = some (compare s s') := by
    rw [FieldValue.order?, FieldValue.ofText?_of_timestamp? plainB.timestamp?_eq, Option.map_some]
  have equality : (FieldValue.timestamp s).equals? (.text b) = some (compare s s').isEq := by
    rw [FieldValue.equals?_of_isOrdered rfl, order, Option.map_some]
  rw [← plainA.lt_iff plainB, ← plainB.lt_iff plainA, ← plainA.eq_iff plainB]
  refine ⟨?_, ?_, ?_⟩
  · rw [Operator.holds, Option.bind_some, order, Option.any_some, Ordering.isLT_iff_eq_lt,
      Int.compare_eq_lt]
  · rw [Operator.holds, Option.bind_some, order, Option.any_some, Ordering.isGT_iff_eq_gt,
      Int.compare_eq_gt]
  · rw [Operator.holds, Option.bind_some, equality, beq_iff_eq, Option.some.injEq,
      Ordering.isEq_iff_eq_eq, Int.compare_eq_eq]

end PlainDate

/-! ## Dates with times of day -/

namespace Timestamp

variable {d t : List Char} {date : CalendarDate} {time : TimeOfDay} {joint : Char}

/-- A date and a time of day that are joined are no internet timestamp: they are too short for a
zone to follow, or begin with a sign. -/
theorem internet?_of_joined (dated : Dated date d) (timed : Timed time t) :
    internet? (d ++ joint :: t) = none := by
  rw [Option.eq_none_iff_forall_ne_some]
  intro seconds read
  have zoned := internet?_eq_some_iff.mp read
  have long := zoned.length
  have first := zoned.isDigit_of_head
  rw [List.length_append, List.length_cons] at long
  rw [List.head?_append_of_ne_nil _ dated.ne_nil] at first
  obtain ⟨_, _, _, written, _⟩ := dated.unsigned
    (fun plus => Bool.false_ne_true (first '+' plus))
    (fun minus => Bool.false_ne_true (first '-' minus))
  have dateLength := written.length
  have timeLength := timed.length
  omega

theorem dateTime?_of_joined (dated : Dated date d) (timed : Timed time t)
    (joined : joint = 'T' ∨ joint = ' ') :
    dateTime? (d ++ joint :: t) = some (date.daysSinceEpoch * secondsPerDay + time.seconds) := by
  rw [dateTime?, internet?_of_joined dated timed, local?_of_parts dated timed joined]
  rfl

/-! ## Zones -/

/-- A number below a hundred, written with two digits. -/
def twoDigits (n : Nat) : List Char :=
  [Nat.digitChar (n / 10), Nat.digitChar (n % 10)]

theorem padded_twoDigits {n : Nat} (small : n < 100) : Padded 2 n (twoDigits n) := by
  have digit : ∀ k < 10, isDigit (Nat.digitChar k) = true ∧ digitValue (Nat.digitChar k) = k := by
    decide
  have tens := digit (n / 10) (by omega)
  have ones := digit (n % 10) (Nat.mod_lt n (by decide))
  refine ⟨rfl, ?_, ?_⟩
  · simp [twoDigits, tens.1, ones.1]
  · simp only [twoDigits, digitsValue, List.foldl_cons, List.foldl_nil, tens.2, ones.2]
    omega

/-- Hours and minutes after a sign. -/
def zoneText (sign : Char) (hours minutes : Nat) : String :=
  String.ofList (sign :: (twoDigits hours ++ ':' :: twoDigits minutes))

theorem zone?_zoneText {hours minutes : Nat} (hours_lt : hours < 24) (minutes_lt : minutes < 60) :
    zone? (zoneText '+' hours minutes).toList = some (hours * 3600 + minutes * 60 : Nat) ∧
      zone? (zoneText '-' hours minutes).toList =
        some (-((hours * 3600 + minutes * 60 : Nat) : Int)) := by
  have readHours := (padded_twoDigits (hours_lt.trans (by decide))).read
  have readMinutes := (padded_twoDigits (minutes_lt.trans (by decide))).read []
  rw [List.append_nil] at readMinutes
  constructor
  · simp [zoneText, zone?, readHours, readMinutes, hours_lt, minutes_lt]
  · simp [zoneText, zone?, readHours, readMinutes, hours_lt, minutes_lt]

theorem Timed.seconds_of_count (timed : Timed time t) (colons : t.count ':' = 2) :
    ∃ hour minute second hs ms ss, Padded 2 hour hs ∧ Padded 2 minute ms ∧ Padded 2 second ss ∧
      TimeOfDay.of? hour minute second = some time ∧ t = hs ++ ':' :: (ms ++ ':' :: ss) := by
  cases timed with
  | minutes writtenHour writtenMinute real =>
    have noColon {count n : Nat} {cs : List Char} (written : Padded count n cs) :
        cs.count ':' = 0 :=
      List.count_eq_zero_of_not_mem fun member =>
        Bool.false_ne_true (written.isDigit_of_mem member)
    rw [List.count_append, List.count_cons_self, noColon writtenHour, noColon writtenMinute]
      at colons
    cases colons
  | seconds writtenHour writtenMinute writtenSecond real =>
    exact ⟨_, _, _, _, _, _, writtenHour, writtenMinute, writtenSecond, real, rfl⟩

/-- A zone that follows a date without a sign and a time with its second moves the moment. -/
theorem dateTime?_of_zoned {zone : List Char} {ahead : Int} (dated : Dated date d)
    (timed : Timed time t) (joined : joint = 'T' ∨ joint = ' ') (noPlus : d.head? ≠ some '+')
    (noMinus : d.head? ≠ some '-') (colons : t.count ':' = 2) (noFraction : zone.head? ≠ some '.')
    (zoned : zone? zone = some ahead) :
    dateTime? (d ++ joint :: (t ++ zone)) =
      some (date.daysSinceEpoch * secondsPerDay + (time.seconds - ahead)) := by
  obtain ⟨_, _, _, written, real⟩ := dated.unsigned noPlus noMinus
  obtain ⟨_, _, _, hs, ms, ss, writtenHour, writtenMinute, writtenSecond, realTime, rfl⟩ :=
    timed.seconds_of_count colons
  have ascii : joint.toNat < 0x80 := by
    rcases joined with rfl | rfl <;> decide
  have read := internet?_of_parts written real ascii writtenHour writtenMinute writtenSecond
    realTime noFraction zoned
  simp only [List.append_assoc, List.cons_append]
  rw [dateTime?, read]
  rfl

/-- A text that begins with a date and ends with a time of day or a zone is read as it stands. -/
theorem ofText?_of_chars {text : String} {front back : List Char} {seconds : Int}
    (middle : List Char) (chars : text.toList = front ++ (middle ++ back)) (front_ne : front ≠ [])
    (back_ne : back ≠ []) (frontSolid : ∀ c ∈ front, Text.isBlank c = false)
    (backSolid : ∀ c ∈ back, Text.isBlank c = false)
    (read : dateTime? (front ++ (middle ++ back)) = some seconds) :
    ofText? text = some seconds := by
  apply ofText?_of_dateTime?
  rw [chars, Text.trim_between front_ne back_ne frontSolid backSolid]
  exact read

theorem solid_zoneText {sign : Char} (solid : Text.isBlank sign = false) {hours minutes : Nat}
    (hours_lt : hours < 24) (minutes_lt : minutes < 60) :
    ∀ c ∈ (zoneText sign hours minutes).toList, Text.isBlank c = false := by
  have solidHours := (padded_twoDigits (hours_lt.trans (by decide))).solid
  have solidMinutes := (padded_twoDigits (minutes_lt.trans (by decide))).solid
  rw [zoneText, String.toList_ofList, List.forall_mem_cons, List.forall_mem_append,
    List.forall_mem_cons]
  exact ⟨solid, solidHours, by decide, solidMinutes⟩

theorem ofText?_of_lone_date? {d : String} {x : Int} (read : date? d.toList = some x) :
    ofText? d = some x := by
  obtain ⟨date, dated, _⟩ := date?_eq_some_iff.mp read
  apply ofText?_of_date?
  rw [Text.trim_of_solid dated.solid]
  exact read

theorem ofText?_of_lone_time? {t : String} {y : Int} (read : time? t.toList = some y) :
    ofText? t = some y := by
  obtain ⟨time, timed, _⟩ := time?_eq_some_iff.mp read
  apply ofText?_of_time?
  rw [Text.trim_of_solid timed.solid]
  exact read

theorem ofText?_of_joined {text d t : String} {x y : Int} {joint : Char}
    (joined : joint = 'T' ∨ joint = ' ') (chars : text.toList = d.toList ++ joint :: t.toList)
    (readDate : date? d.toList = some x) (readTime : time? t.toList = some y) :
    ofText? text = some (x + y) := by
  obtain ⟨date, dated, rfl⟩ := date?_eq_some_iff.mp readDate
  obtain ⟨time, timed, rfl⟩ := time?_eq_some_iff.mp readTime
  exact ofText?_of_chars [joint] chars dated.ne_nil timed.ne_nil dated.solid timed.solid
    (dateTime?_of_joined dated timed joined)

theorem ofText?_of_zoned {text d t zone : String} {x y ahead : Int} {joint : Char}
    (joined : joint = 'T' ∨ joint = ' ')
    (chars : text.toList = d.toList ++ joint :: (t.toList ++ zone.toList))
    (readDate : date? d.toList = some x) (readTime : time? t.toList = some y)
    (noPlus : d.toList.head? ≠ some '+') (noMinus : d.toList.head? ≠ some '-')
    (colons : t.toList.count ':' = 2) (noFraction : zone.toList.head? ≠ some '.')
    (solid : ∀ c ∈ zone.toList, Text.isBlank c = false)
    (zoned : zone? zone.toList = some ahead) : ofText? text = some (x + y - ahead) := by
  obtain ⟨date, dated, rfl⟩ := date?_eq_some_iff.mp readDate
  obtain ⟨time, timed, rfl⟩ := time?_eq_some_iff.mp readTime
  have zone_ne : zone.toList ≠ [] := by
    intro none
    rw [none] at zoned
    cases zoned
  rw [Int.add_sub_assoc]
  exact ofText?_of_chars (joint :: t.toList) chars dated.ne_nil zone_ne dated.solid solid
    (dateTime?_of_zoned dated timed joined noPlus noMinus colons noFraction zoned)

/-- Moments follow the calendar. A date field orders dates that are typed without blanks around them
and without a sign as their texts are ordered, and that is the order of the calendar, in which the
day after each date has the next number; the moments of dates are whole days. A date and a time of
day, joined by a `T` or a blank, denote the sum of what both denote alone. Where the time has its
second and the date no sign, a `Z` after them changes nothing, and a zone ahead of universal time
makes the moment so much earlier, one behind it so much later. -/
theorem moments_follow_calendar :
    (∀ (a b : String) (s s' : Int), PlainDate a s → PlainDate b s' →
      (s < s' ↔ a < b) ∧ (s = s' ↔ a = b) ∧ secondsPerDay ∣ s ∧
      (∃ d e, Dated d a.toList ∧ Dated e b.toList ∧ (s < s' ↔ d.Precedes e)) ∧
      ∀ c : Control, c.field.widget = .date → c.answer = .text a →
        (Operator.before.holds c.value (some (.text b)) = true ↔ a < b) ∧
        (Operator.after.holds c.value (some (.text b)) = true ↔ b < a) ∧
        (Operator.equal.holds c.value (some (.text b)) = true ↔ a = b)) ∧
    (∀ d : CalendarDate, ∃ e, d.next = some e ∧ e.daysSinceEpoch = d.daysSinceEpoch + 1) ∧
    ∀ (d t : String) (x y : Int), date? d.toList = some x → time? t.toList = some y →
      ofText? d = some x ∧ ofText? t = some y ∧
      ∀ joint ∈ ["T", " "],
        ofText? (d ++ joint ++ t) = some (x + y) ∧
        (t.toList.count ':' = 2 → d.toList.head? ≠ some '+' → d.toList.head? ≠ some '-' →
          ofText? (d ++ joint ++ t ++ "Z") = some (x + y) ∧
          ∀ hours < 24, ∀ minutes < 60,
            ofText? (d ++ joint ++ t ++ zoneText '+' hours minutes) =
              some (x + y - (hours * 3600 + minutes * 60 : Nat)) ∧
            ofText? (d ++ joint ++ t ++ zoneText '-' hours minutes) =
              some (x + y + (hours * 3600 + minutes * 60 : Nat))) := by
  refine ⟨?_, CalendarDate.daysSinceEpoch_next, ?_⟩
  · intro a b s s' plainA plainB
    refine ⟨plainA.lt_iff plainB, plainA.eq_iff plainB, ?_, ?_, ?_⟩
    · obtain ⟨_, _, _, date, _, _, rfl⟩ := plainA.exists_date
      exact Int.dvd_mul_left _ _
    · obtain ⟨d, e, datedA, datedB, seconds, _⟩ := plainA.order_eq plainB
      exact ⟨d, e, datedA, datedB, seconds⟩
    · intro c widget answer
      have value : c.value = .timestamp s := by
        rw [Control.value, widget, answer, plainA.read]
      rw [value]
      exact plainA.holds_iff plainB
  · intro d t x y readDate readTime
    refine ⟨ofText?_of_lone_date? readDate, ofText?_of_lone_time? readTime, ?_⟩
    intro joint member
    obtain ⟨c, joined, rfl⟩ : ∃ c, (c = 'T' ∨ c = ' ') ∧ joint = String.ofList [c] := by
      simpa using member
    refine ⟨ofText?_of_joined joined (by simp) readDate readTime, ?_⟩
    intro colons noPlus noMinus
    have zoned {zone : String} {ahead : Int} :=
      @ofText?_of_zoned (d ++ String.ofList [c] ++ t ++ zone) d t zone x y ahead c joined (by simp)
        readDate readTime noPlus noMinus colons
    refine ⟨?_, ?_⟩
    · have universal : zone? "Z".toList = some 0 := rfl
      have solid : ∀ c ∈ "Z".toList, Text.isBlank c = false :=
        List.forall_mem_singleton.mpr (by decide)
      rw [zoned (by decide) solid universal, Int.sub_zero]
    · intro hours hours_lt minutes minutes_lt
      obtain ⟨ahead, behind⟩ := zone?_zoneText hours_lt minutes_lt
      constructor
      · rw [zoned (by simp [zoneText]) (solid_zoneText (by decide) hours_lt minutes_lt) ahead]
      · rw [zoned (by simp [zoneText]) (solid_zoneText (by decide) hours_lt minutes_lt) behind,
          Int.sub_neg]

/-- A leap day and the day after it, and the last second of a year. -/
theorem leap_day_follows_calendar :
    PlainDate "2024-02-29" 1709164800 ∧ PlainDate "2024-03-01" 1709251200 ∧
      (1709164800 : Int) < 1709251200 ∧ "2024-02-29" < "2024-03-01" ∧
      date? "1999-12-31".toList = some 946598400 ∧ time? "23:59:59".toList = some 86399 ∧
      ofText? "1999-12-31 23:59:59" = some 946684799 ∧
      ofText? "1999-12-31T23:59:59Z" = some 946684799 ∧
      ofText? "1999-12-31T23:59:59+05:30" = some 946664999 ∧
      ofText? "1999-12-31T23:59:59-05:30" = some 946704599 := by
  have leapDay : PlainDate "2024-02-29" 1709164800 :=
    .of_date? (by decide +kernel) (by decide) (by decide)
  have dayAfter : PlainDate "2024-03-01" 1709251200 :=
    .of_date? (by decide +kernel) (by decide) (by decide)
  have readDate : date? "1999-12-31".toList = some 946598400 := by decide +kernel
  have readTime : time? "23:59:59".toList = some 86399 := by decide +kernel
  obtain ⟨dates, _, moments⟩ := moments_follow_calendar
  obtain ⟨order, _⟩ := dates _ _ _ _ leapDay dayAfter
  obtain ⟨_, _, sums⟩ := moments _ _ _ _ readDate readTime
  have inZone := (sums "T" (by decide)).2 (by decide) (by decide) (by decide)
  refine ⟨leapDay, dayAfter, by decide, order.mp (by decide), readDate, readTime,
    (sums " " (by decide)).1, inZone.1, ?_, ?_⟩
  · exact (inZone.2 5 (by decide) 30 (by decide)).1
  · exact (inZone.2 5 (by decide) 30 (by decide)).2

end Timestamp

end FormLogic
