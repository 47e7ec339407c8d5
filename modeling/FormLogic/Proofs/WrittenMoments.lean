import FormLogic.Time.Timestamp
import Mathlib.Data.List.Basic
import Mathlib.Tactic.Ring

/-!
# Written moments

Which texts the three layouts consist of. All numbers in them have a fixed count of digits, so the
texts of one layout are as good as equally long, and no text belongs to two layouts: a time of day
is shorter than a date, and a date is shorter than the two together.
-/

namespace FormLogic

/-! ## Digits and blanks -/

theorem digitValue_lt {c : Char} (digit : isDigit c = true) : digitValue c < 10 := by
  rw [isDigit, Bool.and_eq_true, decide_eq_true_eq, decide_eq_true_eq] at digit
  have upper : c.toNat ≤ '9'.toNat := digit.2
  have nine : '9'.toNat = 57 := rfl
  have zero : '0'.toNat = 48 := rfl
  rw [digitValue]
  omega

/-- By induction on the digits, with the value of those in front general. -/
theorem foldl_digitValue_eq (cs : List Char) (n : Nat) :
    cs.foldl (fun n c => 10 * n + digitValue c) n = n * 10 ^ cs.length + digitsValue cs := by
  induction cs generalizing n with
  | nil => simp [digitsValue]
  | cons c rest ih =>
    rw [digitsValue, List.foldl_cons, List.foldl_cons, ih, ih, List.length_cons, Nat.pow_succ]
    ring

theorem digitsValue_cons (c : Char) (cs : List Char) :
    digitsValue (c :: cs) = digitValue c * 10 ^ cs.length + digitsValue cs := by
  rw [digitsValue, List.foldl_cons, foldl_digitValue_eq, Nat.mul_zero, Nat.zero_add]

theorem digitsValue_cons_lt (c : Char) {cs : List Char} (later : digitsValue cs < 10 ^ cs.length) :
    digitsValue (c :: cs) < (digitValue c + 1) * 10 ^ cs.length := by
  rw [digitsValue_cons, Nat.succ_mul]
  exact Nat.add_lt_add_left later _

theorem digitsValue_lt {cs : List Char} (digits : cs.all isDigit = true) :
    digitsValue cs < 10 ^ cs.length := by
  induction cs with
  | nil => exact Nat.one_pos
  | cons c rest ih =>
    rw [List.all_cons, Bool.and_eq_true] at digits
    have first := digitValue_lt digits.1
    calc digitsValue (c :: rest)
        < (digitValue c + 1) * 10 ^ rest.length := digitsValue_cons_lt c (ih digits.2)
      _ ≤ 10 * 10 ^ rest.length := Nat.mul_le_mul_right _ first
      _ = 10 ^ (c :: rest).length := by rw [List.length_cons, Nat.pow_succ, Nat.mul_comm]

namespace Text

theorem isBlank_of_isDigit {c : Char} (digit : isDigit c = true) : isBlank c = false := by
  rw [isDigit, Bool.and_eq_true, decide_eq_true_eq, decide_eq_true_eq] at digit
  have lower : 48 ≤ c.toNat := digit.1
  have upper : c.toNat ≤ 57 := digit.2
  rw [isBlank, List.any_eq_false]
  simp only [blankRanges, List.mem_cons, List.not_mem_nil, or_false]
  rintro range (rfl | rfl | rfl | rfl | rfl | rfl | rfl | rfl | rfl | rfl) <;>
    simp <;> omega

/-- A text that neither begins nor ends with a blank has no blanks to leave aside. -/
theorem trim_eq_self {cs : List Char} (first : ∀ c ∈ cs.head?, isBlank c = false)
    (last : ∀ c ∈ cs.getLast?, isBlank c = false) : trim cs = cs := by
  have keep {ds : List Char} (front : ∀ c ∈ ds.head?, isBlank c = false) :
      ds.dropWhile isBlank = ds := by
    cases ds with
    | nil => rfl
    | cons d rest => rw [List.dropWhile_cons_of_neg (by simp [front d rfl])]
  rw [trim, keep first, keep (by rwa [List.head?_reverse]), List.reverse_reverse]

theorem trim_of_solid {cs : List Char} (solid : ∀ c ∈ cs, isBlank c = false) : trim cs = cs :=
  trim_eq_self (fun c first => solid c (List.mem_of_head? first))
    (fun c last => solid c (List.mem_of_getLast? last))

/-- What stands between two texts without blanks need not be looked at. -/
theorem trim_between {front middle back : List Char} (front_ne : front ≠ [])
    (back_ne : back ≠ []) (frontSolid : ∀ c ∈ front, isBlank c = false)
    (backSolid : ∀ c ∈ back, isBlank c = false) :
    trim (front ++ (middle ++ back)) = front ++ (middle ++ back) := by
  apply trim_eq_self
  · rw [List.head?_append_of_ne_nil _ front_ne]
    exact fun c first => frontSolid c (List.mem_of_head? first)
  · rw [← List.append_assoc, List.getLast?_append_of_ne_nil _ back_ne]
    exact fun c last => backSolid c (List.mem_of_getLast? last)

end Text

namespace Timestamp

/-! ## Numbers of a fixed count of digits -/

/-- A number written with a count of digits. -/
structure Padded (count n : Nat) (cs : List Char) : Prop where
  length : cs.length = count
  digits : cs.all isDigit = true
  value : digitsValue cs = n

namespace Padded

variable {count n : Nat} {cs : List Char}

theorem isDigit_of_mem (written : Padded count n cs) {c : Char} (member : c ∈ cs) :
    isDigit c = true :=
  List.all_eq_true.mp written.digits c member

theorem solid (written : Padded count n cs) : ∀ c ∈ cs, Text.isBlank c = false :=
  fun _ member => Text.isBlank_of_isDigit (written.isDigit_of_mem member)

theorem lt (written : Padded count n cs) : n < 10 ^ count := by
  rw [← written.value, ← written.length]
  exact digitsValue_lt written.digits

theorem ne_nil (written : Padded (count + 1) n cs) : cs ≠ [] := by
  rintro rfl
  cases written.length

end Padded

theorem digits?_eq_some_iff {count n : Nat} {cs rest : List Char} :
    digits? count cs = some (n, rest) ↔ ∃ ds, Padded count n ds ∧ cs = ds ++ rest := by
  constructor
  · intro read
    rw [digits?] at read
    split at read
    · next digits =>
      cases read
      exact ⟨_, ⟨digits.1, digits.2, rfl⟩, (List.take_append_drop count cs).symm⟩
    · cases read
  · rintro ⟨ds, ⟨rfl, digits, rfl⟩, rfl⟩
    simp [digits?, digits]

theorem Padded.read {count n : Nat} {ds : List Char} (written : Padded count n ds)
    (rest : List Char) : digits? count (ds ++ rest) = some (n, rest) :=
  digits?_eq_some_iff.mpr ⟨ds, written, rfl⟩

@[simp] theorem expect?_cons (c : Char) (rest : List Char) : expect? c (c :: rest) = some rest :=
  if_pos rfl

theorem expect?_eq_some_iff {c : Char} {cs rest : List Char} :
    expect? c cs = some rest ↔ cs = c :: rest := by
  constructor
  · intro read
    cases cs with
    | nil => cases read
    | cons d ds =>
      rw [expect?] at read
      split at read
      · next same =>
        cases read
        rw [same]
      · cases read
  · rintro rfl
    exact expect?_cons c rest

/-! ## Dates -/

/-- Year, month and day, without a sign. -/
inductive DateText (year month day : Nat) : List Char → Prop where
  | mk {ys ms ds : List Char} (writtenYear : Padded 4 year ys) (writtenMonth : Padded 2 month ms)
      (writtenDay : Padded 2 day ds) :
      DateText year month day (ys ++ '-' :: (ms ++ '-' :: ds))

namespace DateText

variable {year month day : Nat} {text : List Char}

theorem length (written : DateText year month day text) : text.length = 10 := by
  obtain ⟨writtenYear, writtenMonth, writtenDay⟩ := written
  simp [writtenYear.length, writtenMonth.length, writtenDay.length]

theorem ne_nil (written : DateText year month day text) : text ≠ [] := by
  rintro rfl
  cases written.length

theorem solid (written : DateText year month day text) : ∀ c ∈ text, Text.isBlank c = false := by
  obtain ⟨writtenYear, writtenMonth, writtenDay⟩ := written
  have dash : Text.isBlank '-' = false := by decide
  simp only [List.forall_mem_append, List.forall_mem_cons]
  exact ⟨writtenYear.solid, dash, writtenMonth.solid, dash, writtenDay.solid⟩

theorem year_lt (written : DateText year month day text) : year < 10 ^ 4 := by
  obtain ⟨writtenYear, _, _⟩ := written
  exact writtenYear.lt

theorem isDigit_of_head (written : DateText year month day text) {c : Char}
    (first : c ∈ text.head?) : isDigit c = true := by
  obtain ⟨writtenYear, _, _⟩ := written
  rw [List.head?_append_of_ne_nil _ writtenYear.ne_nil] at first
  exact writtenYear.isDigit_of_mem (List.mem_of_head? first)

theorem read (written : DateText year month day text) (rest : List Char) :
    unsignedDate? (text ++ rest) = some ((year, month, day), rest) := by
  obtain ⟨writtenYear, writtenMonth, writtenDay⟩ := written
  simp [unsignedDate?, writtenYear.read, writtenMonth.read, writtenDay.read]

end DateText

theorem dateText_of_unsignedDate? {year month day : Nat} {cs rest : List Char}
    (read : unsignedDate? cs = some ((year, month, day), rest)) :
    ∃ text, DateText year month day text ∧ cs = text ++ rest := by
  obtain ⟨⟨_, _⟩, readYear, read⟩ := Option.bind_eq_some_iff.mp read
  obtain ⟨_, dash, read⟩ := Option.bind_eq_some_iff.mp read
  obtain ⟨⟨_, _⟩, readMonth, read⟩ := Option.bind_eq_some_iff.mp read
  obtain ⟨_, dash', read⟩ := Option.bind_eq_some_iff.mp read
  obtain ⟨⟨_, _⟩, readDay, read⟩ := Option.bind_eq_some_iff.mp read
  cases read
  obtain ⟨ys, writtenYear, yearFirst⟩ := digits?_eq_some_iff.mp readYear
  obtain ⟨ms, writtenMonth, monthFirst⟩ := digits?_eq_some_iff.mp readMonth
  obtain ⟨ds, writtenDay, dayFirst⟩ := digits?_eq_some_iff.mp readDay
  rw [yearFirst, expect?_eq_some_iff.mp dash, monthFirst, expect?_eq_some_iff.mp dash', dayFirst]
  exact ⟨_, .mk writtenYear writtenMonth writtenDay, by simp⟩

/-- A sign in front of a number, or none. -/
inductive SignText : Bool → List Char → Prop where
  | none : SignText false []
  | plus : SignText false ['+']
  | minus : SignText true ['-']

theorem signText_splitSign (cs : List Char) :
    ∃ sign, SignText (splitSign cs).1 sign ∧ cs = sign ++ (splitSign cs).2 := by
  unfold splitSign
  split
  · exact ⟨_, .plus, rfl⟩
  · exact ⟨_, .minus, rfl⟩
  · exact ⟨_, .none, rfl⟩

theorem SignText.splitSign_append {negative : Bool} {sign text : List Char}
    (signed : SignText negative sign) (first : ∀ c ∈ text.head?, isDigit c = true) :
    splitSign (sign ++ text) = (negative, text) := by
  cases signed with
  | plus | minus => rfl
  | none =>
    rw [List.nil_append]
    unfold splitSign
    split
    · cases first '+' rfl
    · cases first '-' rfl
    · rfl

/-- The texts of a date: an optional sign before the year, and a day that exists. -/
inductive Dated (date : CalendarDate) : List Char → Prop where
  | mk {negative : Bool} {year month day : Nat} {sign text : List Char}
      (signed : SignText negative sign) (written : DateText year month day text)
      (real : CalendarDate.of? (if negative then -(year : Int) else year) month day = some date) :
      Dated date (sign ++ text)

namespace Dated

variable {date : CalendarDate} {text : List Char}

theorem length (dated : Dated date text) : text.length = 10 ∨ text.length = 11 := by
  obtain ⟨signed, written, _⟩ := dated
  rw [List.length_append, written.length]
  cases signed with
  | none => exact .inl rfl
  | plus | minus => exact .inr rfl

theorem ne_nil (dated : Dated date text) : text ≠ [] := by
  rintro rfl
  rcases dated.length with length | length <;> cases length

theorem solid (dated : Dated date text) : ∀ c ∈ text, Text.isBlank c = false := by
  obtain ⟨signed, written, _⟩ := dated
  rw [List.forall_mem_append]
  refine ⟨?_, written.solid⟩
  cases signed with
  | none => exact List.forall_mem_nil _
  | plus | minus => exact List.forall_mem_singleton.mpr (by decide)

/-- Where no sign stands in front, year, month and day are the whole text. -/
theorem unsigned (dated : Dated date text) (noPlus : text.head? ≠ some '+')
    (noMinus : text.head? ≠ some '-') :
    ∃ year month day, DateText year month day text ∧
      CalendarDate.of? year month day = some date := by
  obtain ⟨signed, written, real⟩ := dated
  cases signed with
  | none => exact ⟨_, _, _, written, real⟩
  | plus => exact absurd rfl noPlus
  | minus => exact absurd rfl noMinus

theorem read (dated : Dated date text) (rest : List Char) :
    splitDate? (text ++ rest) = some (date, rest) := by
  obtain @⟨_, _, _, _, _, text, signed, written, real⟩ := dated
  have first : ∀ c ∈ (text ++ rest).head?, isDigit c = true := by
    rw [List.head?_append_of_ne_nil _ written.ne_nil]
    exact fun c => written.isDigit_of_head
  rw [splitDate?, List.append_assoc, signed.splitSign_append first]
  exact Option.bind_eq_some_iff.mpr
    ⟨_, written.read rest, Option.bind_eq_some_iff.mpr ⟨_, real, rfl⟩⟩

end Dated

theorem splitDate?_eq_some_iff {date : CalendarDate} {cs rest : List Char} :
    splitDate? cs = some (date, rest) ↔ ∃ text, Dated date text ∧ cs = text ++ rest := by
  constructor
  · intro read
    obtain ⟨sign, signed, split⟩ := signText_splitSign cs
    unfold splitDate? at read
    generalize splitSign cs = halves at read signed split
    obtain ⟨⟨⟨year, month, day⟩, _⟩, readDate, read⟩ := Option.bind_eq_some_iff.mp read
    obtain ⟨_, real, read⟩ := Option.bind_eq_some_iff.mp read
    cases read
    obtain ⟨text, written, body⟩ := dateText_of_unsignedDate? readDate
    exact ⟨_, .mk signed written real, by rw [List.append_assoc, ← body, ← split]⟩
  · rintro ⟨text, dated, rfl⟩
    exact dated.read rest

/-! ## Times of day -/

/-- The texts of a time of day that exists: hour and minute, and maybe the second. -/
inductive Timed (time : TimeOfDay) : List Char → Prop where
  | minutes {hour minute : Nat} {hs ms : List Char} (writtenHour : Padded 2 hour hs)
      (writtenMinute : Padded 2 minute ms) (real : TimeOfDay.of? hour minute 0 = some time) :
      Timed time (hs ++ ':' :: ms)
  | seconds {hour minute second : Nat} {hs ms ss : List Char} (writtenHour : Padded 2 hour hs)
      (writtenMinute : Padded 2 minute ms) (writtenSecond : Padded 2 second ss)
      (real : TimeOfDay.of? hour minute second = some time) :
      Timed time (hs ++ ':' :: (ms ++ ':' :: ss))

namespace Timed

variable {time : TimeOfDay} {text : List Char}

theorem length (timed : Timed time text) : text.length = 5 ∨ text.length = 8 := by
  cases timed with
  | minutes writtenHour writtenMinute =>
    simp [writtenHour.length, writtenMinute.length]
  | seconds writtenHour writtenMinute writtenSecond =>
    simp [writtenHour.length, writtenMinute.length, writtenSecond.length]

theorem ne_nil (timed : Timed time text) : text ≠ [] := by
  rintro rfl
  rcases timed.length with length | length <;> cases length

theorem solid (timed : Timed time text) : ∀ c ∈ text, Text.isBlank c = false := by
  have colon : Text.isBlank ':' = false := by decide
  cases timed with
  | minutes writtenHour writtenMinute =>
    simp only [List.forall_mem_append, List.forall_mem_cons]
    exact ⟨writtenHour.solid, colon, writtenMinute.solid⟩
  | seconds writtenHour writtenMinute writtenSecond =>
    simp only [List.forall_mem_append, List.forall_mem_cons]
    exact ⟨writtenHour.solid, colon, writtenMinute.solid, colon, writtenSecond.solid⟩

theorem read (timed : Timed time text) : timeOfDay? text = some time := by
  cases timed with
  | minutes writtenHour writtenMinute real =>
    have last := writtenMinute.read []
    rw [List.append_nil] at last
    simp [timeOfDay?, writtenHour.read, last, real]
  | seconds writtenHour writtenMinute writtenSecond real =>
    have last := writtenSecond.read []
    rw [List.append_nil] at last
    simp [timeOfDay?, writtenHour.read, writtenMinute.read, last, real]

end Timed

theorem timeOfDay?_eq_some_iff {time : TimeOfDay} {cs : List Char} :
    timeOfDay? cs = some time ↔ Timed time cs := by
  constructor
  · intro read
    obtain ⟨⟨hour, _⟩, readHour, read⟩ := Option.bind_eq_some_iff.mp read
    obtain ⟨_, colon, read⟩ := Option.bind_eq_some_iff.mp read
    obtain ⟨⟨minute, rest⟩, readMinute, read⟩ := Option.bind_eq_some_iff.mp read
    obtain ⟨hs, writtenHour, hourFirst⟩ := digits?_eq_some_iff.mp readHour
    obtain ⟨ms, writtenMinute, minuteFirst⟩ := digits?_eq_some_iff.mp readMinute
    rw [hourFirst, expect?_eq_some_iff.mp colon, minuteFirst]
    dsimp only at read
    split at read
    · rw [List.append_nil]
      exact .minutes writtenHour writtenMinute read
    · obtain ⟨_, colon', read⟩ := Option.bind_eq_some_iff.mp read
      obtain ⟨⟨second, rest⟩, readSecond, read⟩ := Option.bind_eq_some_iff.mp read
      obtain ⟨ss, writtenSecond, secondFirst⟩ := digits?_eq_some_iff.mp readSecond
      rw [expect?_eq_some_iff.mp colon', secondFirst]
      dsimp only at read
      split at read
      · cases read
      · next atEnd =>
        obtain rfl := Decidable.not_not.mp atEnd
        rw [List.append_nil]
        exact .seconds writtenHour writtenMinute writtenSecond read
  · exact Timed.read

/-! ## The layouts -/

theorem date?_eq_some_iff {cs : List Char} {seconds : Int} :
    date? cs = some seconds ↔
      ∃ date, Dated date cs ∧ date.daysSinceEpoch * secondsPerDay = seconds := by
  constructor
  · intro read
    obtain ⟨⟨date, rest⟩, readDate, read⟩ := Option.bind_eq_some_iff.mp read
    obtain ⟨text, dated, whole⟩ := splitDate?_eq_some_iff.mp readDate
    dsimp only at read
    split at read
    · cases read
    · next atEnd =>
      obtain rfl := Decidable.not_not.mp atEnd
      rw [whole, List.append_nil]
      exact ⟨date, dated, Option.some.inj read⟩
  · rintro ⟨date, dated, rfl⟩
    have whole := dated.read []
    rw [List.append_nil] at whole
    exact Option.bind_eq_some_iff.mpr ⟨_, whole, rfl⟩

theorem time?_eq_some_iff {cs : List Char} {seconds : Int} :
    time? cs = some seconds ↔ ∃ time, Timed time cs ∧ time.seconds = seconds := by
  simp only [time?, Option.map_eq_some_iff, timeOfDay?_eq_some_iff]

theorem joinAtBlank_of_not_mem {cs : List Char} (noBlank : ' ' ∉ cs) : joinAtBlank cs = cs := by
  induction cs with
  | nil => rfl
  | cons c rest ih =>
    rw [List.mem_cons, not_or] at noBlank
    rw [joinAtBlank, if_neg (Ne.symm noBlank.1), ih noBlank.2]

theorem joinAtBlank_append {front : List Char} (noBlank : ' ' ∉ front) (back : List Char) :
    joinAtBlank (front ++ ' ' :: back) = front ++ 'T' :: back := by
  induction front with
  | nil => rfl
  | cons c rest ih =>
    rw [List.mem_cons, not_or] at noBlank
    rw [List.cons_append, joinAtBlank, if_neg (Ne.symm noBlank.1), ih noBlank.2]
    rfl

theorem length_joinAtBlank (cs : List Char) : (joinAtBlank cs).length = cs.length := by
  induction cs with
  | nil => rfl
  | cons c rest ih =>
    rw [joinAtBlank]
    split
    · rfl
    · rw [List.length_cons, List.length_cons, ih]

theorem local?_eq_some_iff {cs : List Char} {seconds : Int} :
    local? cs = some seconds ↔
      ∃ date time d t, Dated date d ∧ Timed time t ∧ joinAtBlank cs = d ++ 'T' :: t ∧
        date.daysSinceEpoch * secondsPerDay + time.seconds = seconds := by
  constructor
  · intro read
    obtain ⟨⟨date, _⟩, readDate, read⟩ := Option.bind_eq_some_iff.mp read
    obtain ⟨t, joint, read⟩ := Option.bind_eq_some_iff.mp read
    obtain ⟨time, readTime, read⟩ := Option.bind_eq_some_iff.mp read
    obtain ⟨d, dated, whole⟩ := splitDate?_eq_some_iff.mp readDate
    rw [expect?_eq_some_iff.mp joint] at whole
    exact ⟨date, time, d, t, dated, timeOfDay?_eq_some_iff.mp readTime, whole,
      Option.some.inj read⟩
  · rintro ⟨date, time, d, t, dated, timed, whole, rfl⟩
    rw [local?, whole]
    exact Option.bind_eq_some_iff.mpr ⟨_, dated.read _, Option.bind_eq_some_iff.mpr
      ⟨_, expect?_cons 'T' t, Option.bind_eq_some_iff.mpr ⟨_, timed.read, rfl⟩⟩⟩

/-- A date and a time of day, joined by a `T` or a blank. -/
theorem local?_of_parts {date : CalendarDate} {time : TimeOfDay} {d t : List Char}
    (dated : Dated date d) (timed : Timed time t) {separator : Char}
    (joint : separator = 'T' ∨ separator = ' ') :
    local? (d ++ separator :: t) = some (date.daysSinceEpoch * secondsPerDay + time.seconds) := by
  have isBlank : Text.isBlank ' ' = true := by decide
  have noBlank {cs : List Char} (solid : ∀ c ∈ cs, Text.isBlank c = false) : ' ' ∉ cs :=
    fun member => Bool.true_eq_false.mp (isBlank.symm.trans (solid ' ' member))
  have joined : joinAtBlank (d ++ separator :: t) = d ++ 'T' :: t := by
    rcases joint with rfl | rfl
    · apply joinAtBlank_of_not_mem
      rw [List.mem_append, List.mem_cons, not_or, not_or]
      exact ⟨noBlank dated.solid, by decide, noBlank timed.solid⟩
    · exact joinAtBlank_append (noBlank dated.solid) t
  exact local?_eq_some_iff.mpr ⟨date, time, d, t, dated, timed, joined, rfl⟩

theorem length_of_local? {cs : List Char} {seconds : Int} (read : local? cs = some seconds) :
    16 ≤ cs.length := by
  obtain ⟨date, time, d, t, dated, timed, whole, _⟩ := local?_eq_some_iff.mp read
  rw [← length_joinAtBlank, whole, List.length_append, List.length_cons]
  have dateLength := dated.length
  have timeLength := timed.length
  omega

/-- The texts of an internet timestamp. A second of sixty is read as the one before it, and only at
the end of a month. -/
inductive Zoned : Int → List Char → Prop where
  | mk {year month day hour minute second : Nat} {date : CalendarDate} {time : TimeOfDay}
      {ahead : Int} {separator : Char} {d hs ms ss fraction zone : List Char}
      (written : DateText year month day d) (real : CalendarDate.of? year month day = some date)
      (ascii : separator.toNat < 0x80) (writtenHour : Padded 2 hour hs)
      (writtenMinute : Padded 2 minute ms) (writtenSecond : Padded 2 second ss)
      (split : dropFraction? fraction = some zone) (zoned : zone? zone = some ahead)
      (realTime : TimeOfDay.of? hour minute (if second = 60 then 59 else second) = some time)
      (leapSecond : second = 60 → isMonthEnd date (time.seconds - ahead) = true) :
      Zoned (date.daysSinceEpoch * secondsPerDay + (time.seconds - ahead))
        (d ++ separator :: (hs ++ ':' :: (ms ++ ':' :: (ss ++ fraction))))

theorem internet?_eq_some_iff {cs : List Char} {seconds : Int} :
    internet? cs = some seconds ↔ Zoned seconds cs := by
  constructor
  · intro read
    obtain ⟨⟨⟨year, month, day⟩, _⟩, readDate, read⟩ := Option.bind_eq_some_iff.mp read
    obtain ⟨date, real, read⟩ := Option.bind_eq_some_iff.mp read
    obtain ⟨d, written, whole⟩ := dateText_of_unsignedDate? readDate
    dsimp only at read
    split at read
    · split at read
      · cases read
      · next ascii =>
        obtain ⟨⟨hour, _⟩, readHour, read⟩ := Option.bind_eq_some_iff.mp read
        obtain ⟨_, colon, read⟩ := Option.bind_eq_some_iff.mp read
        obtain ⟨⟨minute, _⟩, readMinute, read⟩ := Option.bind_eq_some_iff.mp read
        obtain ⟨_, colon', read⟩ := Option.bind_eq_some_iff.mp read
        obtain ⟨⟨second, _⟩, readSecond, read⟩ := Option.bind_eq_some_iff.mp read
        obtain ⟨_, split, read⟩ := Option.bind_eq_some_iff.mp read
        obtain ⟨_, zoned, read⟩ := Option.bind_eq_some_iff.mp read
        obtain ⟨_, realTime, read⟩ := Option.bind_eq_some_iff.mp read
        obtain ⟨hs, writtenHour, hourFirst⟩ := digits?_eq_some_iff.mp readHour
        obtain ⟨ms, writtenMinute, minuteFirst⟩ := digits?_eq_some_iff.mp readMinute
        obtain ⟨ss, writtenSecond, secondFirst⟩ := digits?_eq_some_iff.mp readSecond
        dsimp only at colon colon' split realTime read
        split at read
        · cases read
        · next noFault =>
          rw [whole, hourFirst, expect?_eq_some_iff.mp colon, minuteFirst,
            expect?_eq_some_iff.mp colon', secondFirst]
          cases read
          refine .mk written real (Nat.lt_of_not_le ascii) writtenHour writtenMinute writtenSecond
            split zoned realTime fun leap => ?_
          by_contra ordinary
          exact noFault ⟨leap, by simpa using ordinary⟩
    · cases read
  · rintro ⟨written, real, ascii, writtenHour, writtenMinute, writtenSecond, split, zoned, realTime,
      leapSecond⟩
    have noFault {second : Nat} {monthEnd : Bool} (leapSecond : second = 60 → monthEnd = true) :
        ¬ (second = 60 ∧ (!monthEnd) = true) := by
      rintro ⟨leap, ordinary⟩
      rw [leapSecond leap] at ordinary
      cases ordinary
    simp only [internet?, written.read, real, writtenHour.read, writtenMinute.read,
      writtenSecond.read, expect?_cons, split, zoned, realTime, Option.bind_eq_bind,
      Option.bind_some, if_neg (Nat.not_le.mpr ascii), if_neg (noFault leapSecond)]
    rfl

theorem length_of_zone? {cs zone : List Char} {ahead : Int} (split : dropFraction? cs = some zone)
    (zoned : zone? zone = some ahead) : 1 ≤ cs.length := by
  cases cs with
  | nil =>
    cases split
    cases zoned
  | cons c rest => exact Nat.succ_pos _

namespace Zoned

variable {seconds : Int} {cs : List Char}

theorem length (zoned : Zoned seconds cs) : 20 ≤ cs.length := by
  obtain ⟨written, _, _, writtenHour, writtenMinute, writtenSecond, split, zoned, _, _⟩ := zoned
  have zoneLength := length_of_zone? split zoned
  simp only [List.length_cons, List.length_append, written.length, writtenHour.length,
    writtenMinute.length, writtenSecond.length]
  omega

theorem isDigit_of_head (zoned : Zoned seconds cs) : ∀ c ∈ cs.head?, isDigit c = true := by
  obtain ⟨written, _⟩ := zoned
  rw [List.head?_append_of_ne_nil _ written.ne_nil]
  exact fun c => written.isDigit_of_head

end Zoned

/-- A date and a time of day, and a zone right after the second. -/
theorem internet?_of_parts {year month day hour minute second : Nat} {date : CalendarDate}
    {time : TimeOfDay} {d hs ms ss zone : List Char} {separator : Char} {ahead : Int}
    (written : DateText year month day d) (real : CalendarDate.of? year month day = some date)
    (ascii : separator.toNat < 0x80) (writtenHour : Padded 2 hour hs)
    (writtenMinute : Padded 2 minute ms) (writtenSecond : Padded 2 second ss)
    (realTime : TimeOfDay.of? hour minute second = some time) (noFraction : zone.head? ≠ some '.')
    (zoned : zone? zone = some ahead) :
    internet? (d ++ separator :: (hs ++ ':' :: (ms ++ ':' :: (ss ++ zone)))) =
      some (date.daysSinceEpoch * secondsPerDay + (time.seconds - ahead)) := by
  have noLeapSecond : second ≠ 60 := by
    rintro rfl
    simp [TimeOfDay.of?] at realTime
  have wholeSecond : dropFraction? zone = some zone := by
    unfold dropFraction?
    split
    · exact absurd rfl noFraction
    · rfl
  have realTime' : TimeOfDay.of? hour minute (if second = 60 then 59 else second) = some time := by
    rwa [if_neg noLeapSecond]
  exact internet?_eq_some_iff.mpr (.mk written real ascii writtenHour writtenMinute writtenSecond
    wholeSecond zoned realTime' fun leap => absurd leap noLeapSecond)

/-! ## No text has two layouts -/

theorem length_of_dateTime? {cs : List Char} {seconds : Int}
    (read : dateTime? cs = some seconds) : 16 ≤ cs.length := by
  rcases Option.or_eq_some_iff.mp read with internet | ⟨_, here⟩
  · exact (by decide : 16 ≤ 20).trans (internet?_eq_some_iff.mp internet).length
  · exact length_of_local? here

theorem length_of_date? {cs : List Char} {seconds : Int} (read : date? cs = some seconds) :
    cs.length = 10 ∨ cs.length = 11 := by
  obtain ⟨date, dated, _⟩ := date?_eq_some_iff.mp read
  exact dated.length

theorem length_of_time? {cs : List Char} {seconds : Int} (read : time? cs = some seconds) :
    cs.length = 5 ∨ cs.length = 8 := by
  obtain ⟨time, timed, _⟩ := time?_eq_some_iff.mp read
  exact timed.length

theorem dateTime?_of_date? {cs : List Char} {seconds : Int} (read : date? cs = some seconds) :
    dateTime? cs = none := by
  rw [Option.eq_none_iff_forall_ne_some]
  intro other readOther
  have long := length_of_dateTime? readOther
  have short := length_of_date? read
  omega

theorem dateTime?_of_time? {cs : List Char} {seconds : Int} (read : time? cs = some seconds) :
    dateTime? cs = none := by
  rw [Option.eq_none_iff_forall_ne_some]
  intro other readOther
  have long := length_of_dateTime? readOther
  have short := length_of_time? read
  omega

theorem date?_of_time? {cs : List Char} {seconds : Int} (read : time? cs = some seconds) :
    date? cs = none := by
  rw [Option.eq_none_iff_forall_ne_some]
  intro other readOther
  have long := length_of_date? readOther
  have short := length_of_time? read
  omega

variable {text : String} {seconds : Int}

theorem ofText?_of_dateTime? (read : dateTime? (Text.trim text.toList) = some seconds) :
    ofText? text = some seconds := by
  rw [ofText?, read]
  rfl

theorem ofText?_of_date? (read : date? (Text.trim text.toList) = some seconds) :
    ofText? text = some seconds := by
  rw [ofText?, dateTime?_of_date? read, read]
  rfl

theorem ofText?_of_time? (read : time? (Text.trim text.toList) = some seconds) :
    ofText? text = some seconds := by
  rw [ofText?, dateTime?_of_time? read, date?_of_time? read, read]
  rfl

end Timestamp

end FormLogic
