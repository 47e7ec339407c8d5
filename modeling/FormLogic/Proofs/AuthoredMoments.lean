import FormLogic.Block.Basic
import FormLogic.Form.State
import FormLogic.Operator.Basic
import FormLogic.Proofs.Exactness
import FormLogic.Proofs.TimestampRange
import Mathlib.Data.List.TakeWhile

/-!
# Moments in blocks and in rules

A block gives a moment as the number of its seconds, a rule gives it as a text. A date widget
compares with the one through doubles and with the other through whole numbers; as no moment is far
enough from 1970 for a double to round its seconds, the answers are the same
(`moment_compares_as_text`).
-/

namespace FormLogic

/-! ## Order -/

namespace Scalar

/-- Rationals that are whole compare as whole numbers do. -/
theorem compare?_ofRat_intCast (a b : Int) :
    (ofRat (a : Rat)).compare? (ofRat (b : Rat)) = some (compare a b) := by
  have sameSide : compareOfLessAndEq (0 : Int) 0 = .eq := by decide
  have sameOrder : compareOfLessAndEq (a : Rat) (b : Rat) = compareOfLessAndEq a b := by
    simp only [compareOfLessAndEq, Int.cast_lt, Int.cast_inj]
  simp only [compare?, ofRat, rank, FiniteScalar.toRat, Option.bind_eq_bind, Option.bind_some,
    sameSide, sameOrder, Ordering.then]
  rfl

end Scalar

namespace FieldValue

theorem order?_moment {a b : Int} (near : |a| < 2 ^ 53) (near' : |b| < 2 ^ 53) :
    (timestamp a).order? (.number (.ofInt b)) = some (compare a b) := by
  rw [order?, Scalar.ofInt_of_abs_lt near, Scalar.ofInt_of_abs_lt near',
    Scalar.compare?_ofRat_intCast]

/-! ## Dated values -/

theorem timestamp?_abs_lt {w : Widget} {typed : String} {seconds : Int}
    (read : timestamp? w typed = some seconds) : |seconds| < 2 ^ 53 := by
  apply Timestamp.InRange.lt_two_pow
  unfold timestamp? at read
  split at read
  · exact Timestamp.date?_inRange read
  · exact Timestamp.time?_inRange read
  · rcases Option.or_eq_some_iff.mp read with internet | ⟨_, here⟩
    · exact Timestamp.internet?_inRange internet
    · exact Timestamp.local?_inRange here

/-- A date widget holds a moment that is near enough to be stored exactly, or nothing that
compares. -/
theorem ofAnswer_of_date {w : Widget} (dated : w.kind = .date) (answer : Answer) :
    ofAnswer w answer = .notComparable ∨
      ∃ seconds, ofAnswer w answer = .timestamp seconds ∧ |seconds| < 2 ^ 53 := by
  cases answer with
  | checked value => simp [ofAnswer, dated]
  | options flags => simp [ofAnswer, dated]
  | text typed =>
    simp only [ofAnswer, dated]
    cases read : timestamp? w typed with
    | none => exact .inl rfl
    | some seconds => exact .inr ⟨seconds, rfl, timestamp?_abs_lt read⟩

end FieldValue

/-- Literals that compare alike with a value are alike for every operator. -/
theorem Operator.holds_congr {value : FieldValue} {l l' : Literal} (op : Operator)
    (order : value.order? l = value.order? l') (equals : value.equals? l = value.equals? l')
    (contains : value.contains? l = value.contains? l')
    (member : value.memberOf? l = value.memberOf? l') :
    op.holds value (some l) = op.holds value (some l') := by
  cases op <;> simp only [holds, Option.bind_some, order, equals, contains, member]

/-- In a date widget the seconds of a moment compare as the text of the moment does. -/
theorem Operator.holds_moment {w : Widget} (dated : w.kind = .date) (answer : Answer)
    {text : String} {seconds : Int} (read : Timestamp.ofText? text = some seconds) (op : Operator) :
    op.holds (.ofAnswer w answer) (some (.number (.ofInt seconds))) =
      op.holds (.ofAnswer w answer) (some (.text text)) := by
  rcases FieldValue.ofAnswer_of_date dated answer with none | ⟨held, some, near⟩
  · rw [none]
    exact op.holds_congr rfl rfl rfl rfl
  · have order : (FieldValue.timestamp held).order? (.number (.ofInt seconds)) =
        (FieldValue.timestamp held).order? (.text text) := by
      rw [FieldValue.order?_moment near (Timestamp.ofText?_abs_lt read), FieldValue.order?, read,
        Option.map_some]
    rw [some]
    exact op.holds_congr order (congrArg (Option.map Ordering.isEq) order) rfl rfl

/-! ## Slots -/

theorem Text.trim_of_allBlank {text : String} (blank : allBlank text = true) :
    trim text.toList = [] := by
  rw [trim, List.dropWhile_eq_nil_iff.mpr (List.all_eq_true.mp blank)]
  rfl

/-- A text that denotes a moment is not blank. -/
theorem Timestamp.not_blank {text : String} {seconds : Int} (read : ofText? text = some seconds) :
    Text.allBlank text = false := by
  rw [Bool.eq_false_iff]
  intro blank
  rw [ofText?, Text.trim_of_allBlank blank] at read
  cases read

namespace Slots

/-- Whether a text stands in a slot for moments, with nothing in those that count before it. -/
inductive FirstMoment (text : String) : Slots → Prop where
  | date {s : Slots} (here : s.date? = some text) : FirstMoment text s
  | time {s : Slots} (noDate : filled? s.date? = none) (here : s.time? = some text) :
      FirstMoment text s
  | datetime {s : Slots} (noDate : filled? s.date? = none) (noTime : filled? s.time? = none)
      (here : s.datetime? = some text) : FirstMoment text s

theorem FirstMoment.literal?_eq {s : Slots} {text : String} {seconds : Int}
    (first : FirstMoment text s) (read : Timestamp.ofText? text = some seconds) (field : String) :
    s.literal? field = .ok (some (.number (.ofInt seconds))) := by
  have filled : filled? (some text) = some text := by
    rw [filled?, Option.filter_some, Timestamp.not_blank read]
    rfl
  obtain ⟨slot, found⟩ : ∃ slot, s.moment? = some (slot, text) := by
    cases first with
    | date here => exact ⟨"value_date", by simp [moment?, moments, here, filled]⟩
    | time noDate here => exact ⟨"value_time", by simp [moment?, moments, noDate, here, filled]⟩
    | datetime noDate noTime here =>
      exact ⟨"value_datetime", by simp [moment?, moments, noDate, noTime, here, filled]⟩
  simp only [literal?, found, read]

/-- A moment that an author puts into a block means the same as its text in a rule. The block
compares with the number of its seconds; and in a date widget, whatever that holds, every operator
holds with this number if and only if it holds with the text. No moment, in a text or in a widget,
is as far as `2 ^ 53` seconds away from 1970, so that each is stored exactly as a double. -/
theorem moment_compares_as_text {text : String} {seconds : Int}
    (read : Timestamp.ofText? text = some seconds) :
    (∀ s : Slots, FirstMoment text s → ∀ field,
      s.literal? field = .ok (some (.number (.ofInt seconds)))) ∧
    (∀ c : Control, c.field.kind = .date → ∀ op : Operator,
      op.holds c.value (some (.number (.ofInt seconds))) = op.holds c.value (some (.text text))) ∧
    (|seconds| < 2 ^ 53 ∧ Scalar.ofInt seconds = .ofRat seconds) ∧
    ∀ c : Control, c.field.kind = .date → ∀ held, c.value = .timestamp held →
      |held| < 2 ^ 53 ∧ Scalar.ofInt held = .ofRat held := by
  have near := Timestamp.ofText?_abs_lt read
  refine ⟨fun s first => first.literal?_eq read,
    fun c dated => Operator.holds_moment dated c.answer read,
    ⟨near, Scalar.ofInt_of_abs_lt near⟩, ?_⟩
  intro c dated held holds
  rcases FieldValue.ofAnswer_of_date dated c.answer with none | ⟨seconds, some, near⟩
  · cases holds.symm.trans none
  · cases holds.symm.trans some
    exact ⟨near, Scalar.ofInt_of_abs_lt near⟩

/-- A field for the day of a departure, and the day that has been typed into it. -/
def departure : Control where
  field := ⟨"departure", "Departure", .date, true, [], none, .empty⟩
  answer := .text "2024-02-29"
  active := true
  hidden := false
  required := true
  indent := 0

/-- The day before a leap day ends in the last minute of a day, in a zone to the east. -/
theorem departure_compares_as_text :
    let slots : Slots := ⟨none, none, none, some " ", none, some "2024-02-29T01:59:00+02:00"⟩
    slots.literal? "departure" = .ok (some (.number (.ofInt 1709164740))) ∧
      Operator.after.holds departure.value (some (.number (.ofInt 1709164740))) = true ∧
      Operator.after.holds departure.value (some (.text "2024-02-29T01:59:00+02:00")) = true := by
  have read : Timestamp.ofText? "2024-02-29T01:59:00+02:00" = some 1709164740 := by decide +kernel
  obtain ⟨literal, same, _⟩ := moment_compares_as_text read
  have after : Operator.after.holds departure.value
      (some (.text "2024-02-29T01:59:00+02:00")) = true := by decide +kernel
  refine ⟨literal _ (.datetime ?_ rfl rfl) "departure", ?_, after⟩
  · decide +kernel
  · rw [same departure rfl, after]

end Slots

end FormLogic
