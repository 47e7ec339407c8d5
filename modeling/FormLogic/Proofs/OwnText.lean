import FormLogic.Form.State
import FormLogic.Proofs.Answering
import FormLogic.Proofs.WrittenMoments

/-!
# Fields and their own texts

A field is equal to the text that has been typed into it, as far as that can be read at all. The
text of a condition is not read as the field's is: a date field has one layout, and a literal is read
in whichever of the three it has; but no text has two of them (`equal_to_own_text`).
-/

namespace FormLogic

theorem Scalar.compare?_self {x : Scalar} (isNumber : x.isNaN = false) :
    x.compare? x = some .eq := by
  have sameSide (a : Int) : compareOfLessAndEq a a = .eq := by simp [compareOfLessAndEq]
  have sameRat (q : Rat) : compareOfLessAndEq q q = .eq := by simp [compareOfLessAndEq]
  cases x with
  | nan => cases isNumber
  | infinite negative => simp [compare?, rank, sameSide, sameRat]
  | finite value => simp [compare?, rank, sameSide, sameRat]

namespace FieldValue

variable {w : Widget} {typed : String} {value : FieldValue}

/-- The layout of a date field is the one that a literal with the same text is read in. -/
theorem ofText?_of_timestamp? {seconds : Int} (read : timestamp? w typed = some seconds) :
    Timestamp.ofText? typed = some seconds := by
  unfold timestamp? at read
  split at read
  · exact Timestamp.ofText?_of_date? read
  · exact Timestamp.ofText?_of_time? read
  · exact Timestamp.ofText?_of_dateTime? read

/-- The values that a typed text can have, with how it was read. -/
inductive Typed (w : Widget) (typed : String) : FieldValue → Prop where
  | text (kind : w.kind = .text) : Typed w typed (.text typed)
  | number {x : Scalar} (kind : w.kind = .numeric) (read : numberOfText? typed = some x) :
      Typed w typed (.number x)
  | moment {seconds : Int} (kind : w.kind = .date) (read : timestamp? w typed = some seconds) :
      Typed w typed (.timestamp seconds)

theorem typed_of_comparable (comparable : ofAnswer w (.text typed) ≠ .notComparable) :
    Typed w typed (ofAnswer w (.text typed)) := by
  cases kind : w.kind with
  | text =>
    simp only [ofAnswer, kind]
    exact .text kind
  | numeric =>
    cases read : numberOfText? typed with
    | none => exact absurd (by simp [ofAnswer, kind, read]) comparable
    | some x =>
      simp only [ofAnswer, kind, read]
      exact .number kind read
  | date =>
    cases read : timestamp? w typed with
    | none => exact absurd (by simp [ofAnswer, kind, read]) comparable
    | some seconds =>
      simp only [ofAnswer, kind, read]
      exact .moment kind read
  | boolean | singleChoice | multiChoice =>
    exact absurd (by simp [ofAnswer, kind]) comparable

namespace Typed

theorem isOrdered (own : Typed w typed value) (kind : w.kind = .numeric ∨ w.kind = .date) :
    value.isOrdered = true := by
  cases own with
  | text isText => rcases kind with kind | kind <;> cases isText.symm.trans kind
  | number isNumeric read => rfl
  | moment isDate read => rfl

/-- A number or a moment is neither before nor after its own text. -/
theorem order?_eq (own : Typed w typed value) (ordered : value.isOrdered = true) :
    value.order? (.text typed) = some .eq := by
  cases own with
  | text kind => cases ordered
  | @number x kind read =>
    have isNumber : x.isNaN = false := by
      have passed := (Option.filter_eq_some_iff.mp read).2
      simpa using passed
    rw [order?, Literal.scalar?, read, Option.bind_some, Scalar.compare?_self isNumber]
  | @moment seconds kind read =>
    rw [order?, ofText?_of_timestamp? read]
    exact congrArg some Std.ReflCmp.compare_self

theorem equals?_eq (own : Typed w typed value) : value.equals? (.text typed) = some true := by
  cases ordered : value.isOrdered with
  | true => rw [equals?_of_isOrdered ordered, own.order?_eq ordered, Option.map_some, Ordering.isEq]
  | false =>
    cases own with
    | text kind => exact congrArg some (beq_self_eq_true typed)
    | number kind read => cases ordered
    | moment kind read => cases ordered

end Typed

end FieldValue

namespace Control

/-- A field is equal to its own text. If what has been typed into a field can be compared, it is
equal to the text that has been typed and not different from it; and in a number or date field it is
neither below nor above, before nor after that text. For in a date field a text means what it means
in a literal, as no text has the layout of a date, of a time of day and of the two together more than
one at a time. -/
theorem equal_to_own_text :
    (∀ (c : Control) (typed : String), c.answer = .text typed → c.value ≠ .notComparable →
      (∀ op ∈ [Operator.equal, .is], op.holds c.value (some (.text typed)) = true) ∧
      (∀ op ∈ [Operator.notEqual, .isNot], op.holds c.value (some (.text typed)) = false) ∧
      (c.field.kind = .numeric ∨ c.field.kind = .date →
        (∀ op ∈ [Operator.lowerOrEqual, .upperOrEqual, .beforeOrEqual, .afterOrEqual],
          op.holds c.value (some (.text typed)) = true) ∧
        ∀ op ∈ [Operator.lower, .upper, .before, .after],
          op.holds c.value (some (.text typed)) = false)) ∧
    (∀ (w : Widget) (typed : String) (seconds : Int), w.kind = .date →
      FieldValue.timestamp? w typed = some seconds → Timestamp.ofText? typed = some seconds) ∧
    ∀ cs : List Char,
      ((Timestamp.date? cs).isSome = true → Timestamp.dateTime? cs = none) ∧
      ((Timestamp.time? cs).isSome = true →
        Timestamp.dateTime? cs = none ∧ Timestamp.date? cs = none) := by
  refine ⟨?_, fun w typed seconds _ read => FieldValue.ofText?_of_timestamp? read, ?_⟩
  · intro c typed answer comparable
    have own : FieldValue.Typed c.field.widget typed c.value := by
      rw [value, answer] at comparable ⊢
      exact FieldValue.typed_of_comparable comparable
    have equals := own.equals?_eq
    refine ⟨?_, ?_, ?_⟩
    · simp [Operator.holds, equals]
    · simp [Operator.holds, equals]
    · intro kind
      have order := own.order?_eq (own.isOrdered kind)
      exact ⟨by simp [Operator.holds, order], by simp [Operator.holds, order]⟩
  · intro cs
    constructor
    · intro dated
      obtain ⟨_, read⟩ := Option.isSome_iff_exists.mp dated
      exact Timestamp.dateTime?_of_date? read
    · intro timed
      obtain ⟨_, read⟩ := Option.isSome_iff_exists.mp timed
      exact ⟨Timestamp.dateTime?_of_time? read, Timestamp.date?_of_time? read⟩

/-- A field for the time of a meeting, with blanks around what has been typed. -/
def meeting : Control where
  field := ⟨"meeting", "Meeting", .time, true, [], none, .empty⟩
  answer := .text " 23:59 "
  active := true
  hidden := false
  required := true
  indent := 0

theorem meeting_equal_to_own_text :
    Operator.equal.holds meeting.value (some (.text " 23:59 ")) = true ∧
      Operator.afterOrEqual.holds meeting.value (some (.text " 23:59 ")) = true ∧
      Operator.after.holds meeting.value (some (.text " 23:59 ")) = false ∧
      Timestamp.ofText? " 23:59 " = some 86340 ∧
      Timestamp.date? "23:59".toList = none := by
  obtain ⟨own, sameMoment, oneLayout⟩ := equal_to_own_text
  obtain ⟨equal, _, order⟩ := own meeting " 23:59 " rfl (by decide +kernel)
  obtain ⟨weak, strict⟩ := order (.inr rfl)
  refine ⟨equal _ (by simp), weak _ (by simp), strict _ (by simp), ?_, ?_⟩
  · exact sameMoment .time _ _ rfl (by decide +kernel)
  · exact ((oneLayout "23:59".toList).2 (by decide +kernel)).2

end Control

end FormLogic
