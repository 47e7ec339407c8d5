import FormLogic.Proofs.Answers
import FormLogic.Proofs.OptionPicks

/-!
# Answers that suit their widgets

An answer in JSON is put into the shape of the widget that it is meant for, or refused. In a form
that has been given its answers in this way, every widget therefore holds what suits it: a typed
text, a tick, or one flag for each option. What such a widget holds can be compared with, unless it
is a typed number or date that cannot be read.
-/

namespace FormLogic

/-! ## The shapes of answers -/

namespace Answer

/-- The answers that suit a widget with a number of options. -/
inductive Suits (w : Widget) (optionCount : Nat) : Answer → Prop where
  | text {typed : String} (kind : w.kind = .text ∨ w.kind = .numeric ∨ w.kind = .date) :
      Suits w optionCount (.text typed)
  | checked {value : Bool} (kind : w.kind = .boolean) : Suits w optionCount (.checked value)
  | one {flags : List Bool} (kind : w.kind = .singleChoice) (length : flags.length = optionCount)
      (atMostOne : flags.count true ≤ 1) : Suits w optionCount (.options flags)
  | several {flags : List Bool} (kind : w.kind = .multiChoice)
      (length : flags.length = optionCount) : Suits w optionCount (.options flags)

theorem suits_blank (w : Widget) (optionCount : Nat) :
    Suits w optionCount (blank w optionCount) := by
  unfold blank
  split
  · next kind => exact .checked kind
  · next kind =>
    refine .one kind List.length_replicate ?_
    simp [List.count_replicate]
  · next kind => exact .several kind List.length_replicate
  · next kind => exact .text (.inl kind)
  · next kind => exact .text (.inr (.inl kind))
  · next kind => exact .text (.inr (.inr kind))

theorem count_set_true_le (flags : List Bool) (index : Nat) :
    (flags.set index true).count true ≤ flags.count true + 1 := by
  by_cases bound : index < flags.length
  · rw [List.count_set bound]
    simp only [beq_self_eq_true, if_true]
    omega
  · rw [List.set_eq_of_length_le (Nat.le_of_not_lt bound)]
    exact Nat.le_succ _

/-- Picks keep the number of flags, and each sets at most one of them. -/
theorem foldlM_pick_ok {choices : List String} {flags flags' : List Bool} {picked : List Json}
    (taken : picked.foldlM (pick choices) flags = .ok flags') :
    flags'.length = flags.length ∧ flags'.count true ≤ flags.count true + picked.length := by
  induction picked generalizing flags with
  | nil =>
    cases taken
    exact ⟨rfl, Nat.le_refl _⟩
  | cons j rest ih =>
    rw [List.foldlM_cons] at taken
    obtain ⟨next, first, others⟩ := Outcome.bind_eq_ok_iff.mp taken
    obtain ⟨index, _, rfl⟩ := pick_eq_ok_iff.mp first
    obtain ⟨length, count⟩ := ih others
    have oneMore := count_set_true_le flags index
    rw [List.length_set] at length
    rw [List.length_cons]
    exact ⟨length, by omega⟩

theorem suits_options {w : Widget} {choices : List String} {j : Json} {flags : List Bool}
    (kind : w.kind = .singleChoice ∨ w.kind = .multiChoice)
    (few : ¬ (w.kind = .singleChoice ∧ 1 < (picks j).length))
    (taken : (picks j).foldlM (pick choices) (List.replicate choices.length false) = .ok flags) :
    Suits w choices.length (options flags) := by
  obtain ⟨length, count⟩ := foldlM_pick_ok taken
  rw [List.length_replicate] at length
  have noneBefore : (List.replicate choices.length false).count true = 0 := by
    simp [List.count_replicate]
  rcases kind with one | several
  · have atMostOne : ¬ 1 < (picks j).length := fun many => few ⟨one, many⟩
    exact .one one length (by omega)
  · exact .several several length

theorem suits_ofJson {w : Widget} {choices : List String} {j : Json} {a : Answer}
    (read : ofJson w choices j = .ok a) : Suits w choices.length a := by
  unfold ofJson at read
  split at read
  · next kind => split at read <;> cases read <;> exact .checked kind
  · next kind =>
    split at read
    · cases read
    · next few =>
      obtain ⟨flags, taken, rfl⟩ := Outcome.map_eq_ok_iff.mp read
      exact suits_options (.inl kind) few taken
  · next kind =>
    split at read
    · cases read
    · next few =>
      obtain ⟨flags, taken, rfl⟩ := Outcome.map_eq_ok_iff.mp read
      exact suits_options (.inr kind) few taken
  · next kind => split at read <;> cases read <;> exact .text (.inl kind)
  · next kind => split at read <;> cases read <;> exact .text (.inr (.inl kind))
  · next kind => split at read <;> cases read <;> exact .text (.inr (.inr kind))

/-- A typed number or date that cannot be read. -/
inductive Unreadable (w : Widget) : Answer → Prop where
  | number {typed : String} (kind : w.kind = .numeric) (noNumber : numberOfText? typed = none) :
      Unreadable w (.text typed)
  | moment {typed : String} (kind : w.kind = .date)
      (noMoment : FieldValue.timestamp? w typed = none) : Unreadable w (.text typed)

/-- Contents that suit a widget are comparable but for a number or a date that cannot be read. -/
theorem Suits.ofAnswer_eq_notComparable_iff {w : Widget} {optionCount : Nat} {a : Answer}
    (suits : Suits w optionCount a) :
    FieldValue.ofAnswer w a = .notComparable ↔ a.Unreadable w := by
  constructor
  · intro incomparable
    cases suits with
    | checked kind => simp [FieldValue.ofAnswer, kind] at incomparable
    | one kind length atMostOne => simp [FieldValue.ofAnswer, kind] at incomparable
    | several kind length => simp [FieldValue.ofAnswer, kind] at incomparable
    | @text typed kind =>
      rcases kind with kind | kind | kind
      · simp [FieldValue.ofAnswer, kind] at incomparable
      · cases read : numberOfText? typed with
        | none => exact .number kind read
        | some value => simp [FieldValue.ofAnswer, kind, read] at incomparable
      · cases read : FieldValue.timestamp? w typed with
        | none => exact .moment kind read
        | some seconds => simp [FieldValue.ofAnswer, kind, read] at incomparable
  · intro unreadable
    cases unreadable with
    | number kind noNumber => simp [FieldValue.ofAnswer, kind, noNumber]
    | moment kind noMoment => simp [FieldValue.ofAnswer, kind, noMoment]

end Answer

/-! ## Controls -/

namespace Control

/-- A control that holds what suits its widget. -/
def Suited (c : Control) : Prop :=
  c.answer.Suits c.field.widget c.field.choices.length

theorem suits_answerOf {f : Field} {j : Json} {a : Answer} (read : answerOf f j = .ok a) :
    a.Suits f.widget f.choices.length :=
  Answer.suits_ofJson (Outcome.mapError_eq_ok_iff.mp read)

theorem suited_ofField {f : Field} {c : Control} (opened : ofField f = .ok c) : c.Suited := by
  unfold ofField at opened
  split at opened
  · obtain ⟨answer, read, opened⟩ := Outcome.bind_eq_ok_iff.mp opened
    cases opened
    exact suits_answerOf read
  · cases opened
    exact Answer.suits_blank f.widget f.choices.length

theorem suited_ofFields {before : List String} {fields : List Field} {controls : List Control}
    (opened : ofFields before fields = .ok controls) : ∀ c ∈ controls, c.Suited := by
  induction fields generalizing before controls with
  | nil =>
    cases opened
    simp
  | cons f rest ih =>
    simp only [ofFields] at opened
    split at opened
    · cases opened
    · obtain ⟨c, first, opened⟩ := Outcome.bind_eq_ok_iff.mp opened
      obtain ⟨cs, others, opened⟩ := Outcome.bind_eq_ok_iff.mp opened
      cases opened
      rw [List.forall_mem_cons]
      exact ⟨suited_ofField first, ih others⟩

theorem Suited.taking {c : Control} (suited : c.Suited) (entries : List Json.Member) :
    (c.taking entries).Suited := by
  unfold Control.taking
  cases given : c.given? entries with
  | none => exact suited
  | some answer =>
    obtain ⟨j, _, read⟩ := Option.bind_eq_some_iff.mp given
    cases decoded : answerOf c.field j with
    | error e =>
      rw [decoded] at read
      cases read
    | ok answer' =>
      rw [decoded] at read
      cases read
      exact suits_answerOf decoded

theorem Suited.settle {c : Control} (suited : c.Suited) (result : Except EvalError Evaluation) :
    (c.settle result).Suited := by
  unfold Suited
  rw [settle_answer, settle_field]
  exact suited

end Control

/-! ## Forms -/

namespace FormState

/-- The states of a form to which all answers have come as JSON. -/
inductive Entered (spec : FormSpec) : FormState → Prop where
  | ofSpec {s : FormState} (opened : FormState.ofSpec spec = .ok s) : Entered spec s
  | ofAnswers {answers : Json} {s : FormState}
      (opened : FormState.ofAnswers spec answers = .ok s) : Entered spec s
  | setValue {s t : FormState} {id : String} {j : Json} (entered : Entered spec s)
      (taken : s.setValue id j = .ok t) : Entered spec t
  | setPolicy {s : FormState} (policy : Policy) (entered : Entered spec s) :
      Entered spec (s.setPolicy policy)
  | refresh {s : FormState} (entered : Entered spec s) : Entered spec s.refreshed

namespace Entered

variable {spec : FormSpec} {s : FormState}

theorem reachable (entered : Entered spec s) : Reachable spec s := by
  induction entered with
  | ofSpec opened => exact .ofSpec opened
  | ofAnswers opened => exact .ofAnswers opened
  | setValue _ taken ih => exact ih.setValue taken
  | setPolicy policy _ ih => exact ih.setPolicy policy
  | refresh _ ih => exact ih.refresh

/-- A form opens with answers that suit its widgets, and neither further answers nor passes put any
other into it. -/
theorem suited (entered : Entered spec s) : ∀ c ∈ s.controls, c.Suited := by
  induction entered with
  | ofSpec opened => exact Control.suited_ofFields (ofSpec_ok.mp opened).1
  | ofAnswers filled =>
    obtain ⟨first, opened, _⟩ := ofAnswers_ok.mp filled
    rw [ofAnswers_controls opened filled, List.forall_mem_map]
    intro c member
    exact (Control.suited_ofFields (ofSpec_ok.mp opened).1 c member).taking _
  | setValue entered taken ih =>
    rw [setValue_controls entered.reachable.kept.distinct taken, List.forall_mem_map]
    exact fun c member => (ih c member).taking _
  | setPolicy policy _ ih => exact ih
  | @refresh s _ ih =>
    intro d member
    rw [s.refreshed_solves] at member
    obtain ⟨k, bound, rfl⟩ := List.mem_mapIdx.mp member
    exact (ih _ (List.getElem_mem bound)).settle _

end Entered

end FormState

end FormLogic
