import FormLogic.Proofs.Intake

/-!
# Hidden answers do not count

Two forms that differ only in what has been answered in fields that are hidden. A condition on a
hidden field is false whatever the field holds, and it indents by the level of the field, so that a
rule comes to the same in both forms (`Evaluation.SameShown`); field by field, in the order of
declaration, the two forms are therefore shown alike, and agree in every answer that shows
(`Control.Matches`). Nothing that a submission says depends on more than this.
-/

namespace FormLogic

/-! ## Rules that show the same -/

namespace Evaluation

/-- Evaluations that show a field alike, though they may read differently. -/
def SameShown (e f : Evaluation) : Prop :=
  f.isActive = e.isActive ∧ f.indent = e.indent

/-- A group is shown as its operands are: all that it reads of them is shown. -/
theorem combine_sameShown (connective : Connective) {es fs : List Evaluation}
    (same : List.Forall₂ SameShown es fs) :
    SameShown (combine connective es) (combine connective fs) := by
  have sameParts : fs.all (·.isActive) = es.all (·.isActive) ∧
      fs.any (·.isActive) = es.any (·.isActive) ∧ maxIndent fs = maxIndent es ∧
      maxIndent (fs.filter (·.isActive)) = maxIndent (es.filter (·.isActive)) := by
    induction same with
    | nil => exact ⟨rfl, rfl, rfl, rfl⟩
    | @cons e f es fs first _ ih =>
      obtain ⟨active, indent⟩ := first
      obtain ⟨all, any, deepest, deepestActive⟩ := ih
      refine ⟨?_, ?_, ?_, ?_⟩
      · rw [List.all_cons, List.all_cons, active, all]
      · rw [List.any_cons, List.any_cons, active, any]
      · simp only [maxIndent, List.foldr_cons] at deepest ⊢
        rw [indent, deepest]
      · rw [List.filter_cons, List.filter_cons, active]
        cases e.isActive with
        | false => exact deepestActive
        | true =>
          simp only [maxIndent, if_true, List.foldr_cons] at deepestActive ⊢
          rw [indent, deepestActive]
  obtain ⟨all, any, deepest, deepestActive⟩ := sameParts
  cases connective with
  | and => exact ⟨all, deepest⟩
  | or => exact ⟨any, deepestActive⟩

end Evaluation

/-! ## Controls that show the same -/

namespace Control

/-- Controls that are shown alike and, if they are active, hold the same. -/
def Matches (a b : Control) : Prop :=
  SameButAnswer a b ∧ (a.active = true → b = a)

/-- A condition on a field that is not active is false, whatever the field holds. -/
theorem Matches.ofCondition {a b : Control} (matched : Matches a b) (op : Operator)
    (literal? : Option Literal) :
    Evaluation.SameShown (Evaluation.ofCondition a op literal?)
      (Evaluation.ofCondition b op literal?) := by
  obtain ⟨⟨answer, rfl⟩, sameIfActive⟩ := matched
  by_cases active : a.active = true
  · rw [sameIfActive active]
    exact ⟨rfl, rfl⟩
  · simp [Evaluation.SameShown, Evaluation.ofCondition, active]

theorem SameButAnswer.settle {c d : Control} (same : SameButAnswer c d)
    {x y : Except EvalError Evaluation} (alike : Alike Evaluation.SameShown x y) :
    SameButAnswer (c.settle x) (d.settle y) := by
  obtain ⟨answer, rfl⟩ := same
  cases alike with
  | error e => exact ⟨answer, rfl⟩
  | ok shown =>
    obtain ⟨active, indent⟩ := shown
    refine ⟨answer, ?_⟩
    simp only [Control.settle, Control.apply, active, indent]

theorem settle_congr (c : Control) {x y : Except EvalError Evaluation}
    (alike : Alike Evaluation.SameShown x y) : c.settle y = c.settle x := by
  cases alike with
  | error e => rfl
  | ok shown =>
    obtain ⟨active, indent⟩ := shown
    simp only [Control.settle, Control.apply, active, indent]

section

variable {before before' after after' : List Control}

/-- Two passes over forms that differ at most in answers. If the answers of the fields that the
first leaves active are the same, then the two match; by induction on positions, as a rule sees only
the fields before its own. -/
theorem Solves.matches (solves : Solves before after) (solves' : Solves before' after')
    (same : List.Forall₂ SameButAnswer before before')
    (sameActive : ∀ (k : Nat) (a c d : Control), after[k]? = some a → a.active = true →
      before[k]? = some c → before'[k]? = some d → d = c) (k : Nat) (a b : Control)
    (foundA : after[k]? = some a) (foundB : after'[k]? = some b) : Matches a b := by
  have sameIds : after.map Control.id = after'.map Control.id := by
    have sameFields := congrArg (List.map Field.id) (fields_of_sameButAnswers same)
    rw [List.map_map, List.map_map] at sameFields
    exact solves.ids.trans (sameFields.symm.trans solves'.ids.symm)
  induction k using Nat.strongRecOn generalizing a b with
  | ind k earlier =>
    have settledA := solves.getElem? k
    have settledB := solves'.getElem? k
    rw [foundA] at settledA
    rw [foundB] at settledB
    obtain ⟨c, foundC, rfl⟩ := Option.map_eq_some_iff.mp settledA.symm
    obtain ⟨d, foundD, rfl⟩ := Option.map_eq_some_iff.mp settledB.symm
    have sameControl : SameButAnswer c d := by
      obtain ⟨c', foundC', sameC⟩ := sameButAnswer_at same foundD
      cases foundC.symm.trans foundC'
      exact sameC
    have sameRule : d.field.rule = c.field.rule := by
      obtain ⟨_, rfl⟩ := sameControl
      rfl
    have alike : Alike Evaluation.SameShown (c.field.rule.evaluate after (some k))
        (d.field.rule.evaluate after' (some k)) := by
      rw [sameRule]
      apply Rule.evaluate_alike ⟨rfl, rfl⟩
      · intro connective es fs same
        exact Evaluation.combine_sameShown connective same
      intro condition _
      apply Condition.evaluate_alike sameIds
      intro l a b op _ isBefore foundA foundB
      exact (earlier l (isBefore k rfl) a b foundA foundB).ofCondition op condition.literal?
    refine ⟨sameControl.settle alike, ?_⟩
    intro active
    have equal : d = c := sameActive k _ c d foundA active foundC foundD
    subst equal
    exact settle_congr d alike

theorem Solves.forall₂_matches (solves : Solves before after) (solves' : Solves before' after')
    (same : List.Forall₂ SameButAnswer before before')
    (sameActive : ∀ (k : Nat) (a c d : Control), after[k]? = some a → a.active = true →
      before[k]? = some c → before'[k]? = some d → d = c) : List.Forall₂ Matches after after' := by
  apply List.forall₂_of_length_eq_of_get
  · rw [solves.length, solves'.length]
    exact same.length_eq
  · intro k bound bound'
    exact solves.matches solves' same sameActive k _ _ (List.getElem?_eq_getElem bound)
      (List.getElem?_eq_getElem bound')

end

/-! ## What is said of controls that match -/

section

variable {cs ds : List Control}

theorem filter_active_of_matches (matched : List.Forall₂ Matches cs ds) :
    ds.filter (·.active) = cs.filter (·.active) := by
  induction matched with
  | nil => rfl
  | cons first _ ih =>
    obtain ⟨⟨answer, rfl⟩, sameIfActive⟩ := first
    rw [List.filter_cons, List.filter_cons, ih]
    split
    · next active => rw [sameIfActive active]
    · rfl

theorem filter_inactive_of_matches (matched : List.Forall₂ Matches cs ds) :
    (ds.filter (!·.active)).map Control.id = (cs.filter (!·.active)).map Control.id := by
  induction matched with
  | nil => rfl
  | cons first _ ih =>
    obtain ⟨⟨answer, rfl⟩, _⟩ := first
    rw [List.filter_cons, List.filter_cons]
    split
    · rw [List.map_cons, List.map_cons, ih]
      rfl
    · exact ih

end

end Control

/-! ## Submissions that differ in hidden answers -/

namespace Submission

/-- Forms that match after a pass come to the same submission. -/
theorem ofState_congr {s t : FormState}
    (sameFields : t.controls.map Control.field = s.controls.map Control.field)
    (matched : List.Forall₂ Control.Matches s.refreshed.controls t.refreshed.controls) :
    ofState t = ofState s := by
  have sameFailures : t.refresh.2.failures = s.refresh.2.failures := by
    rw [FormState.failures_refresh, FormState.failures_refresh, sameFields]
  simp only [ofState, Control.filter_active_of_matches matched,
    Control.filter_inactive_of_matches matched, sameFailures]

/-- A field that is active is not among the disabled ones, as ids are distinct. -/
theorem not_mem_disabled {s : FormState} (distinct : (s.controls.map Control.id).Nodup)
    {c : Control} (member : c ∈ s.refreshed.controls) (active : c.active = true) :
    c.id ∉ (ofState s).disabled := by
  intro disabled
  obtain ⟨d, hidden, sameId⟩ := List.mem_map.mp disabled
  obtain ⟨inForm, inactive⟩ := List.mem_filter.mp hidden
  rw [← s.refreshed_solves.ids] at distinct
  have same : d = c := List.inj_on_of_nodup_map distinct inForm member sameId
  rw [same, active] at inactive
  cases inactive

end Submission

namespace FormState

/-- Two forms with answers that agree outside the disabled fields of the first match after a
pass. -/
theorem matches_of_agree {spec : FormSpec} {answers others : Json} {s t : FormState}
    (accepted : FormState.ofAnswers spec answers = .ok s)
    (accepted' : FormState.ofAnswers spec others = .ok t)
    (agree : ∀ id ∉ (Submission.ofState s).disabled,
      others.entries.lookup id = answers.entries.lookup id) :
    List.Forall₂ Control.Matches s.refreshed.controls t.refreshed.controls := by
  obtain ⟨first, opened, _⟩ := ofAnswers_ok.mp accepted
  have filled := ofAnswers_controls opened accepted
  have filled' := ofAnswers_controls opened accepted'
  have distinct := (Kept.ofAnswers accepted).distinct
  apply s.refreshed_solves.forall₂_matches t.refreshed_solves
  · rw [filled, filled', List.forall₂_map_left_iff, List.forall₂_map_right_iff,
      List.forall₂_same]
    intro c _
    exact ⟨_, rfl⟩
  · intro k a c d foundA active foundC foundD
    have sameId : a.id = c.id := by
      have atPosition := congrArg (·[k]?) s.refreshed_solves.ids
      simp only [List.getElem?_map, foundA, foundC, Option.map_some] at atPosition
      exact Option.some.inj atPosition
    have shown := agree a.id (Submission.not_mem_disabled distinct (List.mem_of_getElem? foundA)
      active)
    rw [filled, List.getElem?_map] at foundC
    rw [filled', List.getElem?_map] at foundD
    obtain ⟨f, foundF, rfl⟩ := Option.map_eq_some_iff.mp foundC
    rw [foundF] at foundD
    cases foundD
    rw [sameId] at shown
    exact Control.taking_congr shown

end FormState

namespace Submission

/-- Answers to fields that are disabled do not count: whatever is put in their place, or if they are
left out, the submission is the same, and every field is shown in the same way. -/
theorem check_ignores_disabled {spec : FormSpec} {answers : Json} {s : FormState}
    (accepted : FormState.ofAnswers spec answers = .ok s) :
    ∃ submission, check spec answers = .ok submission ∧
      (∀ others t, FormState.ofAnswers spec others = .ok t →
        (∀ id ∉ submission.disabled,
          others.entries.lookup id = answers.entries.lookup id) →
        check spec others = .ok submission ∧
          List.Forall₂ Control.SameButAnswer s.refreshed.controls t.refreshed.controls) ∧
      ∃ t, FormState.ofAnswers spec (answers.without submission.disabled) = .ok t ∧
        check spec (answers.without submission.disabled) = .ok submission ∧
        List.Forall₂ Control.SameButAnswer s.refreshed.controls t.refreshed.controls := by
  have ignores : ∀ others t, FormState.ofAnswers spec others = .ok t →
      (∀ id ∉ (ofState s).disabled, others.entries.lookup id = answers.entries.lookup id) →
      check spec others = .ok (ofState s) ∧
        List.Forall₂ Control.SameButAnswer s.refreshed.controls t.refreshed.controls := by
    intro others t accepted' agree
    have matched := FormState.matches_of_agree accepted accepted' agree
    have sameFields : t.controls.map Control.field = s.controls.map Control.field :=
      (FormState.Kept.ofAnswers accepted').fields.trans
        (FormState.Kept.ofAnswers accepted).fields.symm
    refine ⟨?_, matched.imp fun _ _ both => both.1⟩
    rw [check_of_accepted accepted', ofState_congr sameFields matched]
  refine ⟨ofState s, check_of_accepted accepted, ignores, ?_⟩
  obtain ⟨t, accepted'⟩ := accepted_without (ofState s).disabled accepted
  have agree : ∀ id ∉ (ofState s).disabled,
      (answers.without (ofState s).disabled).entries.lookup id = answers.entries.lookup id :=
    fun id kept => Json.lookup_without kept answers
  exact ⟨t, accepted', ignores _ t accepted' agree⟩

/-- One who stays at home may have answered anything about the country and the visa. -/
theorem travel_ignores_disabled :
    ∃ submission, check FormSpec.travel (.object [("abroad", .bool false),
        ("country", .string "Norway"), ("visa", .string "granted")]) = .ok submission ∧
      submission.disabled = ["country", "visa"] ∧
      check FormSpec.travel (.object [("country", .string ""), ("abroad", .bool false)]) =
        .ok submission := by
  obtain ⟨submission, checked, ignores, _⟩ := @check_ignores_disabled FormSpec.travel
    (.object [("abroad", .bool false), ("country", .string "Norway"), ("visa", .string "granted")])
    _ rfl
  have disabled : submission.disabled = ["country", "visa"] := by
    have computed := congrArg (Except.map Submission.disabled) checked
    exact (Except.ok.inj computed).symm
  refine ⟨submission, checked, disabled, (ignores _ _ rfl ?_).1⟩
  intro id shown
  rw [disabled] at shown
  simp only [List.mem_cons, List.not_mem_nil, or_false, not_or] at shown
  have notCountry : (id == "country") = false := beq_eq_false_iff_ne.mpr shown.1
  have notVisa : (id == "visa") = false := beq_eq_false_iff_ne.mpr shown.2
  have entries : Json.entries (.object [("abroad", .bool false), ("country", .string "Norway"),
      ("visa", .string "granted")]) = [("abroad", .bool false), ("country", .string "Norway"),
        ("visa", .string "granted")] := rfl
  have others : Json.entries (.object [("country", .string ""), ("abroad", .bool false)]) =
      [("abroad", .bool false), ("country", .string "")] := rfl
  rw [entries, others]
  simp only [List.lookup_cons, notCountry, notVisa, List.lookup_nil]

end Submission

end FormLogic
