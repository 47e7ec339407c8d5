import FormLogic.Proofs.Reachable

/-!
# Hiding fields

Some fields of a form are given a rule that never holds. Whether a condition holds can only change
from true to false when its target is hidden, whatever its operator, and groups carry that on
(`Evaluation.combine_reveals`); so a pass shows no field that it would not have shown with the rules
that were there before.
-/

namespace FormLogic

/-! ## The form with some fields hidden -/

/-- A rule that never holds: a disjunction of nothing. -/
def Rule.never : Rule :=
  .group .or []

/-- A field with a rule that never holds, if its id is one of those to hide. -/
def Field.hiding (ids : List String) (f : Field) : Field :=
  if ids.contains f.id then { f with rule := .never } else f

/-- The form with the fields of some ids hidden. -/
def FormSpec.hiding (ids : List String) (spec : FormSpec) : FormSpec :=
  { spec with fields := spec.fields.map (Field.hiding ids) }

/-- A control of the form with some fields hidden. -/
def Control.hiding (ids : List String) (c : Control) : Control :=
  { c with field := c.field.hiding ids }

/-- A state of the form with some fields hidden. -/
def FormState.hiding (ids : List String) (s : FormState) : FormState :=
  { s with controls := s.controls.map (Control.hiding ids) }

theorem Field.hiding_of_mem {ids : List String} {f : Field} (hidden : f.id ∈ ids) :
    f.hiding ids = { f with rule := .never } :=
  if_pos (List.contains_iff_mem.mpr hidden)

theorem Field.hiding_of_not_mem {ids : List String} {f : Field} (shown : f.id ∉ ids) :
    f.hiding ids = f :=
  if_neg (by simpa using shown)

/-- Hiding a field changes nothing of it but the rule. -/
theorem Field.hiding_eq (ids : List String) (f : Field) :
    f.hiding ids = { f with rule := (f.hiding ids).rule } := by
  unfold Field.hiding
  split <;> rfl

@[simp] theorem Field.hiding_id (ids : List String) (f : Field) : (f.hiding ids).id = f.id := by
  rw [Field.hiding_eq]

@[simp] theorem Control.hiding_id (ids : List String) (c : Control) :
    (c.hiding ids).id = c.id :=
  c.field.hiding_id ids

@[simp] theorem Control.hiding_value (ids : List String) (c : Control) :
    (c.hiding ids).value = c.value := by
  unfold Control.value Control.hiding
  rw [Field.hiding_eq]

/-! ## Opening and answering -/

section

variable {ids : List String}

theorem Control.answerOf_hiding (f : Field) : answerOf (f.hiding ids) = answerOf f := by
  rw [Field.hiding_eq]
  rfl

/-- A field is set up without a look at its rule. -/
theorem Control.ofField_hiding (f : Field) :
    ofField (f.hiding ids) = (ofField f).map (Control.hiding ids) := by
  have sameDefault : (f.hiding ids).default? = f.default? := by rw [Field.hiding_eq]
  have sameRequired : (f.hiding ids).required = f.required := by rw [Field.hiding_eq]
  have sameBlank : Answer.blank (f.hiding ids).widget (f.hiding ids).choices.length =
      Answer.blank f.widget f.choices.length := by
    rw [Field.hiding_eq]
  unfold ofField
  rw [answerOf_hiding, sameDefault, sameRequired, sameBlank]
  cases f.default? with
  | none => rfl
  | some value =>
    simp only
    cases answerOf f value <;> rfl

theorem Control.ofFields_hiding (before : List String) (fields : List Field) :
    ofFields before (fields.map (Field.hiding ids)) =
      (ofFields before fields).map (List.map (Control.hiding ids)) := by
  induction fields generalizing before with
  | nil => rfl
  | cons f rest ih =>
    simp only [List.map_cons, ofFields, Field.hiding_id, Control.ofField_hiding, ih]
    by_cases repeated : before.contains f.id = true
    · simp only [repeated, if_true]
      rfl
    · simp only [repeated]
      cases ofField f with
      | error e => rfl
      | ok c => cases ofFields (f.id :: before) rest <;> rfl

namespace FormState

variable {spec : FormSpec}

theorem ofSpec_hiding (spec : FormSpec) :
    FormState.ofSpec (spec.hiding ids) = (FormState.ofSpec spec).map (FormState.hiding ids) := by
  unfold FormState.ofSpec
  simp only [FormSpec.hiding, Control.ofFields_hiding]
  cases Control.ofFields [] spec.fields <;> rfl

theorem setAnswer_hiding (s : FormState) (id : String) (answer : Answer) :
    (s.hiding ids).setAnswer id answer = (s.setAnswer id answer).map (FormState.hiding ids) := by
  have samePosition : (s.hiding ids).position? id = s.position? id := by
    unfold FormState.position? FormState.hiding
    apply Control.position?_congr
    rw [List.map_map]
    apply List.map_congr_left
    intro c _
    exact c.hiding_id ids
  rw [setAnswer_eq, setAnswer_eq, samePosition]
  cases s.position? id with
  | none => rfl
  | some index =>
    simp only [FormState.hiding, Except.map]
    congr 2
    apply List.ext_getElem?
    intro k
    simp only [List.getElem?_modify, List.getElem?_map]
    by_cases there : index = k <;> cases s.controls[k]? <;> simp [there, Control.hiding]

theorem setValue_hiding (s : FormState) (id : String) (j : Json) :
    (s.hiding ids).setValue id j = (s.setValue id j).map (FormState.hiding ids) := by
  have sameControl : (s.hiding ids).control? id = (s.control? id).map (Control.hiding ids) := by
    unfold FormState.control? FormState.hiding
    rw [List.find?_map]
    simp only [Function.comp_def, Control.hiding_id]
  rw [setValue_eq, setValue_eq, sameControl]
  cases s.control? id with
  | none => rfl
  | some c =>
    simp only [Option.map_some, setAnswer_hiding, Control.hiding, Control.answerOf_hiding]
    cases Control.answerOf c.field j <;> rfl

theorem setValues_hiding (s : FormState) (entries : List Json.Member) :
    (s.hiding ids).setValues entries = (s.setValues entries).map (FormState.hiding ids) := by
  induction entries generalizing s with
  | nil => rfl
  | cons entry rest ih =>
    simp only [setValues, List.foldlM_cons, setValue_hiding]
    cases s.setValue entry.1 entry.2 with
    | error e => rfl
    | ok next => exact ih next

/-- Answers are taken alike, whatever fields are hidden. -/
theorem ofAnswers_hiding (spec : FormSpec) (answers : Json) :
    FormState.ofAnswers (spec.hiding ids) answers =
      (FormState.ofAnswers spec answers).map (FormState.hiding ids) := by
  unfold FormState.ofAnswers
  rw [ofSpec_hiding]
  cases FormState.ofSpec spec with
  | error e => rfl
  | ok first => exact setValues_hiding first answers.entries

end FormState

end

/-! ## Evaluations that hold less -/

namespace Evaluation

/-- The second evaluation holds only if the first does. -/
def Covers (e f : Evaluation) : Prop :=
  f.isActive = true → e.isActive = true

/-- Both kinds of groups hold less if their operands do. -/
theorem combine_covers (connective : Connective) {es fs : List Evaluation}
    (covers : List.Forall₂ Covers es fs) :
    Covers (combine connective es) (combine connective fs) := by
  have parts : (fs.all (·.isActive) = true → es.all (·.isActive) = true) ∧
      (fs.any (·.isActive) = true → es.any (·.isActive) = true) := by
    induction covers with
    | nil => exact ⟨id, id⟩
    | cons first _ ih =>
      simp only [List.all_cons, List.any_cons, Bool.and_eq_true, Bool.or_eq_true]
      exact ⟨And.imp first ih.1, Or.imp first ih.2⟩
  cases connective with
  | and => exact parts.1
  | or => exact parts.2

end Evaluation

namespace Control

/-- Two controls that hold the same value, of which the second is active only if the first is. -/
structure Covers (a b : Control) : Prop where
  value : b.value = a.value
  active : b.active = true → a.active = true

/-- Whatever the operator, a condition also asks that its target is active, and of the target it
asks nothing else but the value. -/
theorem Covers.ofCondition {a b : Control} (covers : Covers a b) (op : Operator)
    (literal? : Option Literal) :
    Evaluation.Covers (Evaluation.ofCondition a op literal?)
      (Evaluation.ofCondition b op literal?) := by
  intro holds
  simp only [Evaluation.ofCondition, Bool.and_eq_true, covers.value] at holds ⊢
  exact ⟨holds.1, covers.active holds.2⟩

@[simp] theorem settle_value (c : Control) (result : Except EvalError Evaluation) :
    (c.settle result).value = c.value := by
  cases result <;> rfl

/-- A rule that never holds leaves its field inactive. -/
theorem settleAt_hiding_active {ids : List String} {c : Control} (hidden : c.id ∈ ids)
    (among : List Control) (k : Nat) : (settleAt among k (c.hiding ids)).active = false := by
  unfold Control.hiding
  rw [Field.hiding_of_mem hidden]
  rfl

section

variable {before after after' : List Control} {ids : List String}

/-- A pass over the form with fields hidden, against a pass over the form as it is. By induction on
positions: the rule of a field that is not hidden sees only fields before it, of which those that are
active in the first pass are so in the second. -/
theorem Solves.covers (solves : Solves before after)
    (solves' : Solves (before.map (Control.hiding ids)) after') (k : Nat) (a b : Control)
    (foundA : after[k]? = some a) (foundB : after'[k]? = some b) : Covers a b := by
  have sameIds : after.map Control.id = after'.map Control.id := by
    rw [solves.ids, solves'.ids, List.map_map]
    apply List.map_congr_left
    intro c _
    exact (c.hiding_id ids).symm
  induction k using Nat.strongRecOn generalizing a b with
  | ind k earlier =>
    have settledA := solves.getElem? k
    have settledB := solves'.getElem? k
    rw [foundA] at settledA
    rw [foundB, List.getElem?_map, Option.map_map] at settledB
    obtain ⟨c, foundC, rfl⟩ := Option.map_eq_some_iff.mp settledA.symm
    rw [foundC] at settledB
    cases settledB
    refine ⟨by simp [settleAt], ?_⟩
    intro active
    by_cases hidden : c.id ∈ ids
    · have inactive := settleAt_hiding_active hidden after' k
      rw [Function.comp_apply, inactive] at active
      cases active
    · have sameControl : c.hiding ids = c := by
        unfold Control.hiding
        rw [Field.hiding_of_not_mem hidden]
      have alike : Alike Evaluation.Covers (c.field.rule.evaluate after (some k))
          (c.field.rule.evaluate after' (some k)) := by
        apply Rule.evaluate_alike (fun holds => holds)
        · intro connective es fs covers
          exact Evaluation.combine_covers connective covers
        · intro condition _
          apply Condition.evaluate_alike sameIds
          intro l d e op _ isBefore foundD foundE
          exact (earlier l (isBefore k rfl) d e foundD foundE).ofCondition op condition.literal?
      rw [Function.comp_apply, sameControl, settleAt] at active
      rw [settleAt]
      -- A rule that fails does so in both passes, and then both leave the control as it was.
      generalize c.field.rule.evaluate after (some k) = x,
        c.field.rule.evaluate after' (some k) = y at alike active
      cases alike with
      | error e => exact active
      | ok covers => exact covers active

end

end Control

/-! ## Hiding hides -/

namespace FormState

/-- Hiding only propagates hiding. If some fields of a form are given a rule that never holds, the
same answers are taken, none of these fields is active after a pass, and no other field is active
that would not have been so with the rules that were there before. -/
theorem hiding_reveals_nothing {spec : FormSpec} {answers : Json} {s : FormState}
    (accepted : FormState.ofAnswers spec answers = .ok s) (ids : List String) :
    ∃ t, FormState.ofAnswers (spec.hiding ids) answers = .ok t ∧
      t.refreshed.controls.map Control.id = s.refreshed.controls.map Control.id ∧
      (∀ d ∈ t.refreshed.controls, d.id ∈ ids → d.active = false) ∧
      ∀ (k : Nat) (c d : Control), s.refreshed.controls[k]? = some c →
        t.refreshed.controls[k]? = some d → d.active = true → c.active = true := by
  have accepted' : FormState.ofAnswers (spec.hiding ids) answers = .ok (s.hiding ids) := by
    rw [ofAnswers_hiding, accepted]
    rfl
  have solves := s.refreshed_solves
  have solves' := (s.hiding ids).refreshed_solves
  refine ⟨s.hiding ids, accepted', ?_, ?_, ?_⟩
  · rw [solves.ids, solves'.ids, FormState.hiding, List.map_map]
    apply List.map_congr_left
    intro c _
    exact c.hiding_id ids
  · intro d member toHide
    obtain ⟨k, found⟩ := List.getElem?_of_mem member
    rw [solves'.getElem? k, FormState.hiding, List.getElem?_map, Option.map_map] at found
    obtain ⟨c, _, rfl⟩ := Option.map_eq_some_iff.mp found
    apply Control.settleAt_hiding_active
    simpa [Control.settleAt] using toHide
  · intro k c d foundC foundD
    exact (solves.covers solves' k c d foundC foundD).active

/-- If the country is hidden from one who goes abroad, so is the visa, though its condition is that
the country is another one; the fee, whose rule fails, is shown all the same. -/
theorem travel_hiding_country :
    ∃ s t, FormState.ofAnswers FormSpec.travel (.object [("abroad", .bool true)]) = .ok s ∧
      FormState.ofAnswers (FormSpec.travel.hiding ["country"]) (.object [("abroad", .bool true)]) =
        .ok t ∧
      s.refreshed.controls.map (·.active) = [true, true, true, true] ∧
      t.refreshed.controls.map (·.active) = [true, false, false, true] ∧
      ∀ (k : Nat) (c d : Control), s.refreshed.controls[k]? = some c →
        t.refreshed.controls[k]? = some d → d.active = true → c.active = true := by
  obtain ⟨t, accepted, _, _, reveals⟩ := @hiding_reveals_nothing FormSpec.travel
    (.object [("abroad", .bool true)]) _ rfl ["country"]
  refine ⟨_, t, rfl, accepted, by decide, ?_, reveals⟩
  cases accepted
  decide

end FormState

end FormLogic
