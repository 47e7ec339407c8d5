import FormLogic.Proofs.Reachable

/-!
# What the words of an evaluation tell

An evaluation goes through all operands of a group, whether or not one of them has settled the
matter. Its words therefore give away nothing of which operands hold: whether a rule fails, and how,
is told by the ids of the controls; its formula is made of their labels; and its trace is made of
what the targets of its conditions hold, active or not.
-/

namespace FormLogic

/-! ## Evaluations in the same words -/

/-- Evaluations with one formula and, if the values in them are known to be the same, with one
trace. -/
structure Evaluation.SameWords (sameValues : Prop) (e f : Evaluation) : Prop where
  formula : f.formula = e.formula
  trace : sameValues → f.trace = e.trace

namespace Evaluation.SameWords

variable {sameValues : Prop}

theorem refl (e : Evaluation) : SameWords sameValues e e where
  formula := rfl
  trace _ := rfl

theorem formulas {es fs : List Evaluation} (same : List.Forall₂ (SameWords sameValues) es fs) :
    fs.map (·.formula) = es.map (·.formula) := by
  induction same with
  | nil => rfl
  | cons first _ ih => rw [List.map_cons, List.map_cons, first.formula, ih]

theorem traces {es fs : List Evaluation} (same : List.Forall₂ (SameWords sameValues) es fs)
    (values : sameValues) : fs.map (·.trace) = es.map (·.trace) := by
  induction same with
  | nil => rfl
  | cons first _ ih => rw [List.map_cons, List.map_cons, first.trace values, ih]

/-- A group is worded as its operands are, all of them. -/
theorem combine (connective : Connective) {es fs : List Evaluation}
    (same : List.Forall₂ (SameWords sameValues) es fs) :
    SameWords sameValues (.combine connective es) (.combine connective fs) where
  formula := congrArg (join connective) (formulas same)
  trace values := congrArg (join connective) (traces same values)

/-- A condition is worded by the label and the value of its target, whatever its operator. -/
theorem ofCondition {a b : Control} (label : b.field.label = a.field.label)
    (value : sameValues → b.value = a.value) (op : Operator) (literal? : Option Literal) :
    SameWords sameValues (.ofCondition a op literal?) (.ofCondition b op literal?) where
  formula := by simp only [Evaluation.ofCondition, label]
  trace values := by simp only [Evaluation.ofCondition, value values]

end Evaluation.SameWords

/-! ## Two states of a form -/

namespace FormState

/-- The target of a condition is the same kind of widget in two states, and holds the same. -/
def SameTarget (s t : FormState) (condition : Condition) : Prop :=
  ∀ a b, s.control? condition.target = some a → t.control? condition.target = some b →
    b.field.widget = a.field.widget ∧ b.answer = a.answer

variable {s t : FormState}

theorem evaluate_sameWords (sameIds : s.controls.map Control.id = t.controls.map Control.id)
    (sameLabels : s.controls.map (·.field.label) = t.controls.map (·.field.label)) (rule : Rule)
    (origin? : Option Nat) :
    Alike (Evaluation.SameWords (∀ c ∈ rule.conditions, SameTarget s t c))
      (rule.evaluate s.controls origin?) (rule.evaluate t.controls origin?) := by
  apply Rule.evaluate_alike (.refl _) fun connective _ _ same => .combine connective same
  intro condition inside
  apply Condition.evaluate_alike sameIds
  intro k a b op position _ foundA foundB
  have samePosition := (Control.position?_congr sameIds condition.target).symm.trans position
  have label : b.field.label = a.field.label := by
    have labels := congrArg (fun labels : List String => labels[k]?) sameLabels
    simp only [List.getElem?_map, foundA, foundB, Option.map_some, Option.some.injEq] at labels
    exact labels.symm
  apply Evaluation.SameWords.ofCondition label
  intro sameTargets
  obtain ⟨widget, answer⟩ := sameTargets condition inside a b
    (control?_of_getElem? position foundA) (control?_of_getElem? samePosition foundB)
  rw [Control.value, Control.value, widget, answer]

/-- The words of an evaluation do not tell which branches hold. In two states with the same ids and
labels at the same positions, however else they differ, a rule fails with the same errors and reads
as the same formula; and if the targets of its conditions hold the same in the same widgets, its
trace is the same, whatever is active and however far it is indented. -/
theorem words_tell_no_branch (sameIds : s.controls.map Control.id = t.controls.map Control.id)
    (sameLabels : s.controls.map (·.field.label) = t.controls.map (·.field.label)) (rule : Rule)
    (origin? : Option Nat) :
    (∀ error, rule.evaluate s.controls origin? = .error error ↔
      rule.evaluate t.controls origin? = .error error) ∧
    ∀ e, rule.evaluate s.controls origin? = .ok e →
      ∃ f, rule.evaluate t.controls origin? = .ok f ∧ f.formula = e.formula ∧
        ((∀ c ∈ rule.conditions, SameTarget s t c) → f.trace = e.trace) := by
  have alike := evaluate_sameWords sameIds sameLabels rule origin?
  refine ⟨alike.error_iff, ?_⟩
  intro e succeeds
  obtain ⟨f, succeeds', words⟩ := alike.exists_of_ok succeeds
  exact ⟨f, succeeds', words.formula, words.trace⟩

/-- Before a pass the country counts, and is not home: the first operand alone settles the matter.
After the pass the country is hidden and neither operand holds. Both operands are in the words each
time, and the words are the same. -/
theorem travel_words_after_pass :
    let rule : Rule := .group .or
      [.leaf ⟨"country", "neq", some (.text "home")⟩, .leaf ⟨"abroad", "c", none⟩]
    ∃ s e f, FormState.ofSpec FormSpec.travel = .ok s ∧
      rule.evaluate s.controls none = .ok e ∧ rule.evaluate s.refreshed.controls none = .ok f ∧
      e.isActive = true ∧ f.isActive = false ∧
      f.formula = e.formula ∧ e.formula = "(Country ≠ \"home\") OR (Abroad ✔)" ∧
      f.trace = e.trace ∧ e.trace = "(\"\" ≠ \"home\") OR (\"false\" ✔)" := by
  intro rule
  obtain ⟨s, opened⟩ : ∃ s, FormState.ofSpec FormSpec.travel = .ok s := ⟨_, rfl⟩
  have sameLabels : s.controls.map (·.field.label) = s.refreshed.controls.map (·.field.label) := by
    have labels := congrArg (List.map Field.label) s.refreshed_solves.fields
    rw [List.map_map, List.map_map] at labels
    exact labels.symm
  obtain ⟨_, succeed⟩ :=
    words_tell_no_branch s.refreshed_solves.ids.symm sameLabels rule none
  cases opened
  obtain ⟨f, evaluated, formula, trace⟩ := succeed _ rfl
  refine ⟨_, _, f, rfl, rfl, evaluated, by decide, ?_, formula, by decide, trace ?_, by decide⟩
  · cases evaluated
    decide
  · intro c inside a b foundA foundB
    rcases List.mem_pair.mp inside with rfl | rfl <;> cases foundA <;> cases foundB <;>
      exact ⟨rfl, rfl⟩

end FormState

end FormLogic
