import FormLogic.Proofs.References

/-!
# Why a field is indented

A condition indents by one level more than its target. A rule that holds and indents at all has a
condition that holds and indents as far (`Rule.exists_condition`), so that an active field that is
indented refers to an active field one level above it. Followed upwards, these fields form a chain
that ends at a field without indentation.
-/

namespace FormLogic

namespace Evaluation

/-! ## The deepest operand -/

theorem exists_of_maxIndent {operands : List Evaluation} {level : Nat}
    (deepest : maxIndent operands = level + 1) : ∃ e ∈ operands, e.indent = level + 1 := by
  induction operands with
  | nil => cases deepest
  | cons first rest ih =>
    rw [maxIndent, List.foldr_cons, ← maxIndent] at deepest
    by_cases deeper : first.indent ≤ maxIndent rest
    · rw [Nat.max_eq_right deeper] at deepest
      obtain ⟨e, member, level⟩ := ih deepest
      exact ⟨e, List.mem_cons_of_mem _ member, level⟩
    · rw [Nat.max_eq_left (Nat.le_of_not_le deeper)] at deepest
      exact ⟨first, List.mem_cons_self, deepest⟩

/-- In a group that holds and indents, some operand that holds indents as far: of a conjunction all
operands hold, and of a disjunction only those that hold indent. -/
theorem exists_operand {connective : Connective} {operands : List Evaluation} {level : Nat}
    (active : (combine connective operands).isActive = true)
    (deepest : (combine connective operands).indent = level + 1) :
    ∃ e ∈ operands, e.isActive = true ∧ e.indent = level + 1 := by
  cases connective with
  | and =>
    obtain ⟨e, member, sameLevel⟩ := exists_of_maxIndent deepest
    exact ⟨e, member, List.all_eq_true.mp active e member, sameLevel⟩
  | or =>
    obtain ⟨e, member, sameLevel⟩ := exists_of_maxIndent deepest
    obtain ⟨inGroup, holds⟩ := List.mem_filter.mp member
    exact ⟨e, inGroup, holds, sameLevel⟩

end Evaluation

/-- In a rule that holds and indents, some condition that holds indents as far. -/
theorem Rule.exists_condition {rule : Rule} {cs : List Control} {o : Option Nat} {e : Evaluation}
    {level : Nat} (evaluated : rule.evaluate cs o = .ok e) (active : e.isActive = true)
    (indented : e.indent = level + 1) :
    ∃ condition ∈ rule.conditions, ∃ e', condition.evaluate cs o = .ok e' ∧
      e'.isActive = true ∧ e'.indent = level + 1 := by
  induction rule generalizing e with
  | empty =>
    cases evaluated
    cases indented
  | leaf condition =>
    rw [evaluate] at evaluated
    exact ⟨condition, List.mem_singleton_self _, e, evaluated, active, indented⟩
  | group connective operands ih =>
    obtain ⟨es, rfl, each⟩ := evaluate_group_ok evaluated
    obtain ⟨e, member, holds, sameLevel⟩ := Evaluation.exists_operand active indented
    obtain ⟨operand, inGroup, same⟩ := each e member
    obtain ⟨condition, inside, found⟩ := ih operand inGroup same holds sameLevel
    exact ⟨condition, mem_conditions_group inGroup inside, found⟩

/-! ## One level -/

namespace FormState

/-- Every active control that is indented refers to an active control one level above it. -/
def Justified (fields : List Field) (controls : List Control) : Prop :=
  ∀ (i : Nat) (c : Control) (level : Nat), controls[i]? = some c → c.active = true →
    c.indent = level + 1 →
    ∃ j d, Field.Refers fields i j ∧ controls[j]? = some d ∧ d.active = true ∧ d.indent = level

variable {spec : FormSpec} {s : FormState}

/-- A pass justifies what it indents, by a condition of the rule in the form as it is after the
pass. A field whose rule fails has never been indented. -/
theorem Kept.justified_refreshed (kept : Kept spec s) :
    Justified spec.fields s.refreshed.controls := by
  intro i c level found active indented
  have solves := s.refreshed_solves
  have settled := solves.self.getElem? i
  rw [found, Option.map_some, Option.some.injEq, Control.settleAt] at settled
  have field : spec.fields[i]? = some c.field := by
    rw [← kept.refreshed.fields, List.getElem?_map, found, Option.map_some]
  cases evaluated : c.field.rule.evaluate s.refreshed.controls (some i) with
  | error e =>
    have fails := Rule.errorOf?_evaluate_some s.refreshed.controls i c.field.rule
    rw [evaluated, kept.refreshed_ids] at fails
    have untouched : c = c.fresh := kept.refreshed.failing i c found (by rw [← fails]; rfl)
    rw [untouched] at indented
    cases indented
  | ok e =>
    rw [evaluated] at settled
    rw [settled] at active indented
    obtain ⟨condition, inside, e', evaluated', holds, sameLevel⟩ :=
      Rule.exists_condition evaluated active indented
    obtain ⟨d, op, resolved, _, rfl⟩ := Condition.evaluate_ok evaluated'
    obtain ⟨j, target, foundD, before⟩ := Control.resolve_ok resolved
    have refers := Control.refers_of_position? kept.refreshed.fields field inside target
      (before i rfl)
    refine ⟨j, d, refers, foundD, ?_, ?_⟩
    · simp only [Evaluation.ofCondition, Bool.and_eq_true] at holds
      exact holds.2
    · exact Nat.succ.inj sameLevel

/-- In every state of a form the indentation is justified: before any pass there is none, and answers
change none. -/
theorem Reachable.justified (reached : Reachable spec s) : Justified spec.fields s.controls := by
  apply reached.invariant (Justified spec.fields)
  · intro first opened i c level found _ indented
    have untouched := (Control.ofFields_ok (ofSpec_ok.mp opened).1).2.1 c (List.mem_of_getElem? found)
    rw [untouched] at indented
    cases indented
  · intro before after answered justified i c level found active indented
    obtain ⟨c', found', answer, rfl⟩ := Control.sameButAnswer_at answered found
    obtain ⟨j, d, refers, foundD, holds, sameLevel⟩ := justified i c' level found' active indented
    obtain ⟨d', foundD', answer', rfl⟩ :=
      Control.sameButAnswer_at (Control.sameButAnswers_symm answered) foundD
    exact ⟨j, d', refers, foundD', holds, sameLevel⟩
  · intro t kept _
    exact kept.justified_refreshed

/-! ## All levels -/

/-- Where the indentation is justified, an active control stands at the lower end of a chain of
active controls, one on each level above its own. -/
theorem Justified.exists_chain {fields : List Field} {controls : List Control}
    (justified : Justified fields controls) {level i : Nat} {c : Control}
    (found : controls[i]? = some c) (active : c.active = true) (indented : c.indent = level) :
    ∃ parent : Nat → Nat, parent level = i ∧ ∀ l < level,
      Field.Refers fields (parent (l + 1)) (parent l) ∧
        ∃ d, controls[parent l]? = some d ∧ d.active = true ∧ d.indent = l := by
  induction level generalizing i c with
  | zero => exact ⟨fun _ => i, rfl, fun l impossible => absurd impossible (Nat.not_lt_zero l)⟩
  | succ level ih =>
    obtain ⟨j, d, refers, foundD, activeD, sameLevel⟩ := justified i c level found active indented
    obtain ⟨parent, atTop, above⟩ := ih foundD activeD sameLevel
    -- The chain of the parent, with the control itself put below it.
    refine ⟨Function.update parent (level + 1) i, Function.update_self .., ?_⟩
    intro l below
    have notLast : l ≠ level + 1 := Nat.ne_of_lt below
    rw [Function.update_of_ne notLast]
    by_cases last : l = level
    · subst last
      rw [Function.update_self, atTop]
      exact ⟨refers, d, foundD, activeD, sameLevel⟩
    · have inner : l < level := by omega
      have notNext : l + 1 ≠ level + 1 := by omega
      rw [Function.update_of_ne notNext]
      exact above l inner

/-- An active field that is indented stands below active fields that lead to it: one on each level
above its own, up to a field without indentation, and each of them is a target in the rule of the
next. -/
theorem indentation_follows_references {i : Nat} {c : Control} (reached : Reachable spec s)
    (found : s.controls[i]? = some c) (active : c.active = true) :
    ∃ parent : Nat → Nat, parent c.indent = i ∧ ∀ level < c.indent,
      Field.Refers spec.fields (parent (level + 1)) (parent level) ∧
        ∃ d, s.controls[parent level]? = some d ∧ d.active = true ∧ d.indent = level :=
  reached.justified.exists_chain found active rfl

/-- The visa of one who goes abroad stands two levels below the question that leads to it. -/
theorem travel_indentation :
    ∃ s c, FormState.ofAnswers FormSpec.travel (.object [("abroad", .bool true)]) = .ok s ∧
      s.refreshed.controls[2]? = some c ∧ c.active = true ∧ c.indent = 2 ∧
      ∃ parent : Nat → Nat, Field.Refers FormSpec.travel.fields 2 (parent 1) ∧
        Field.Refers FormSpec.travel.fields (parent 1) (parent 0) := by
  have filled : FormState.ofAnswers FormSpec.travel (.object [("abroad", .bool true)]) = .ok _ :=
    rfl
  refine ⟨_, _, filled, rfl, by decide, by decide, ?_⟩
  have reached := (Reachable.ofAnswers filled).refresh
  obtain ⟨parent, last, above⟩ := indentation_follows_references (i := 2) reached rfl (by decide)
  have first := above 1 (by decide)
  have second := above 0 (by decide)
  rw [show parent (1 + 1) = 2 from last] at first
  exact ⟨parent, first.1, second.1⟩

end FormState

end FormLogic
