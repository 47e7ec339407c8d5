import FormLogic.Proofs.Reachable

/-!
# How deep a field can be indented

A condition indents by one level more than its target, and a target stands before the field whose
rule it is in: so no field is indented further than its position. Fields that no evaluation reaches,
because they have no rule or a faulty one, are not indented at all.
-/

namespace FormLogic

/-! ## Levels of evaluations -/

theorem Evaluation.maxIndent_le {operands : List Evaluation} {bound : Nat}
    (each : ∀ e ∈ operands, e.indent ≤ bound) : maxIndent operands ≤ bound := by
  induction operands with
  | nil => exact Nat.zero_le bound
  | cons first rest ih =>
    rw [List.forall_mem_cons] at each
    rw [maxIndent, List.foldr_cons, ← maxIndent]
    exact Nat.max_le.mpr ⟨each.1, ih each.2⟩

theorem Evaluation.indent_combine_le {connective : Connective} {operands : List Evaluation}
    {bound : Nat} (each : ∀ e ∈ operands, e.indent ≤ bound) :
    (combine connective operands).indent ≤ bound := by
  cases connective with
  | and => exact maxIndent_le each
  | or => exact maxIndent_le fun e member => each e (List.mem_of_mem_filter member)

/-- A rule indents no further than its conditions. -/
theorem Rule.indent_evaluate_le {rule : Rule} {cs : List Control} {o : Option Nat}
    {e : Evaluation} {bound : Nat} (evaluated : rule.evaluate cs o = .ok e)
    (each : ∀ condition ∈ rule.conditions, ∀ e, condition.evaluate cs o = .ok e →
      e.indent ≤ bound) : e.indent ≤ bound := by
  induction rule generalizing e with
  | empty =>
    cases evaluated
    exact Nat.zero_le bound
  | leaf condition =>
    rw [evaluate] at evaluated
    exact each condition (List.mem_singleton_self _) e evaluated
  | group connective operands ih =>
    obtain ⟨es, rfl, same⟩ := evaluate_group_ok evaluated
    apply Evaluation.indent_combine_le
    intro e' member
    obtain ⟨operand, inGroup, evaluated'⟩ := same e' member
    apply ih operand inGroup evaluated'
    intro condition inside
    exact each condition (mem_conditions_group inGroup inside)

/-- On behalf of a position, a rule indents no further than that position, if the controls before it
are indented no further than theirs. -/
theorem Rule.indent_le_position {rule : Rule} {cs : List Control} {i : Nat} {e : Evaluation}
    (evaluated : rule.evaluate cs (some i) = .ok e)
    (before : ∀ j < i, ∀ c, cs[j]? = some c → c.indent ≤ j) : e.indent ≤ i := by
  apply indent_evaluate_le evaluated
  intro condition _ e' evaluated'
  obtain ⟨target, op, resolved, _, rfl⟩ := Condition.evaluate_ok evaluated'
  obtain ⟨j, _, found, earlier⟩ := Control.resolve_ok resolved
  have below := before j (earlier i rfl) target found
  exact Nat.succ_le_of_lt (Nat.lt_of_le_of_lt below (earlier i rfl))

namespace FormState

variable {spec : FormSpec} {s : FormState}

/-! ## Levels of controls -/

/-- Controls that are indented no further than their positions. -/
def Leveled (controls : List Control) : Prop :=
  ∀ (i : Nat) (c : Control), controls[i]? = some c → c.indent ≤ i

/-- A pass indents no control further than its position, by induction on positions: the rule of a
control is evaluated among the controls that the pass has settled before it. -/
theorem Leveled.refreshed (leveled : Leveled s.controls) : Leveled s.refreshed.controls := by
  intro i d found
  induction i using Nat.strongRecOn generalizing d with
  | ind i earlier =>
    rw [s.refreshed_solves.getElem? i] at found
    obtain ⟨c, foundBefore, rfl⟩ := Option.map_eq_some_iff.mp found
    rw [Control.settleAt]
    cases evaluated : c.field.rule.evaluate s.refreshed.controls (some i) with
    | error e => exact leveled i c foundBefore
    | ok e => exact Rule.indent_le_position evaluated earlier

theorem Leveled.sameButAnswers {cs ds : List Control}
    (same : List.Forall₂ Control.SameButAnswer cs ds) (leveled : Leveled cs) : Leveled ds := by
  intro i d found
  obtain ⟨c, foundBefore, answer, rfl⟩ := Control.sameButAnswer_at same found
  exact leveled i c foundBefore

/-- On behalf of any field or none, a rule indents no further than there are controls. -/
theorem Leveled.indent_evaluate_le {controls : List Control} (leveled : Leveled controls)
    {rule : Rule} {o : Option Nat} {e : Evaluation} (evaluated : rule.evaluate controls o = .ok e) :
    e.indent ≤ controls.length := by
  apply Rule.indent_evaluate_le evaluated
  intro condition _ e' evaluated'
  obtain ⟨target, op, resolved, _, rfl⟩ := Condition.evaluate_ok evaluated'
  obtain ⟨j, _, found, _⟩ := Control.resolve_ok resolved
  exact Nat.le_trans (Nat.succ_le_succ (leveled j target found)) (List.getElem?_eq_some_iff.mp found).1

theorem Reachable.leveled (reached : Reachable spec s) : Leveled s.controls := by
  apply reached.invariant Leveled
  · intro first opened i c found
    have untouched := (Control.ofFields_ok (ofSpec_ok.mp opened).1).2.1 c (List.mem_of_getElem? found)
    rw [untouched]
    exact Nat.zero_le i
  · intro cs ds same leveled
    exact leveled.sameButAnswers same
  · intro t _ leveled
    exact leveled.refreshed

/-! ## Controls that are always shown -/

/-- A control that is shown without indentation. -/
structure Plain (c : Control) : Prop where
  active : c.active = true
  indent : c.indent = 0

theorem plain_fresh (c : Control) : Plain c.fresh where
  active := rfl
  indent := rfl

/-- A field without a rule is shown in every state. -/
theorem Reachable.plain_of_empty (reached : Reachable spec s) :
    ∀ c ∈ s.controls, c.field.rule = .empty → Plain c := by
  apply reached.invariant fun controls => ∀ c ∈ controls, c.field.rule = .empty → Plain c
  · intro first opened c member _
    rw [(Control.ofFields_ok (ofSpec_ok.mp opened).1).2.1 c member]
    exact plain_fresh c
  · intro cs ds same plain d member noRule
    obtain ⟨i, bound, rfl⟩ := List.getElem_of_mem member
    obtain ⟨c, found, answer, equal⟩ :=
      Control.sameButAnswer_at same (List.getElem?_eq_getElem bound)
    rw [equal] at noRule ⊢
    have shown := plain c (List.mem_of_getElem? found) noRule
    exact ⟨shown.active, shown.indent⟩
  · intro t _ _ d member noRule
    rw [t.refreshed_solves] at member
    obtain ⟨i, bound, rfl⟩ := List.mem_mapIdx.mp member
    rw [Control.settleAt, Control.settle_field] at noRule
    rw [Control.settleAt, noRule]
    exact ⟨rfl, rfl⟩

/-- A field whose rule fails is shown in every state. -/
theorem Kept.plain_of_error (kept : Kept spec s) {i : Nat} {c : Control} {e : EvalError}
    (found : s.controls[i]? = some c)
    (fails : c.field.rule.evaluate s.controls (some i) = .error e) : Plain c := by
  have failure := Rule.errorOf?_evaluate_some s.controls i c.field.rule
  rw [fails, kept.ids] at failure
  rw [kept.failing i c found (by rw [← failure]; rfl)]
  exact plain_fresh c

end FormState

end FormLogic
