import FormLogic.Form.Visibility
import FormLogic.Proofs.Evaluation

/-!
# A visibility pass solves a system of equations

A pass settles each control among controls of which the earlier ones are settled and the later ones
are not. What it leaves can still be said without any order: every control is what its own rule,
evaluated among the controls that the pass leaves, makes of the control that was there before
(`Control.Solves`). A rule reads only the fields before its own, so that these equations have one
solution, and a second pass finds it again.
-/

namespace FormLogic

namespace Control

/-! ## Settling one control -/

@[simp] theorem settle_field (c : Control) (result : Except EvalError Evaluation) :
    (c.settle result).field = c.field := by
  cases result <;> rfl

@[simp] theorem settle_answer (c : Control) (result : Except EvalError Evaluation) :
    (c.settle result).answer = c.answer := by
  cases result <;> rfl

@[simp] theorem settle_id (c : Control) (result : Except EvalError Evaluation) :
    (c.settle result).id = c.id := by
  cases result <;> rfl

@[simp] theorem settle_settle (c : Control) (result : Except EvalError Evaluation) :
    (c.settle result).settle result = c.settle result := by
  cases result <;> rfl

@[simp] theorem outcome_settle (c : Control) (result other : Except EvalError Evaluation) :
    (c.settle result).outcome other = c.outcome other := by
  cases result <;> rfl

/-- What its rule makes of a control at a position, evaluated among some controls. -/
def settleAt (among : List Control) (index : Nat) (c : Control) : Control :=
  c.settle (c.field.rule.evaluate among (some index))

/-- What is reported of a control at a position whose rule is evaluated among some controls. -/
def outcomeAt (among : List Control) (index : Nat) (c : Control) : FieldOutcome :=
  c.outcome (c.field.rule.evaluate among (some index))

theorem settleAt_settleAt (among : List Control) (index : Nat) (c : Control) :
    settleAt among index (settleAt among index c) = settleAt among index c := by
  simp only [settleAt, settle_field, settle_settle]

theorem outcomeAt_settleAt (among : List Control) (index : Nat) (c : Control) :
    outcomeAt among index (settleAt among index c) = outcomeAt among index c := by
  simp only [settleAt, outcomeAt, settle_field, outcome_settle]

/-- Settling reads the ids and the controls before the position. -/
theorem settleAt_congr {cs ds : List Control} {n : Nat}
    (sameIds : cs.map Control.id = ds.map Control.id) (before : ∀ k < n, cs[k]? = ds[k]?) :
    settleAt cs n = settleAt ds n := by
  funext c
  rw [settleAt, settleAt, Rule.evaluate_eq_of_before c.field.rule sameIds before]

theorem outcomeAt_congr {cs ds : List Control} {n : Nat}
    (sameIds : cs.map Control.id = ds.map Control.id) (before : ∀ k < n, cs[k]? = ds[k]?) :
    outcomeAt cs n = outcomeAt ds n := by
  funext c
  rw [outcomeAt, outcomeAt, Rule.evaluate_eq_of_before c.field.rule sameIds before]

/-! ## The equations -/

/-- The controls `after` solve the equations that rules set up over the controls `before`. -/
def Solves (before after : List Control) : Prop :=
  after = before.mapIdx (settleAt after)

namespace Solves

variable {before after other : List Control}

theorem getElem? (solves : Solves before after) (k : Nat) :
    after[k]? = before[k]?.map (settleAt after k) := by
  conv => lhs; rw [solves]
  exact List.getElem?_mapIdx

theorem fields (solves : Solves before after) :
    after.map Control.field = before.map Control.field := by
  apply List.ext_getElem?
  intro k
  rw [List.getElem?_map, solves.getElem? k, List.getElem?_map, Option.map_map]
  simp only [Function.comp_def, settleAt, settle_field]

theorem ids (solves : Solves before after) : after.map Control.id = before.map Control.id := by
  have sameFields := congrArg (List.map Field.id) solves.fields
  rwa [List.map_map, List.map_map] at sameFields

theorem length (solves : Solves before after) : after.length = before.length := by
  have sameIds := congrArg List.length solves.ids
  simpa only [List.length_map] using sameIds

/-- There is at most one solution, by induction on positions: where two solutions agree before a
position, the rule at the position evaluates alike in both. -/
theorem unique (first : Solves before after) (second : Solves before other) : after = other := by
  have sameIds : after.map Control.id = other.map Control.id := first.ids.trans second.ids.symm
  apply List.ext_getElem?
  intro k
  induction k using Nat.strongRecOn with
  | ind k earlier =>
    rw [first.getElem? k, second.getElem? k, settleAt_congr sameIds earlier]

/-- A solution solves its own equations. -/
theorem self (solves : Solves before after) : Solves after after := by
  apply List.ext_getElem?
  intro k
  rw [List.getElem?_mapIdx, solves.getElem? k, Option.map_map]
  congr 1
  funext c
  exact (settleAt_settleAt after k c).symm

end Solves

/-! ## The pass -/

theorem sweep_ids (settled rest : List Control) :
    (sweep settled rest).1.map Control.id = rest.map Control.id := by
  induction rest generalizing settled with
  | nil => rfl
  | cons c rest ih => simp only [sweep, List.map_cons, settle_id, ih]

theorem sweep_cons (settled rest : List Control) (c : Control) :
    sweep settled (c :: rest) =
      (settleAt (settled ++ c :: rest) settled.length c ::
          (sweep (settled ++ [settleAt (settled ++ c :: rest) settled.length c]) rest).1,
        outcomeAt (settled ++ c :: rest) settled.length c ::
          (sweep (settled ++ [settleAt (settled ++ c :: rest) settled.length c]) rest).2) :=
  rfl

/-- What a sweep leaves, said with the controls that it leaves in the end. -/
theorem sweep_eq (settled rest after : List Control)
    (final : after = settled ++ (sweep settled rest).1) :
    sweep settled rest =
      (rest.mapIdx fun k c => settleAt after (settled.length + k) c,
        rest.mapIdx fun k c => outcomeAt after (settled.length + k) c) := by
  induction rest generalizing settled with
  | nil => rfl
  | cons c rest ih =>
    -- The rule of the next control sees the controls that are settled, and of the others the ids.
    have sameIds : (settled ++ c :: rest).map Control.id = after.map Control.id := by
      rw [final, List.map_append, List.map_append, sweep_ids]
    have sameBefore : ∀ k < settled.length, (settled ++ c :: rest)[k]? = after[k]? := by
      intro k earlier
      rw [final, List.getElem?_append_left earlier, List.getElem?_append_left earlier]
    rw [sweep_cons, settleAt_congr sameIds sameBefore] at final
    rw [sweep_cons, settleAt_congr sameIds sameBefore, outcomeAt_congr sameIds sameBefore]
    rw [← List.singleton_append, ← List.append_assoc] at final
    rw [ih _ final]
    simp only [List.mapIdx_cons, List.length_append, List.length_singleton, Nat.add_zero,
      Nat.add_assoc, Nat.add_comm 1]

end Control

namespace FormState

theorem refreshed_solves (s : FormState) : Control.Solves s.controls s.refreshed.controls := by
  have swept := Control.sweep_eq [] s.controls (Control.sweep [] s.controls).1 rfl
  simp only [List.length_nil, Nat.zero_add] at swept
  exact congrArg Prod.fst swept

@[simp] theorem refreshed_policy (s : FormState) : s.refreshed.policy = s.policy :=
  rfl

theorem refresh_report (s : FormState) :
    s.refresh.2.fields = s.controls.mapIdx (Control.outcomeAt s.refreshed.controls) := by
  have swept := Control.sweep_eq [] s.controls (Control.sweep [] s.controls).1 rfl
  simp only [List.length_nil, Nat.zero_add] at swept
  exact congrArg Prod.snd swept

theorem refresh_eq (s : FormState) : s.refresh = (s.refreshed, s.refresh.2) :=
  rfl

/-- A solution of its equations is what a pass leaves of a state. -/
theorem eq_refreshed {s t : FormState} (solves : Control.Solves s.controls t.controls)
    (samePolicy : t.policy = s.policy) : t = s.refreshed := by
  have sameControls := solves.unique s.refreshed_solves
  cases t with
  | mk controls policy =>
    rw [FormState.mk.injEq]
    exact ⟨sameControls, samePolicy⟩

/-- A second pass changes nothing. -/
@[simp] theorem refreshed_refreshed (s : FormState) : s.refreshed.refreshed = s.refreshed :=
  (eq_refreshed s.refreshed_solves.self rfl).symm

/-- The report of a pass can be read off the state that it leaves. -/
theorem refresh_report_refreshed (s : FormState) :
    s.refresh.2.fields =
      s.refreshed.controls.mapIdx (Control.outcomeAt s.refreshed.controls) := by
  rw [refresh_report]
  apply List.ext_getElem?
  intro k
  rw [List.getElem?_mapIdx, List.getElem?_mapIdx, s.refreshed_solves.getElem? k, Option.map_map]
  congr 1
  funext c
  exact (Control.outcomeAt_settleAt _ k c).symm

/-- A pass is determined by the state that it leaves. -/
theorem refresh_eq_of_refreshed_eq {s t : FormState} (sameState : s.refreshed = t.refreshed) :
    s.refresh = t.refresh := by
  have sameReport : s.refresh.2.fields = t.refresh.2.fields := by
    rw [refresh_report_refreshed, refresh_report_refreshed, sameState]
  rw [refresh_eq, refresh_eq t, sameState]
  generalize s.refresh.2 = first at sameReport
  generalize t.refresh.2 = second at sameReport
  cases first with
  | mk fields =>
    cases sameReport
    rfl

theorem refresh_refreshed (s : FormState) : s.refreshed.refresh = (s.refreshed, s.refresh.2) :=
  refresh_eq_of_refreshed_eq s.refreshed_refreshed

/-! ## The pass without its order -/

/-- What a visibility pass promises of the states before and after it: every control shows what its
own rule comes to in the state after the pass, or is the control that it was. -/
structure Settled (before after : FormState) : Prop where
  policy : after.policy = before.policy
  position? : ∀ id, after.position? id = before.position? id
  length : after.controls.length = before.controls.length
  control : ∀ k (c d : Control), before.controls[k]? = some c → after.controls[k]? = some d →
    match c.field.rule.evaluate after.controls (some k) with
    | .ok e => d.field = c.field ∧ d.answer = c.answer ∧ d.active = e.isActive ∧
        d.hidden = (!e.isActive) ∧ d.required = (c.field.required && e.isActive) ∧
        d.indent = e.indent
    | .error _ => d = c

theorem settled_refreshed (s : FormState) : Settled s s.refreshed where
  policy := rfl
  position? id := Control.position?_congr s.refreshed_solves.ids id
  length := s.refreshed_solves.length
  control k c d foundBefore foundAfter := by
    have settledThere := s.refreshed_solves.getElem? k
    rw [foundBefore, foundAfter] at settledThere
    rw [Option.some.inj settledThere]
    simp only [Control.settleAt]
    cases c.field.rule.evaluate s.refreshed.controls (some k) with
    | ok e => exact ⟨rfl, rfl, rfl, rfl, rfl, rfl⟩
    | error e => rfl

theorem Settled.solves {before after : FormState} (settled : Settled before after) :
    Control.Solves before.controls after.controls := by
  apply List.ext_getElem?
  intro k
  rw [List.getElem?_mapIdx]
  cases foundAfter : after.controls[k]? with
  | none =>
    have beyond : before.controls[k]? = none := by
      rw [List.getElem?_eq_none_iff] at foundAfter ⊢
      rw [← settled.length]
      exact foundAfter
    rw [beyond]
    rfl
  | some d =>
    obtain ⟨c, foundBefore⟩ : ∃ c, before.controls[k]? = some c := by
      obtain ⟨bound, _⟩ := List.getElem?_eq_some_iff.mp foundAfter
      exact ⟨_, List.getElem?_eq_getElem (settled.length ▸ bound)⟩
    have shown := settled.control k c d foundBefore foundAfter
    rw [foundBefore, Option.map_some, Control.settleAt]
    cases evaluated : c.field.rule.evaluate after.controls (some k) with
    | ok e =>
      rw [evaluated] at shown
      cases d with
      | mk field answer active hidden required indent =>
        obtain ⟨rfl, rfl, rfl, rfl, rfl, rfl⟩ := shown
        rfl
    | error e =>
      rw [evaluated] at shown
      rw [shown]
      rfl

/-- One pass in place solves the whole form: in the state that it leaves, every control agrees with
its own rule evaluated in that state, the report holds these evaluations, no other state agrees so
with the state before, and a second pass finds the same state and the same report. -/
theorem refresh_settles_uniquely (s : FormState) :
    Settled s s.refreshed ∧
    s.refresh.2.fields = s.refreshed.controls.mapIdx (fun k c =>
      { id := c.id, label := c.field.label, hasRule := c.field.hasRule,
        outcome := c.field.rule.evaluate s.refreshed.controls (some k) }) ∧
    (∀ t, Settled s t → t = s.refreshed) ∧
    s.refreshed.refresh = s.refresh := by
  refine ⟨s.settled_refreshed, s.refresh_report_refreshed, ?_, ?_⟩
  · intro t settled
    exact eq_refreshed settled.solves settled.policy
  · exact refresh_eq_of_refreshed_eq s.refreshed_refreshed

end FormState

end FormLogic
