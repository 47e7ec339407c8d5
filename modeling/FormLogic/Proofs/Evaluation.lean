import FormLogic.Proofs.Outcome

/-!
# What an evaluation reads

The evaluation of a rule is put together from the evaluations of its conditions, and a condition
reads nothing but the ids of the controls and the one control that it refers to. On behalf of a
field, a rule therefore reads only the controls before that field.
-/

namespace FormLogic

/-! ## Ids -/

/-- Among distinct ids, each is found where it stands. -/
theorem findIdx?_of_nodup {ids : List String} (distinct : ids.Nodup) {k : Nat} {id : String}
    (found : ids[k]? = some id) : ids.findIdx? (· == id) = some k := by
  cases first : ids.findIdx? (· == id) with
  | none =>
    rw [List.findIdx?_eq_none_iff] at first
    have notItself := first id (List.mem_of_getElem? found)
    simp at notItself
  | some l =>
    obtain ⟨bound, same, _⟩ := List.findIdx?_eq_some_iff_getElem.mp first
    have samePosition : l = k := by
      rw [← List.getElem?_inj bound distinct, found, List.getElem?_eq_getElem bound, eq_of_beq same]
    rw [samePosition]

/-! ## Conditions -/

namespace Control

variable {cs ds : List Control} {o : Option Nat}

/-- Where a field stands is a matter of the ids alone. -/
theorem position?_eq_findIdx? (controls : List Control) (id : String) :
    position? controls id = (controls.map Control.id).findIdx? (· == id) := by
  rw [List.findIdx?_map]
  rfl

theorem position?_congr (sameIds : cs.map Control.id = ds.map Control.id) (id : String) :
    position? cs id = position? ds id := by
  rw [position?_eq_findIdx?, position?_eq_findIdx?, sameIds]

theorem position?_append (cs : List Control) (last : Control) (target : String) :
    position? (cs ++ [last]) target =
      (position? cs target).or (if last.id = target then some cs.length else none) := by
  rw [position?, position?, List.findIdx?_append]
  by_cases same : last.id = target
  · simp [List.findIdx?_cons, same]
  · simp [List.findIdx?_cons, same]

theorem getElem?_of_position? {id : String} {k : Nat} (found : position? cs id = some k) :
    ∃ c, cs[k]? = some c ∧ c.id = id := by
  obtain ⟨bound, equal, _⟩ := List.findIdx?_eq_some_iff_getElem.mp found
  exact ⟨cs[k], List.getElem?_eq_getElem bound, by simpa using equal⟩

theorem position?_of_getElem? (distinct : (cs.map Control.id).Nodup) {k : Nat} {c : Control}
    (found : cs[k]? = some c) : position? cs c.id = some k := by
  rw [position?_eq_findIdx?]
  apply findIdx?_of_nodup distinct
  rw [List.getElem?_map, found, Option.map_some]

/-- Two lists of controls with the same ids resolve a target alike, as far as the controls at its
position are. -/
theorem resolve_alike {related : Control → Control → Prop} {target : String}
    (sameIds : cs.map Control.id = ds.map Control.id)
    (atTarget : ∀ k a b, position? cs target = some k → (∀ n ∈ o, k < n) →
      cs[k]? = some a → ds[k]? = some b → related a b) :
    Alike related (resolve cs o target) (resolve ds o target) := by
  have samePosition := position?_congr sameIds target
  cases found : position? cs target with
  | none =>
    rw [found] at samePosition
    simp only [resolve, found, ← samePosition]
    exact .error _
  | some k =>
    rw [found] at samePosition
    obtain ⟨a, foundA, _⟩ := getElem?_of_position? found
    obtain ⟨b, foundB, _⟩ := getElem?_of_position? samePosition.symm
    simp only [resolve, found, ← samePosition, foundA, foundB]
    cases o with
    | none => exact .ok (atTarget k a b found (by simp) foundA foundB)
    | some n =>
      by_cases before : k < n
      · simp only [before, if_true]
        exact .ok (atTarget k a b found (by simpa using before) foundA foundB)
      · have sameOrigin : cs[n]?.map Control.id = ds[n]?.map Control.id := by
          rw [← List.getElem?_map, ← List.getElem?_map, sameIds]
        simp only [before, if_false, sameOrigin]
        exact .error _

theorem resolve_ok {target : String} {c : Control} (resolved : resolve cs o target = .ok c) :
    ∃ k, position? cs target = some k ∧ cs[k]? = some c ∧ ∀ n ∈ o, k < n := by
  simp only [resolve] at resolved
  cases found : position? cs target with
  | none =>
    rw [found] at resolved
    cases resolved
  | some k =>
    obtain ⟨d, foundD, _⟩ := getElem?_of_position? found
    simp only [found, foundD] at resolved
    cases o with
    | none =>
      cases resolved
      exact ⟨k, rfl, foundD, by simp⟩
    | some n =>
      by_cases before : k < n
      · simp only [before, if_true] at resolved
        cases resolved
        exact ⟨k, rfl, foundD, by simpa using before⟩
      · simp only [before, if_false] at resolved
        cases resolved

end Control

theorem Condition.evaluate_ok {cs : List Control} {o : Option Nat} {condition : Condition}
    {e : Evaluation} (evaluated : condition.evaluate cs o = .ok e) :
    ∃ target op, Control.resolve cs o condition.target = .ok target ∧
      Operator.ofId? condition.operator = some op ∧
      e = Evaluation.ofCondition target op condition.literal? := by
  simp only [evaluate] at evaluated
  obtain ⟨target, resolved, evaluated⟩ := Outcome.bind_eq_ok_iff.mp evaluated
  cases known : Operator.ofId? condition.operator with
  | none =>
    rw [known] at evaluated
    cases evaluated
  | some op =>
    rw [known] at evaluated
    cases evaluated
    exact ⟨target, op, resolved, rfl, rfl⟩

/-- A condition reads the ids of the controls, and of the controls only its target. -/
theorem Condition.evaluate_alike {related : Evaluation → Evaluation → Prop}
    {cs ds : List Control} {o : Option Nat} {condition : Condition}
    (sameIds : cs.map Control.id = ds.map Control.id)
    (atTarget : ∀ k a b op, Control.position? cs condition.target = some k → (∀ n ∈ o, k < n) →
      cs[k]? = some a → ds[k]? = some b →
      related (Evaluation.ofCondition a op condition.literal?)
        (Evaluation.ofCondition b op condition.literal?)) :
    Alike related (condition.evaluate cs o) (condition.evaluate ds o) := by
  have resolved : Alike (fun a b => ∀ op, related (Evaluation.ofCondition a op condition.literal?)
      (Evaluation.ofCondition b op condition.literal?))
      (Control.resolve cs o condition.target) (Control.resolve ds o condition.target) :=
    Control.resolve_alike sameIds fun k a b found before foundA foundB op =>
      atTarget k a b op found before foundA foundB
  simp only [Condition.evaluate]
  generalize Control.resolve cs o condition.target = x,
    Control.resolve ds o condition.target = y at resolved
  cases resolved with
  | error e => exact .error e
  | ok targets =>
    cases Operator.ofId? condition.operator with
    | none => exact .error _
    | some op => exact .ok (targets op)

namespace Rule

/-! ## Induction over rules -/

/-- Induction over a rule: a group may assume the statement of each of its operands. -/
@[elab_as_elim, induction_eliminator]
theorem inductionOn {motive : Rule → Prop} (rule : Rule) (empty : motive .empty)
    (leaf : ∀ condition, motive (.leaf condition))
    (group : ∀ connective operands, (∀ operand ∈ operands, motive operand) →
      motive (.group connective operands)) : motive rule := by
  refine @Rule.rec motive (fun operands => ∀ operand ∈ operands, motive operand)
    empty leaf group ?_ ?_ rule
  · intro operand member
    cases member
  · intro first rest head tail operand member
    rcases List.mem_cons.mp member with equal | member
    · exact equal ▸ head
    · exact tail operand member

theorem conditionsOfAll_eq_flatMap (operands : List Rule) :
    conditionsOfAll operands = operands.flatMap conditions := by
  induction operands with
  | nil => rfl
  | cons first rest ih => simp only [conditionsOfAll, List.flatMap_cons, ih]

/-- A condition of an operand is a condition of the group. -/
theorem mem_conditions_group {connective : Connective} {operands : List Rule} {operand : Rule}
    {condition : Condition} (member : operand ∈ operands)
    (inside : condition ∈ operand.conditions) :
    condition ∈ (group connective operands).conditions := by
  rw [conditions, conditionsOfAll_eq_flatMap]
  exact List.mem_flatMap.mpr ⟨operand, member, inside⟩

/-- The evaluations of operands are each the evaluation of one of them. -/
theorem evaluateAll_ok {cs : List Control} {o : Option Nat} {operands : List Rule}
    {es : List Evaluation} (evaluated : evaluateAll cs o operands = .ok es) :
    ∀ e ∈ es, ∃ operand ∈ operands, operand.evaluate cs o = .ok e := by
  induction operands generalizing es with
  | nil =>
    cases evaluated
    simp
  | cons first rest ih =>
    simp only [evaluateAll] at evaluated
    obtain ⟨e, head, evaluated⟩ := Outcome.bind_eq_ok_iff.mp evaluated
    obtain ⟨es, tail, evaluated⟩ := Outcome.bind_eq_ok_iff.mp evaluated
    cases evaluated
    rw [List.forall_mem_cons]
    refine ⟨⟨first, List.mem_cons_self, head⟩, ?_⟩
    intro e' member
    obtain ⟨operand, inRest, same⟩ := ih tail e' member
    exact ⟨operand, List.mem_cons_of_mem _ inRest, same⟩

theorem evaluate_group_ok {cs : List Control} {o : Option Nat} {connective : Connective}
    {operands : List Rule} {e : Evaluation}
    (evaluated : (group connective operands).evaluate cs o = .ok e) :
    ∃ es, e = Evaluation.combine connective es ∧
      ∀ e' ∈ es, ∃ operand ∈ operands, operand.evaluate cs o = .ok e' := by
  rw [evaluate] at evaluated
  cases all : evaluateAll cs o operands with
  | error error =>
    rw [all] at evaluated
    cases evaluated
  | ok es =>
    rw [all] at evaluated
    cases evaluated
    exact ⟨es, rfl, evaluateAll_ok all⟩

/-! ## Rules from their conditions -/

section

variable {related : Evaluation → Evaluation → Prop} {cs ds : List Control} {o p : Option Nat}

theorem evaluateAll_alike {operands : List Rule}
    (each : ∀ operand ∈ operands, Alike related (operand.evaluate cs o) (operand.evaluate ds p)) :
    Alike (List.Forall₂ related) (evaluateAll cs o operands) (evaluateAll ds p operands) := by
  induction operands with
  | nil => exact .ok .nil
  | cons first rest ih =>
    have head := each first List.mem_cons_self
    have tail := ih fun operand member => each operand (List.mem_cons_of_mem _ member)
    simp only [evaluateAll]
    -- The first failure decides, so the tail is looked at only where the head succeeds.
    generalize first.evaluate cs o = x, first.evaluate ds p = y at head
    generalize evaluateAll cs o rest = xs, evaluateAll ds p rest = ys at tail
    cases head with
    | error e => exact .error e
    | ok head =>
      cases tail with
      | error e => exact .error e
      | ok tail => exact .ok (.cons head tail)

/-- If the conditions of a rule evaluate alike, and what is compared is kept by groups, then the
rule evaluates alike. -/
theorem evaluate_alike {rule : Rule} (empties : related Evaluation.empty Evaluation.empty)
    (groups : ∀ connective {es fs}, List.Forall₂ related es fs →
      related (Evaluation.combine connective es) (Evaluation.combine connective fs))
    (each : ∀ condition ∈ rule.conditions,
      Alike related (condition.evaluate cs o) (condition.evaluate ds p)) :
    Alike related (rule.evaluate cs o) (rule.evaluate ds p) := by
  induction rule with
  | empty => exact .ok empties
  | leaf condition =>
    simp only [evaluate]
    exact each condition (by simp only [conditions, List.mem_singleton])
  | group connective operands ih =>
    have all : Alike (List.Forall₂ related) (evaluateAll cs o operands)
        (evaluateAll ds p operands) := by
      apply evaluateAll_alike
      intro operand member
      apply ih operand member
      intro condition inside
      exact each condition (mem_conditions_group member inside)
    simp only [evaluate]
    generalize evaluateAll cs o operands = xs, evaluateAll ds p operands = ys at all
    cases all with
    | error e => exact .error e
    | ok all => exact .ok (groups connective all)

/-- A rule is a function of the evaluations of its conditions. -/
theorem evaluate_congr {rule : Rule}
    (each : ∀ condition ∈ rule.conditions, condition.evaluate cs o = condition.evaluate ds p) :
    rule.evaluate cs o = rule.evaluate ds p := by
  apply Alike.eq
  apply evaluate_alike rfl
  · intro connective es fs same
    rw [List.forall₂_eq_eq_eq] at same
    rw [same]
  · intro condition member
    exact .of_eq (each condition member)

theorem evaluateAll_mapError {operands : List Rule} {rename : EvalError → EvalError}
    (each : ∀ operand ∈ operands, operand.evaluate cs o = (operand.evaluate ds p).mapError rename) :
    evaluateAll cs o operands = (evaluateAll ds p operands).mapError rename := by
  induction operands with
  | nil => rfl
  | cons first rest ih =>
    have head := each first List.mem_cons_self
    have tail := ih fun operand member => each operand (List.mem_cons_of_mem _ member)
    simp only [evaluateAll, head, tail]
    cases first.evaluate ds p with
    | error e => rfl
    | ok head => cases evaluateAll ds p rest <;> rfl

/-- If the conditions of a rule fail with other errors and else come to the same, then so does the
rule. -/
theorem evaluate_mapError {rule : Rule} {rename : EvalError → EvalError}
    (each : ∀ condition ∈ rule.conditions,
      condition.evaluate cs o = (condition.evaluate ds p).mapError rename) :
    rule.evaluate cs o = (rule.evaluate ds p).mapError rename := by
  induction rule with
  | empty => rfl
  | leaf condition =>
    simp only [evaluate]
    exact each condition (by simp only [conditions, List.mem_singleton])
  | group connective operands ih =>
    have all : evaluateAll cs o operands = (evaluateAll ds p operands).mapError rename := by
      apply evaluateAll_mapError
      intro operand member
      apply ih operand member
      intro condition inside
      exact each condition (mem_conditions_group member inside)
    simp only [evaluate, all]
    cases evaluateAll ds p operands <;> rfl

/-- On behalf of a position, a rule reads the ids of the controls and the controls before it. -/
theorem evaluate_eq_of_before (rule : Rule) {n : Nat}
    (sameIds : cs.map Control.id = ds.map Control.id) (before : ∀ k < n, cs[k]? = ds[k]?) :
    rule.evaluate cs (some n) = rule.evaluate ds (some n) := by
  apply evaluate_congr
  intro condition _
  apply Alike.eq
  apply Condition.evaluate_alike sameIds
  intro k a b op _ earlier foundA foundB
  have same : some a = some b := by
    rw [← foundA, ← foundB]
    exact before k (earlier n rfl)
  rw [Option.some.inj same]

end

end Rule

end FormLogic
