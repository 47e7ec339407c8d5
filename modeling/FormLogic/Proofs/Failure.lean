import FormLogic.Proofs.Pass
import Mathlib.Data.List.ReduceOption

/-!
# Failures are static

Whether a rule fails does not depend on answers, and neither does the error with which it fails: it
is the error of the first faulty condition, and the faults of a condition can be read off the ids
of the form. A field with a faulty rule therefore fails in every pass.
-/

namespace FormLogic

/-- The fault of a condition in the rule of the field at position `n` of a form with some ids. -/
def Condition.failure? (ids : List String) (n : Nat) (c : Condition) : Option EvalError :=
  match ids.findIdx? (· == c.target) with
  | none => some (.unresolvedTarget c.target)
  | some k =>
    if n ≤ k then some (.forwardReference (ids[n]?.getD "") c.target)
    else if (Operator.ofId? c.operator).isNone then some (.unknownOperator c.operator)
    else none

/-- The fault of a rule is the one of its first faulty condition. -/
def Rule.failure? (ids : List String) (n : Nat) (rule : Rule) : Option EvalError :=
  rule.conditions.findSome? (Condition.failure? ids n)

theorem Condition.errorOf?_evaluate (controls : List Control) (n : Nat) (c : Condition) :
    errorOf? (c.evaluate controls (some n)) = c.failure? (controls.map Control.id) n := by
  simp only [evaluate, failure?, Control.resolve, Control.position?_eq_findIdx?]
  cases found : (controls.map Control.id).findIdx? (· == c.target) with
  | none => rfl
  | some k =>
    rw [← Control.position?_eq_findIdx?] at found
    obtain ⟨target, foundTarget, _⟩ := Control.getElem?_of_position? found
    simp only [foundTarget, List.getElem?_map]
    by_cases before : k < n
    · have notAfter : ¬ n ≤ k := Nat.not_le.mpr before
      simp only [before, notAfter, if_true, if_false]
      cases Operator.ofId? c.operator <;> rfl
    · have after : n ≤ k := Nat.not_lt.mp before
      simp only [before, after, if_true, if_false]
      rfl

namespace Rule

/-- Operands are evaluated from left to right, so the first failure counts. -/
theorem errorOf?_evaluateAll (controls : List Control) (o : Option Nat) (operands : List Rule) :
    errorOf? (evaluateAll controls o operands) =
      operands.findSome? fun operand => errorOf? (operand.evaluate controls o) := by
  induction operands with
  | nil => rfl
  | cons first rest ih =>
    rw [List.findSome?_cons, ← ih]
    simp only [evaluateAll]
    cases first.evaluate controls o with
    | error e => rfl
    | ok head => cases evaluateAll controls o rest <;> rfl

theorem errorOf?_evaluate (controls : List Control) (o : Option Nat) (rule : Rule) :
    errorOf? (rule.evaluate controls o) =
      rule.conditions.findSome? fun c => errorOf? (c.evaluate controls o) := by
  induction rule with
  | empty => rfl
  | leaf condition =>
    simp only [evaluate, conditions, List.findSome?_cons, List.findSome?_nil]
    cases errorOf? (condition.evaluate controls o) <;> rfl
  | group connective operands ih =>
    simp only [evaluate, conditions, errorOf?_map, errorOf?_evaluateAll]
    induction operands with
    | nil => rfl
    | cons first rest ihRest =>
      have others := ihRest fun operand member => ih operand (List.mem_cons_of_mem _ member)
      rw [List.findSome?_cons, conditionsOfAll, List.findSome?_append,
        ih first List.mem_cons_self, others]
      cases first.conditions.findSome? fun c => errorOf? (c.evaluate controls o) <;> rfl

/-- A rule fails as its fault says, whatever the controls hold and show. -/
theorem errorOf?_evaluate_some (controls : List Control) (n : Nat) (rule : Rule) :
    errorOf? (rule.evaluate controls (some n)) = rule.failure? (controls.map Control.id) n := by
  rw [errorOf?_evaluate, failure?]
  congr 1
  funext c
  exact c.errorOf?_evaluate controls n

end Rule

/-- The fields that fail in every pass over a form, and why. -/
def Field.failures (fields : List Field) : List (String × EvalError) :=
  (fields.mapIdx fun k f =>
    (f.rule.failure? (fields.map Field.id) k).map (f.id, ·)).reduceOption

theorem Report.failures_eq (r : Report) :
    r.failures = (r.fields.map fun f => (errorOf? f.outcome).map (f.id, ·)).reduceOption := by
  rw [List.reduceOption, List.filterMap_map, Report.failures]
  congr 1
  funext f
  simp only [Function.comp_apply, id_eq]
  cases f.outcome <;> rfl

/-- The failures of a pass are those of the fields, whatever has been answered and shown. -/
theorem FormState.failures_refresh (s : FormState) :
    s.refresh.2.failures = Field.failures (s.controls.map Control.field) := by
  have sameIds : s.refreshed.controls.map Control.id =
      (s.controls.map Control.field).map Field.id := by
    rw [s.refreshed_solves.ids, List.map_map]
    rfl
  rw [Report.failures_eq, refresh_report, Field.failures, ← sameIds]
  congr 1
  apply List.ext_getElem?
  intro k
  simp only [List.getElem?_map, List.getElem?_mapIdx, Option.map_map]
  congr 1
  funext c
  simp only [Function.comp_apply, Control.outcomeAt, Control.outcome, Rule.errorOf?_evaluate_some]
  rfl

end FormLogic
