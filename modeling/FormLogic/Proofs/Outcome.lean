import FormLogic.Form.Evaluation
import Mathlib.Data.List.Forall2

/-!
# Outcomes

What is said of computations that may fail. Two of them are compared by `Alike`, which leaves open
what is compared when both succeed: equality gives congruence, weaker relations give statements
about two runs.
-/

namespace FormLogic

namespace Outcome

theorem ok_bind {ε α β : Type} (a : α) (f : α → Except ε β) : Except.ok a >>= f = f a :=
  rfl

theorem bind_eq_ok_iff {ε α β : Type} {x : Except ε α} {f : α → Except ε β} {b : β} :
    x >>= f = .ok b ↔ ∃ a, x = .ok a ∧ f a = .ok b := by
  cases x with
  | error e =>
    constructor
    · intro impossible
      cases impossible
    · rintro ⟨a, impossible, _⟩
      cases impossible
  | ok a =>
    constructor
    · intro rest
      exact ⟨a, rfl, rest⟩
    · rintro ⟨_, same, rest⟩
      cases same
      exact rest

theorem bind_eq_error_iff {ε α β : Type} {x : Except ε α} {f : α → Except ε β} {e : ε} :
    x >>= f = .error e ↔ x = .error e ∨ ∃ a, x = .ok a ∧ f a = .error e := by
  cases x <;> simp [Bind.bind, Except.bind]

theorem map_eq_ok_iff {ε α β : Type} {x : Except ε α} {f : α → β} {b : β} :
    x.map f = .ok b ↔ ∃ a, x = .ok a ∧ f a = b := by
  cases x <;> simp [Except.map]

theorem map_eq_error_iff {ε α β : Type} {x : Except ε α} {f : α → β} {e : ε} :
    x.map f = .error e ↔ x = .error e := by
  cases x <;> simp [Except.map]

theorem mapError_eq_ok_iff {ε ε' α : Type} {x : Except ε α} {f : ε → ε'} {a : α} :
    x.mapError f = .ok a ↔ x = .ok a := by
  cases x <;> simp [Except.mapError]

theorem mapError_eq_error_iff {ε ε' α : Type} {x : Except ε α} {f : ε → ε'} {e' : ε'} :
    x.mapError f = .error e' ↔ ∃ e, x = .error e ∧ f e = e' := by
  cases x <;> simp [Except.mapError]

theorem isOk_iff {ε α : Type} {x : Except ε α} : x.isOk = true ↔ ∃ a, x = .ok a := by
  cases x <;> simp [Except.isOk, Except.toBool]

/-- An outcome whose errors are known is a success where there is none. -/
theorem exists_ok_iff {ε α : Type} {x : Except ε α} {error? : Option ε}
    (errors : ∀ e, x = .error e ↔ error? = some e) : (∃ a, x = .ok a) ↔ error? = none := by
  cases x with
  | error e => simp [(errors e).mp rfl]
  | ok a =>
    cases error? with
    | none => simp
    | some e => cases (errors e).mpr rfl

end Outcome

/-! ## Comparing two outcomes -/

/-- Two outcomes that fail with the same error, or succeed with related results. -/
inductive Alike {α β : Type} (related : α → β → Prop) :
    Except EvalError α → Except EvalError β → Prop where
  | error (e : EvalError) : Alike related (.error e) (.error e)
  | ok {a : α} {b : β} (results : related a b) : Alike related (.ok a) (.ok b)

namespace Alike

variable {α β : Type} {related : α → β → Prop} {x x' : Except EvalError α}
  {y : Except EvalError β}

theorem eq (alike : Alike Eq x x') : x = x' := by
  cases alike with
  | error e => rfl
  | ok results => rw [results]

theorem of_eq (equal : x = x') : Alike Eq x x' := by
  subst equal
  cases x with
  | error e => exact .error e
  | ok a => exact .ok rfl

theorem error_iff (alike : Alike related x y) (e : EvalError) : x = .error e ↔ y = .error e := by
  cases alike <;> simp

theorem exists_of_ok (alike : Alike related x y) {a : α} (succeeds : x = .ok a) :
    ∃ b, y = .ok b ∧ related a b := by
  cases alike with
  | error e => cases succeeds
  | ok results =>
    cases succeeds
    exact ⟨_, rfl, results⟩

end Alike

/-! ## The error of an outcome -/

/-- The error of an outcome that has one. -/
def errorOf? {α : Type} : Except EvalError α → Option EvalError
  | .ok _ => none
  | .error e => some e

theorem errorOf?_eq_some_iff {α : Type} {outcome : Except EvalError α} {e : EvalError} :
    errorOf? outcome = some e ↔ outcome = .error e := by
  cases outcome <;> simp [errorOf?]

theorem errorOf?_map {α β : Type} (f : α → β) (outcome : Except EvalError α) :
    errorOf? (outcome.map f) = errorOf? outcome := by
  cases outcome <;> rfl

end FormLogic
