import FormLogic.Proofs.Reachable
import Mathlib.Logic.Relation

/-!
# References between fields

A rule refers to the fields that its conditions are about. Only earlier fields can be referred to,
and an evaluation reads no others (`Rule.evaluate_eq_of_references`), so that what is answered in one
field can show in another only along a chain of references (`Field.DependsOn`).
-/

namespace FormLogic

namespace Field

/-- The rule of the field at position `i` has a condition on the field at an earlier position
`j`. -/
structure Refers (fields : List Field) (i j : Nat) : Prop where
  earlier : j < i
  condition : ∃ f g, fields[i]? = some f ∧ fields[j]? = some g ∧
    ∃ c ∈ f.rule.conditions, c.target = g.id

/-- One field refers to another, directly or through fields between them. -/
def DependsOn (fields : List Field) : Nat → Nat → Prop :=
  Relation.TransGen (Refers fields)

theorem DependsOn.lt {fields : List Field} {i k : Nat} (depends : DependsOn fields i k) :
    k < i := by
  induction depends with
  | single refers => exact refers.earlier
  | tail _ refers ih => exact Nat.lt_trans refers.earlier ih

/-- What a field refers to depends on nothing on which the field does not. -/
theorem Refers.independent {fields : List Field} {i j k : Nat} (refers : Refers fields i j)
    (independent : ¬ DependsOn fields i k) : j ≠ k ∧ ¬ DependsOn fields j k := by
  constructor
  · rintro rfl
    exact independent (.single refers)
  · exact fun depends => independent (.head refers depends)

end Field

/-! ## What a rule reads -/

section

variable {fields : List Field} {cs ds : List Control} {i : Nat} {f : Field}

/-- A condition in the rule of a field is on a field that is referred to. -/
theorem Control.refers_of_position? (sameFields : cs.map Control.field = fields)
    (found : fields[i]? = some f) {condition : Condition} (inside : condition ∈ f.rule.conditions)
    {j : Nat} (target : position? cs condition.target = some j) (before : j < i) :
    Field.Refers fields i j := by
  obtain ⟨d, foundD, sameId⟩ := getElem?_of_position? target
  refine ⟨before, f, d.field, found, ?_, condition, inside, sameId.symm⟩
  rw [← sameFields, List.getElem?_map, foundD, Option.map_some]

/-- On behalf of a field, a rule reads only the fields that it refers to. -/
theorem Rule.evaluate_eq_of_references (fieldsC : cs.map Control.field = fields)
    (fieldsD : ds.map Control.field = fields) (found : fields[i]? = some f)
    (agree : ∀ j, Field.Refers fields i j → cs[j]? = ds[j]?) :
    f.rule.evaluate cs (some i) = f.rule.evaluate ds (some i) := by
  have sameIds : cs.map Control.id = ds.map Control.id := by
    have mapped := congrArg (List.map Field.id) (fieldsC.trans fieldsD.symm)
    rwa [List.map_map, List.map_map] at mapped
  apply evaluate_congr
  intro condition inside
  apply Alike.eq
  apply Condition.evaluate_alike sameIds
  intro j a b op target earlier foundA foundB
  have refers := Control.refers_of_position? fieldsC found inside target (earlier i rfl)
  have same : some a = some b := by
    rw [← foundA, ← foundB, agree j refers]
  rw [Option.some.inj same]

end

/-! ## What an answer can show in -/

/-- How a control is shown, which a pass derives from its rule. -/
structure Appearance where
  active : Bool
  hidden : Bool
  required : Bool
  indent : Nat
  deriving DecidableEq

namespace Control

def appearance (c : Control) : Appearance :=
  ⟨c.active, c.hidden, c.required, c.indent⟩

theorem SameButAnswer.appearance_settle {c d : Control} (same : SameButAnswer c d)
    (result : Except EvalError Evaluation) :
    (c.settle result).appearance = (d.settle result).appearance := by
  obtain ⟨answer, rfl⟩ := same
  cases result <;> rfl

section

variable {fields : List Field} {before before' after after' : List Control} {k i : Nat}

/-- Two passes over controls that differ at one position: fields that do not depend on that position
come out the same, by induction on positions. -/
theorem Solves.eq_of_independent (solves : Solves before after) (solves' : Solves before' after')
    (fieldsA : after.map Control.field = fields) (fieldsB : after'.map Control.field = fields)
    (same : ∀ j, j ≠ k → before[j]? = before'[j]?) (other : i ≠ k)
    (independent : ¬ Field.DependsOn fields i k) : after[i]? = after'[i]? := by
  induction i using Nat.strongRecOn with
  | ind i earlier =>
    rw [solves.getElem? i, solves'.getElem? i, same i other]
    cases found : before'[i]? with
    | none => rfl
    | some c =>
      have foundField : fields[i]? = some c.field := by
        rw [← fieldsB, solves'.fields, List.getElem?_map, found, Option.map_some]
      have sameResult : c.field.rule.evaluate after (some i) =
          c.field.rule.evaluate after' (some i) := by
        apply Rule.evaluate_eq_of_references fieldsA fieldsB foundField
        intro j refers
        obtain ⟨otherJ, independentJ⟩ := refers.independent independent
        exact earlier j refers.earlier otherJ independentJ
      simp only [Option.map_some, settleAt, sameResult]

/-- The rule of a field that does not depend on the position comes to the same. -/
theorem Solves.evaluate_eq_of_independent (solves : Solves before after)
    (solves' : Solves before' after') (fieldsA : after.map Control.field = fields)
    (fieldsB : after'.map Control.field = fields)
    (same : ∀ j, j ≠ k → before[j]? = before'[j]?) (independent : ¬ Field.DependsOn fields i k)
    {f : Field} (found : fields[i]? = some f) :
    f.rule.evaluate after (some i) = f.rule.evaluate after' (some i) := by
  apply Rule.evaluate_eq_of_references fieldsA fieldsB found
  intro j refers
  obtain ⟨otherJ, independentJ⟩ := refers.independent independent
  exact solves.eq_of_independent solves' fieldsA fieldsB same otherJ independentJ

/-- A field that has been answered otherwise is shown in the same way if its rule comes to the
same. -/
theorem Solves.appearance_eq (solves : Solves before after) (solves' : Solves before' after')
    (answered : List.Forall₂ SameButAnswer before before')
    (sameResult : ∀ c, before[i]? = some c →
      c.field.rule.evaluate after (some i) = c.field.rule.evaluate after' (some i)) :
    after[i]?.map appearance = after'[i]?.map appearance := by
  rw [solves.getElem? i, solves'.getElem? i]
  cases foundD : before'[i]? with
  | none =>
    have beyond : before[i]? = none := by
      rw [List.getElem?_eq_none_iff] at foundD ⊢
      rwa [answered.length_eq]
    rw [beyond]
    rfl
  | some d =>
    obtain ⟨c, foundC, same⟩ := sameButAnswer_at answered foundD
    have sameRule : d.field.rule = c.field.rule := by
      obtain ⟨_, rfl⟩ := same
      rfl
    simp only [foundC, Option.map_some, settleAt, sameRule, sameResult c foundC,
      same.appearance_settle]

end

end Control

namespace FormState

/-- Whether passes over two states find or show something else for the field at a position. -/
def DiffersAt (s t : FormState) (i : Nat) : Prop :=
  s.refresh.2.fields[i]? ≠ t.refresh.2.fields[i]? ∨
    s.refreshed.controls[i]?.map Control.appearance ≠
      t.refreshed.controls[i]?.map Control.appearance

variable {spec : FormSpec} {s t : FormState} {k i : Nat}

/-- A field that does not depend on the one at a position comes out the same, whatever is answered
there. -/
theorem Kept.same_of_independent (keptS : Kept spec s) (keptT : Kept spec t)
    (same : ∀ j, j ≠ k → s.controls[j]? = t.controls[j]?)
    (answered : List.Forall₂ Control.SameButAnswer s.controls t.controls)
    (independent : ¬ Field.DependsOn spec.fields i k) : ¬ DiffersAt s t i := by
  have sameResult : ∀ f, spec.fields[i]? = some f →
      f.rule.evaluate s.refreshed.controls (some i) =
        f.rule.evaluate t.refreshed.controls (some i) := by
    intro f found
    exact s.refreshed_solves.evaluate_eq_of_independent t.refreshed_solves
      keptS.refreshed.fields keptT.refreshed.fields same independent found
  have sameReport : s.refresh.2.fields[i]? = t.refresh.2.fields[i]? := by
    rw [keptS.found, keptT.found]
    cases found : spec.fields[i]? with
    | none => rfl
    | some f => rw [Option.map_some, Option.map_some, sameResult f found]
  have sameAppearance : s.refreshed.controls[i]?.map Control.appearance =
      t.refreshed.controls[i]?.map Control.appearance := by
    apply s.refreshed_solves.appearance_eq t.refreshed_solves answered
    intro c found
    apply sameResult
    rw [← keptS.fields, List.getElem?_map, found, Option.map_some]
  rintro (report | appearance)
  · exact report sameReport
  · exact appearance sameAppearance

/-- Influence follows references. If another answer in one field makes a difference to what a pass
finds or shows for a field, then that field depends on the one with the answer; fields at or before
it are the same in any case. -/
theorem influence_follows_references {c : Control} (reached : Reachable spec s)
    (found : s.controls[k]? = some c) (answer : Answer) :
    ∃ t, s.setAnswer c.id answer = .ok t ∧
      t = { s with controls := s.controls.modify k ({ · with answer }) } ∧
      (∀ i, DiffersAt s t i → Field.DependsOn spec.fields i k) ∧
      ∀ i, i ≤ k → ¬ DiffersAt s t i := by
  have kept := reached.kept
  have there : s.position? c.id = some k := Control.position?_of_getElem? kept.distinct found
  have taken : s.setAnswer c.id answer =
      .ok { s with controls := s.controls.modify k ({ · with answer }) } := by
    rw [setAnswer_eq, there]
  have same : ∀ j, j ≠ k → s.controls[j]? = (s.controls.modify k ({ · with answer }))[j]? := by
    intro j other
    rw [List.getElem?_modify_ne _ _ (Ne.symm other)]
  have answered := Control.sameButAnswer_modify s.controls k answer
  have independent : ∀ i, ¬ Field.DependsOn spec.fields i k → ¬ DiffersAt s _ i := fun i =>
    kept.same_of_independent (kept.setAnswer taken) same answered
  refine ⟨_, taken, rfl, ?_, ?_⟩
  · intro i differs
    by_contra notDependent
    exact independent i notDependent differs
  · intro i notAfter
    exact independent i fun depends => Nat.not_lt.mpr notAfter depends.lt

/-- Whether one goes abroad makes a difference to the visa, though only by way of the country. -/
theorem travel_influence :
    ∃ s t, FormState.ofSpec FormSpec.travel = .ok s ∧
      s.setAnswer "abroad" (.checked true) = .ok t ∧ DiffersAt s t 2 ∧
      Field.DependsOn FormSpec.travel.fields 2 0 ∧ ¬ Field.Refers FormSpec.travel.fields 2 0 := by
  refine ⟨_, _, rfl, rfl, .inr (by decide), ?_, ?_⟩
  · obtain ⟨t, taken, _, follows, _⟩ :=
      @influence_follows_references FormSpec.travel _ 0 _ (.ofSpec rfl) rfl (.checked true)
    cases taken
    exact follows 2 (.inr (by decide))
  · rintro ⟨_, visa, abroad, foundVisa, foundAbroad, condition, inside, target⟩
    cases foundVisa
    cases foundAbroad
    rw [List.mem_singleton.mp inside] at target
    exact absurd target (by decide)

end FormState

end FormLogic
