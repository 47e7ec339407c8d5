import FormLogic.Proofs.Reachable
import Mathlib.Data.List.Perm.Basic
import Mathlib.Data.Option.NAry
import Mathlib.Logic.Relation

/-!
# Regrouping

Rules that differ in the order of operands, or in how groups of one kind are nested, decide and
indent alike (`regrouped_rules_decide_alike`). The reason is that both kinds of groups are sums:
what an operand brings into a group is added to what the others bring, and this addition is
associative and commutative. An inactive operand brings no indentation into a disjunction, and so
does a disjunction that is not active itself; that is why disjunctions can be nested without a
difference.
-/

namespace FormLogic

/-! ## Sums of operands -/

/-- What an evaluation decides, its words left aside. -/
structure Bearing where
  isActive : Bool
  indent : Nat
  deriving DecidableEq

namespace Bearing

/-- The bearing of a group without operands. -/
def neutral : Connective → Bearing
  | .and => ⟨true, 0⟩
  | .or => ⟨false, 0⟩

/-- What an operand brings into a group. -/
def operand (connective : Connective) (b : Bearing) : Bearing :=
  match connective with
  | .and => b
  | .or => ⟨b.isActive, if b.isActive then b.indent else 0⟩

def add (connective : Connective) (a b : Bearing) : Bearing where
  isActive := match connective with
    | .and => a.isActive && b.isActive
    | .or => a.isActive || b.isActive
  indent := max a.indent b.indent

variable (connective : Connective) (a b c : Bearing)

theorem add_comm : add connective a b = add connective b a := by
  cases connective
  · simp only [add, Bool.and_comm, Nat.max_comm]
  · simp only [add, Bool.or_comm, Nat.max_comm]

theorem add_assoc :
    add connective (add connective a b) c = add connective a (add connective b c) := by
  cases connective
  · simp only [add, Bool.and_assoc, Nat.max_assoc]
  · simp only [add, Bool.or_assoc, Nat.max_assoc]

theorem add_neutral : add connective a (neutral connective) = a := by
  cases connective <;> simp [add, neutral]

theorem operand_neutral : operand connective (neutral connective) = neutral connective := by
  cases connective <;> rfl

/-- What is brought into a disjunction is brought on unchanged: it indents only if it is active. -/
theorem operand_add :
    operand connective (add connective (operand connective a) (operand connective b)) =
      add connective (operand connective a) (operand connective b) := by
  cases connective with
  | and => rfl
  | or =>
    obtain ⟨active, indent⟩ := a
    obtain ⟨active', indent'⟩ := b
    cases active <;> cases active' <;> simp [operand, add]

end Bearing

namespace Evaluation

def bearing (e : Evaluation) : Bearing :=
  ⟨e.isActive, e.indent⟩

/-- A group adds what its first operand brings to what the others come to. -/
theorem bearing_combine_cons (connective : Connective) (e : Evaluation) (es : List Evaluation) :
    (combine connective (e :: es)).bearing =
      .add connective (.operand connective e.bearing) (combine connective es).bearing := by
  cases connective with
  | and => rfl
  | or =>
    cases active : e.isActive <;>
      simp [combine, bearing, Bearing.operand, Bearing.add, maxIndent, active]

end Evaluation

namespace Rule

variable (controls : List Control) (origin? : Option Nat)

/-- What a rule decides, if it can be evaluated. -/
def bearing? (rule : Rule) : Option Bearing :=
  (rule.evaluate controls origin?).toOption.map Evaluation.bearing

/-- What the operands of a group come to, if all of them can be evaluated. -/
def sum? (connective : Connective) : List Rule → Option Bearing
  | [] => some (.neutral connective)
  | rule :: rest =>
    Option.map₂ (.add connective) ((bearing? controls origin? rule).map (.operand connective))
      (sum? connective rest)

theorem map_evaluateAll (connective : Connective) (operands : List Rule) :
    ((evaluateAll controls origin? operands).map (.combine connective)).toOption.map
      Evaluation.bearing = sum? controls origin? connective operands := by
  induction operands with
  | nil => cases connective <;> rfl
  | cons first rest ih =>
    rw [sum?, ← ih, bearing?, evaluateAll]
    cases first.evaluate controls origin? with
    | error e => rfl
    | ok e =>
      cases evaluateAll controls origin? rest with
      | error e' => rfl
      | ok es => exact congrArg some (Evaluation.bearing_combine_cons connective e es)

theorem bearing?_group (connective : Connective) (operands : List Rule) :
    bearing? controls origin? (group connective operands) =
      sum? controls origin? connective operands := by
  rw [← map_evaluateAll, bearing?, evaluate]

variable {controls origin?}

/-- A group brings into another one of its kind what its operands bring into it. -/
theorem map_operand_sum? (connective : Connective) (operands : List Rule) :
    (sum? controls origin? connective operands).map (.operand connective) =
      sum? controls origin? connective operands := by
  induction operands with
  | nil => exact congrArg some (Bearing.operand_neutral connective)
  | cons first rest ih =>
    rw [sum?]
    cases bearing? controls origin? first with
    | none => rfl
    | some b =>
      cases others : sum? controls origin? connective rest with
      | none => rfl
      | some sum =>
        rw [others, Option.map_some, Option.some.injEq] at ih
        have brought := Bearing.operand_add connective b sum
        rw [ih] at brought
        exact congrArg some brought

theorem sum?_append (connective : Connective) (operands operands' : List Rule) :
    sum? controls origin? connective (operands ++ operands') =
      Option.map₂ (.add connective) (sum? controls origin? connective operands)
        (sum? controls origin? connective operands') := by
  induction operands with
  | nil =>
    have neutral : ∀ b, Bearing.add connective (.neutral connective) b = b := by
      intro b
      rw [Bearing.add_comm, Bearing.add_neutral]
    rw [List.nil_append, sum?]
    cases sum? controls origin? connective operands' with
    | none => rfl
    | some b => exact congrArg some (neutral b).symm
  | cons first rest ih =>
    rw [List.cons_append, sum?, sum?, ih, Option.map₂_assoc (Bearing.add_assoc connective)]

/-! ## Rules with the same operands -/

/-- One step from a rule to one with the same operands. A conjunction of a single rule is as good as
that rule; a disjunction of a single rule is not, as it does not indent while that rule is
inactive. -/
inductive Regroups : Rule → Rule → Prop where
  | permute {connective : Connective} {operands operands' : List Rule}
      (sameOperands : operands.Perm operands') :
      Regroups (group connective operands) (group connective operands')
  | splice {connective : Connective} {before operands after : List Rule} :
      Regroups (group connective (before ++ group connective operands :: after))
        (group connective (before ++ operands ++ after))
  | unwrap {rule : Rule} : Regroups (group .and [rule]) rule
  | inside {connective : Connective} {before after : List Rule} {rule rule' : Rule}
      (regroups : Regroups rule rule') :
      Regroups (group connective (before ++ rule :: after))
        (group connective (before ++ rule' :: after))

theorem sum?_perm (connective : Connective) {operands operands' : List Rule}
    (sameOperands : operands.Perm operands') :
    sum? controls origin? connective operands = sum? controls origin? connective operands' := by
  induction sameOperands with
  | nil => rfl
  | cons first _ ih => rw [sum?, sum?, ih]
  | swap first second rest =>
    have exchange : ∀ a b c, Bearing.add connective a (Bearing.add connective b c) =
        Bearing.add connective b (Bearing.add connective a c) := by
      intro a b c
      rw [← Bearing.add_assoc, Bearing.add_comm connective a b, Bearing.add_assoc]
    rw [sum?, sum?, sum?, sum?, Option.map₂_left_comm exchange]
  | trans _ _ ih ih' => exact ih.trans ih'

/-- By induction on the depth of the step. -/
theorem Regroups.bearing?_eq {rule rule' : Rule} (regroups : Regroups rule rule') :
    bearing? controls origin? rule = bearing? controls origin? rule' := by
  induction regroups with
  | permute sameOperands => rw [bearing?_group, bearing?_group, sum?_perm _ sameOperands]
  | @splice connective before operands after =>
    rw [bearing?_group, bearing?_group, sum?_append, sum?_append, sum?_append, sum?,
      bearing?_group, map_operand_sum?, Option.map₂_assoc (Bearing.add_assoc connective)]
  | @unwrap rule =>
    rw [bearing?_group, sum?, sum?]
    cases bearing? controls origin? rule with
    | none => rfl
    | some b => exact congrArg some (Bearing.add_neutral .and b)
  | inside _ ih => rw [bearing?_group, bearing?_group, sum?_append, sum?_append, sum?, sum?, ih]

theorem bearing?_eq_of_eqvGen {rule rule' : Rule}
    (regrouped : Relation.EqvGen Regroups rule rule') :
    bearing? controls origin? rule = bearing? controls origin? rule' := by
  induction regrouped with
  | rel _ _ regroups => exact regroups.bearing?_eq
  | refl _ => rfl
  | symm _ _ _ ih => exact ih.symm
  | trans _ _ _ _ _ ih ih' => exact ih.trans ih'

theorem bearing?_eq_some_iff {rule : Rule} {b : Bearing} :
    bearing? controls origin? rule = some b ↔
      ∃ e, rule.evaluate controls origin? = .ok e ∧ e.bearing = b := by
  rw [bearing?]
  cases rule.evaluate controls origin? <;> simp [Except.toOption]

/-- Rules that can be turned into one another by any number of steps of regrouping, forwards or
backwards and at any depth, can be evaluated in the same states and on behalf of the same fields;
and then they are active together and indent alike. -/
theorem regrouped_rules_decide_alike {rule rule' : Rule}
    (regrouped : Relation.EqvGen Regroups rule rule') (controls : List Control)
    (origin? : Option Nat) :
    ((∃ e, rule.evaluate controls origin? = .ok e) ↔
      ∃ e', rule'.evaluate controls origin? = .ok e') ∧
    ∀ e e', rule.evaluate controls origin? = .ok e → rule'.evaluate controls origin? = .ok e' →
      e'.isActive = e.isActive ∧ e'.indent = e.indent := by
  have same : bearing? controls origin? rule = bearing? controls origin? rule' :=
    bearing?_eq_of_eqvGen regrouped
  have decided : ∀ {rule : Rule} {e : Evaluation}, rule.evaluate controls origin? = .ok e →
      bearing? controls origin? rule = some e.bearing := fun evaluated =>
    bearing?_eq_some_iff.mpr ⟨_, evaluated, rfl⟩
  refine ⟨⟨?_, ?_⟩, ?_⟩
  · rintro ⟨e, evaluated⟩
    obtain ⟨e', evaluated', _⟩ := bearing?_eq_some_iff.mp (same.symm.trans (decided evaluated))
    exact ⟨e', evaluated'⟩
  · rintro ⟨e', evaluated'⟩
    obtain ⟨e, evaluated, _⟩ := bearing?_eq_some_iff.mp (same.trans (decided evaluated'))
    exact ⟨e, evaluated⟩
  · intro e e' evaluated evaluated'
    have sameBearing : e'.bearing = e.bearing := Option.some.inj <|
      (decided evaluated').symm.trans (same.symm.trans (decided evaluated))
    exact ⟨congrArg Bearing.isActive sameBearing, congrArg Bearing.indent sameBearing⟩

/-- For one who goes abroad, a rule that asks for a visa or for the journey itself, once with nested
groups and once without: both indent by the visa, which is itself two levels deep. -/
theorem travel_regrouped :
    let visa : Rule := .leaf ⟨"visa", "eq", some (.text "none")⟩
    let abroad : Rule := .leaf ⟨"abroad", "c", none⟩
    let nested : Rule := .group .or [.group .or [visa, .group .or []], .group .and [abroad]]
    let flat : Rule := .group .or [abroad, visa]
    Relation.EqvGen Regroups nested flat ∧
    ∃ s, FormState.ofAnswers FormSpec.travel (.object [("abroad", .bool true)]) = .ok s ∧
      ∃ e e', nested.evaluate s.refreshed.controls none = .ok e ∧
        flat.evaluate s.refreshed.controls none = .ok e' ∧
        e'.isActive = e.isActive ∧ e'.indent = e.indent ∧ e.isActive = true ∧ e.indent = 3 := by
  intro visa abroad nested flat
  have unwrapped : Regroups nested (.group .or [.group .or [visa, .group .or []], abroad]) :=
    @Regroups.inside .or [_] [] _ _ .unwrap
  have spliced : Regroups (.group .or [.group .or [visa, .group .or []], abroad])
      (.group .or [visa, .group .or [], abroad]) :=
    @Regroups.splice .or [] [visa, .group .or []] [abroad]
  have emptied : Regroups (.group .or [visa, .group .or [], abroad]) (.group .or [visa, abroad]) :=
    @Regroups.splice .or [visa] [] [abroad]
  have permuted : Regroups (.group .or [visa, abroad]) flat := .permute (.swap _ _ [])
  have regrouped : Relation.EqvGen Regroups nested flat :=
    ((Relation.EqvGen.rel _ _ unwrapped).trans _ _ _ (.rel _ _ spliced)).trans _ _ _
      ((Relation.EqvGen.rel _ _ emptied).trans _ _ _ (.rel _ _ permuted))
  obtain ⟨s, opened⟩ : ∃ s, FormState.ofAnswers FormSpec.travel
      (.object [("abroad", .bool true)]) = .ok s := ⟨_, rfl⟩
  obtain ⟨_, alike⟩ := regrouped_rules_decide_alike regrouped s.refreshed.controls none
  refine ⟨regrouped, s, opened, ?_⟩
  cases opened
  obtain ⟨active, indent⟩ := alike _ _ rfl rfl
  exact ⟨_, _, rfl, rfl, active, indent, by decide, by decide⟩

end Rule

end FormLogic
