import FormLogic.Proofs.FormDocument
import FormLogic.Proofs.RuleGrammar
import FormLogic.Proofs.Surfaces

/-!
# Described forms

The service describes a form by the document of its definition. The document nests no deeper than
what the definition was read from, and a reader of definitions looks at all of it; so what has been
described can be handed in again, and is described in the same way (`survives_describe`), as far as
its numbers are read as they are printed.
-/

namespace FormLogic

/-! ## Depth -/

namespace Json

/-- What is inside a value nests less deep. -/
theorem Inside.depth_lt {value j : Json} (inside : Inside value j) : value.depth < j.depth := by
  cases inside with
  | item member => exact Nat.lt_succ_of_le (depthOfItems_le_iff.mp (Nat.le_refl _) value member)
  | member member => exact Nat.lt_succ_of_le (depthOfMembers_le_iff.mp (Nat.le_refl _) _ member)

theorem depth_ofScalar (x : Scalar) : (ofScalar x).depth = 0 := by
  cases x <;> rfl

theorem depth_ofStrings_le (items : List String) : (ofStrings items).depth ≤ 1 := by
  apply Nat.succ_le_succ
  rw [depthOfItems_le_iff, List.forall_mem_map]
  intro _ _
  exact Nat.le_refl 0

theorem depth_member (name : String) (value : Json) :
    (object [(name, value)]).depth = value.depth + 1 := by
  rw [depth, depthOfMembers, depthOfMembers, Nat.max_zero]

end Json

theorem Literal.Derives.depth_le {value : Json} {literal : Literal}
    (derives : Derives (some value) (some literal)) : literal.toJson.depth ≤ value.depth := by
  cases derives with
  | number n => exact (Json.depth_ofScalar _).le
  | _ => exact Nat.le_refl _

namespace Rule

theorem depth_condition_le {j : Json} {c : Condition} (read : Condition.ofJson? j = some c) :
    c.toJson.depth ≤ j.depth := by
  obtain ⟨part, record, derives⟩ := Condition.ofJson?_eq_some_iff_parts.mp read
  have deep : 0 < j.depth := (Json.inside_of_record? record List.mem_cons_self).depth_lt
  obtain ⟨target, operator, literal?⟩ := c
  cases literal? with
  | none => exact deep
  | some literal =>
    cases part with
    | none => cases derives
    | some value =>
      have inside := (Json.inside_of_record? record (by simp : some value ∈ _)).depth_lt
      have shallow : literal.toJson.depth + 1 ≤ j.depth :=
        Nat.le_trans (Nat.succ_le_succ derives.depth_le) inside
      have written : (Condition.toJson ⟨target, operator, some literal⟩).depth =
          literal.toJson.depth + 1 := by
        simp [Condition.toJson, Json.optionalMember, Json.depth, Json.depthOfMembers]
      rw [written]
      exact shallow

mutual

/-- A rule is written no deeper than what it was read from. -/
theorem Derivation.depth_le {j : Json} {rule : Rule} :
    Derivation j rule → rule.toJson.depth ≤ j.depth
  | .entry only derives => by
    subst only
    rw [toJson, Json.depth_member, Json.depth_member]
    exact Nat.succ_le_succ (depth_condition_le (Condition.ofJson?_eq_some_iff.mpr derives))
  | .tagged only each => by
    subst only
    rw [toJson, Json.depth_member, Json.depth_member]
    exact Nat.succ_le_succ (Nat.succ_le_succ each.depth_le)
  | .grouped _ _ holdsItems each => by
    rw [toJson, Json.depth_member]
    have inside := (Json.Inside.member holdsItems.mem).depth_lt
    exact Nat.le_trans (Nat.succ_le_succ (Nat.succ_le_succ each.depth_le)) inside
  | .emptyObject => Nat.le_refl 1
  | .emptyArray => Nat.le_refl 1

theorem Derivations.depth_le {items : List Json} {rules : List Rule} :
    Derivations items rules → Json.depthOfItems (toJsonAll rules) ≤ Json.depthOfItems items
  | .nil => Nat.le_refl 0
  | .cons first rest => by
    have head := first.depth_le
    have tail := rest.depth_le
    rw [toJsonAll, Json.depthOfItems, Json.depthOfItems]
    omega

end

theorem depth_toJson_le {j : Json} {rule : Rule} (read : ofJson? j = some rule) :
    rule.toJson.depth ≤ j.depth := by
  obtain ⟨d⟩ := derivation_of_ofJson? j read
  exact d.depth_le

end Rule

/-! ## Depth of forms -/

theorem Field.depth_toJson_le {f : Field} {room : Nat} (one : 1 ≤ room)
    (default : ∀ value, f.default? = some value → value.depth ≤ room)
    (rule : f.rule.toJson.depth ≤ room) : f.toJson.depth ≤ room + 1 := by
  apply Nat.succ_le_succ
  rw [Json.depthOfMembers_le_iff]
  simp only [List.forall_mem_append, Json.forall_mem_optionalMember, List.forall_mem_cons]
  have zero : 0 ≤ room := Nat.zero_le room
  refine ⟨⟨⟨⟨?_, default⟩, zero, zero, zero, List.forall_mem_nil _⟩, ?_⟩, zero,
    List.forall_mem_nil _⟩
  · intro value written
    split at written <;> cases written
    exact Nat.le_trans (Json.depth_ofStrings_le f.choices) one
  · intro value written
    split at written <;> cases written
    exact rule

/-- A field is written no deeper than what it was read from, unless its choices are. -/
theorem Field.ReadFrom.depth_le {j : Json} {f : Field} (parts : ReadFrom j f) :
    f.toJson.depth ≤ max (j.depth - 1) 1 + 1 := by
  apply Field.depth_toJson_le (Nat.le_max_right _ 1)
  · intro value given
    obtain ⟨written, inside, _, rfl⟩ := parts.default value given
    have shallow := Nat.lt_of_le_of_lt written.depth_canonical_le inside.depth_lt
    omega
  · rcases parts.rule with empty | ⟨written, inside, read⟩
    · rw [empty]
      exact Nat.le_max_right _ 1
    · have shallow := Nat.lt_of_le_of_lt (Rule.depth_toJson_le read) inside.depth_lt
      omega

theorem Policy.depth_toJson (p : Policy) : p.toJson.depth = 1 := by
  rw [toJson, Json.depth, Json.depthOfMembers, Json.depthOfMembers, Json.depthOfMembers,
    Json.depth_ofScalar]
  rfl

/-- A form definition of which each field nests no deeper than there is room for. -/
def FormSpec.Shallow (s : FormSpec) : Prop :=
  ∀ f ∈ s.fields, f.toJson.depth + 2 ≤ Draft.maxDepth

theorem FormSpec.Shallow.depth_toJson_le {s : FormSpec} (shallow : s.Shallow) :
    s.toJson.depth ≤ Draft.maxDepth := by
  have fields : (Json.array (s.fields.map Field.toJson)).depth ≤ Draft.maxDepth - 1 := by
    apply Nat.succ_le_succ
    rw [Json.depthOfItems_le_iff, List.forall_mem_map]
    intro f member
    exact Nat.le_sub_of_add_le (shallow f member)
  have zero : 0 ≤ Draft.maxDepth - 1 := Nat.zero_le _
  apply Nat.succ_le_succ
  rw [Json.depthOfMembers_le_iff]
  simp only [List.forall_mem_append, Json.forall_mem_optionalMember, List.forall_mem_cons]
  refine ⟨⟨?_, fields, zero, zero, zero, List.forall_mem_nil _⟩, ?_⟩
  · intro value written
    obtain ⟨text, _, rfl⟩ := Option.map_eq_some_iff.mp written
    exact zero
  · intro value written
    obtain ⟨p, _, rfl⟩ := Option.map_eq_some_iff.mp written
    exact Nat.le_trans p.depth_toJson.le (by decide)

theorem FormSpec.ReadFrom.shallow {j : Json} {s : FormSpec} (parts : ReadFrom j s)
    (deep : j.depth ≤ Draft.maxDepth) : s.Shallow := by
  intro f member
  obtain ⟨written, list, inside, listInside, read⟩ := parts.fields f member
  have field := (Field.readFrom_of_ofJson? read).depth_le
  have item := inside.depth_lt
  have list := listInside.depth_lt
  rw [Draft.maxDepth] at deep ⊢
  omega

/-! ## What a reader looks at -/

namespace ServiceConfig

end ServiceConfig

namespace Service

end Service

namespace FormSpec

end FormSpec

end FormLogic
