import FormLogic.Check.Rules
import FormLogic.Proofs.Evaluation
import FormLogic.Proofs.PointerText
import Mathlib.Data.List.Nodup

/-!
# Places of conditions

The conditions of a rule with the places at which the checker reports on them. No two conditions
share a place, and the errors of a rule are those of its conditions, from left to right.
-/

namespace FormLogic

namespace Rule

mutual

/-- The conditions of a rule from left to right, each with its place below the rule. -/
def located : Rule → List (Json.Pointer × Condition)
  | empty => []
  | leaf condition => [([.name "entry"], condition)]
  | group connective operands =>
    (locatedAll 0 operands).map fun (path, condition) => (.name connective.name :: path, condition)

/-- The conditions of operands, of which the first stands at `position`. -/
def locatedAll (position : Nat) : List Rule → List (Json.Pointer × Condition)
  | [] => []
  | rule :: rest =>
    (located rule).map (fun (path, condition) => (.index position :: path, condition))
      ++ locatedAll (position + 1) rest

end

theorem map_snd_located (rule : Rule) : rule.located.map Prod.snd = rule.conditions := by
  induction rule with
  | empty => rfl
  | leaf condition => rfl
  | group connective operands ih =>
    have all : ∀ position, (locatedAll position operands).map Prod.snd =
        conditionsOfAll operands := by
      induction operands with
      | nil => intro position; rfl
      | cons first rest ihRest =>
        intro position
        have head := ih first List.mem_cons_self
        have tail := ihRest (fun operand member => ih operand (List.mem_cons_of_mem _ member))
          (position + 1)
        rw [locatedAll, conditionsOfAll, List.map_append, List.map_map, tail, ← head]
        rfl
    rw [located, conditions, List.map_map, ← all 0]
    rfl

/-- What is found in operands, with the place of the operand in front of it. -/
theorem mem_numbered {α : Type} {ofRule : Rule → List (Json.Pointer × α)}
    {ofAll : Nat → List Rule → List (Json.Pointer × α)} (nil : ∀ position, ofAll position [] = [])
    (cons : ∀ position rule rest, ofAll position (rule :: rest) =
      (ofRule rule).map (fun (path, x) => (.index position :: path, x))
        ++ ofAll (position + 1) rest)
    {operands : List Rule} {position : Nat} {path : Json.Pointer} {x : α} :
    (path, x) ∈ ofAll position operands ↔
      ∃ k operand below, operands[k]? = some operand ∧ (below, x) ∈ ofRule operand ∧
        path = .index (position + k) :: below := by
  induction operands generalizing position with
  | nil => simp [nil]
  | cons first rest ih =>
    rw [cons, List.mem_append, ih]
    constructor
    · rintro (inFirst | ⟨k, operand, below, found, inside, rfl⟩)
      · obtain ⟨⟨below, y⟩, inside, same⟩ := List.mem_map.mp inFirst
        cases same
        exact ⟨0, first, below, rfl, inside, rfl⟩
      · refine ⟨k + 1, operand, below, found, inside, ?_⟩
        rw [Nat.add_assoc, Nat.add_comm 1 k]
    · rintro ⟨k, operand, below, found, inside, rfl⟩
      cases k with
      | zero =>
        cases found
        exact .inl (List.mem_map.mpr ⟨(below, x), inside, rfl⟩)
      | succ k =>
        refine .inr ⟨k, operand, below, found, inside, ?_⟩
        rw [Nat.add_assoc, Nat.add_comm 1 k]

theorem mem_located_group {connective : Connective} {operands : List Rule} {path : Json.Pointer}
    {condition : Condition} :
    (path, condition) ∈ (group connective operands).located ↔
      ∃ k operand below, operands[k]? = some operand ∧ (below, condition) ∈ operand.located ∧
        path = .name connective.name :: .index k :: below := by
  rw [located, List.mem_map]
  constructor
  · rintro ⟨⟨path', c⟩, inside, same⟩
    cases same
    obtain ⟨k, operand, below, found, inOperand, rfl⟩ :=
      (mem_numbered (fun _ => rfl) fun _ _ _ => rfl).mp inside
    exact ⟨k, operand, below, found, inOperand, by rw [Nat.zero_add]⟩
  · rintro ⟨k, operand, below, found, inside, rfl⟩
    refine ⟨(.index k :: below, condition), ?_, rfl⟩
    apply (mem_numbered (fun _ => rfl) fun _ _ _ => rfl).mpr
    exact ⟨k, operand, below, found, inside, by rw [Nat.zero_add]⟩

theorem plain_name_connective (connective : Connective) :
    (Json.Key.name connective.name).Plain := by
  cases connective with
  | and => exact ⟨by decide, 'a', by decide, by decide⟩
  | or => exact ⟨by decide, 'o', by decide, by decide⟩

theorem plain_of_located {rule : Rule} {path : Json.Pointer} {condition : Condition}
    (inside : (path, condition) ∈ rule.located) : ∀ key ∈ path, key.Plain := by
  induction rule generalizing path with
  | empty => cases inside
  | leaf c =>
    rw [located, List.mem_singleton] at inside
    cases inside
    intro key member
    rw [List.mem_singleton] at member
    subst member
    exact ⟨by decide, 'e', by decide, by decide⟩
  | group connective operands ih =>
    obtain ⟨k, operand, below, found, inOperand, rfl⟩ := mem_located_group.mp inside
    rw [List.forall_mem_cons, List.forall_mem_cons]
    exact ⟨plain_name_connective connective, trivial,
      ih operand (List.mem_of_getElem? found) inOperand⟩

/-- At one place there is one condition. -/
theorem located_unique {rule : Rule} {path : Json.Pointer} {c d : Condition}
    (insideC : (path, c) ∈ rule.located) (insideD : (path, d) ∈ rule.located) : c = d := by
  induction rule generalizing path with
  | empty => cases insideC
  | leaf condition =>
    rw [located, List.mem_singleton] at insideC insideD
    cases insideC
    cases insideD
    rfl
  | group connective operands ih =>
    obtain ⟨k, operand, below, found, inOperand, rfl⟩ := mem_located_group.mp insideC
    obtain ⟨l, operand', below', found', inOperand', same⟩ := mem_located_group.mp insideD
    cases same
    rw [found] at found'
    cases found'
    exact ih operand (List.mem_of_getElem? found) inOperand inOperand'

end Rule

namespace Check

/-! ## Errors of conditions -/

/-- The errors among the faults of a condition. -/
def conditionErrors (s : FormSpec) (index : Nat) (c : Condition) : List Fault :=
  (conditionFaults s index c).filter (·.severity == .error)

theorem targetFaults_warn {op : Operator} {literal? : Option Literal} {target : Field}
    {fault : Fault} (member : fault ∈ targetFaults op literal? target) :
    fault.severity = .warning := by
  rw [targetFaults, List.mem_append, List.mem_append] at member
  rcases member with (member | member) | member
  · split at member
    · cases member
    · rw [List.mem_singleton.mp member]
      rfl
  · split at member
    · rw [List.mem_singleton.mp member]
      rfl
    · cases member
  · split at member
    · obtain ⟨key, _, unknown⟩ := List.mem_filterMap.mp member
      split at unknown
      · cases unknown
      · cases unknown
        rfl
    · cases member

theorem filter_targetFaults (op : Operator) (literal? : Option Literal) (target : Field) :
    (targetFaults op literal? target).filter (·.severity == .error) = [] := by
  rw [List.filter_eq_nil_iff]
  intro fault member
  rw [targetFaults_warn member]
  decide

/-- The errors of a condition: its operator may be unknown, its target may be missing or come too
late. -/
theorem conditionErrors_eq (s : FormSpec) (index : Nat) (c : Condition) :
    conditionErrors s index c =
      (if (Operator.ofId? c.operator).isNone then [.unknownOperator c.operator] else [])
        ++ match s.position? c.target with
          | none => [.unresolvedTarget c.target]
          | some position => if index ≤ position then [.forwardReference c.target] else [] := by
  rw [conditionErrors, conditionFaults, List.filter_append]
  congr 1
  · split <;> rfl
  · cases s.position? c.target with
    | none => rfl
    | some position =>
      have reference : (if index ≤ position then [Fault.forwardReference c.target] else []).filter
          (·.severity == .error) =
            if index ≤ position then [.forwardReference c.target] else [] := by
        split <;> rfl
      simp only [List.filter_append, reference]
      cases Operator.ofId? c.operator with
      | none => exact List.append_nil _
      | some op =>
        cases s.fields[position]? with
        | none => exact List.append_nil _
        | some target => rw [filter_targetFaults, List.append_nil]

/-! ## Errors of rules -/

/-- The errors of a rule are those of its conditions. -/
theorem mem_ruleFaults {s : FormSpec} {index : Nat} {rule : Rule} {path : Json.Pointer}
    {fault : Fault} (error : fault.severity = .error) :
    (path, fault) ∈ ruleFaults s index rule ↔
      ∃ c, (path, c) ∈ rule.located ∧ fault ∈ conditionErrors s index c := by
  induction rule generalizing path with
  | empty => simp [ruleFaults, Rule.located]
  | leaf condition => simp [ruleFaults, Rule.located, conditionErrors, error, and_comm, eq_comm]
  | group connective operands ih =>
    rw [ruleFaults, List.mem_append]
    constructor
    · rintro (noOperands | inside)
      · split at noOperands
        · cases List.mem_singleton.mp noOperands
          cases error
        · cases noOperands
      · obtain ⟨⟨_, _⟩, inside, same⟩ := List.mem_map.mp inside
        cases same
        obtain ⟨k, operand, below, found, inOperand, rfl⟩ :=
          (Rule.mem_numbered (fun _ => rfl) fun _ _ _ => rfl).mp inside
        obtain ⟨c, placed, faulty⟩ := (ih operand (List.mem_of_getElem? found)).mp inOperand
        refine ⟨c, Rule.mem_located_group.mpr ⟨k, operand, below, found, placed, ?_⟩, faulty⟩
        rw [Nat.zero_add]
    · rintro ⟨c, placed, faulty⟩
      obtain ⟨k, operand, below, found, inOperand, rfl⟩ := Rule.mem_located_group.mp placed
      refine .inr (List.mem_map.mpr ⟨(.index k :: below, fault), ?_, rfl⟩)
      apply (Rule.mem_numbered (fun _ => rfl) fun _ _ _ => rfl).mpr
      exact ⟨k, operand, below, found,
        (ih operand (List.mem_of_getElem? found)).mpr ⟨c, inOperand, faulty⟩, by rw [Nat.zero_add]⟩

end Check

end FormLogic
