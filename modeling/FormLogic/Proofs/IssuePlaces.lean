import FormLogic.Proofs.Checker
import FormLogic.Proofs.Following
import FormLogic.Spec.Document
import Mathlib.Data.List.Nodup

/-!
# Where issues point

The checker puts the place of an issue together while it goes through a definition; a definition is
written by other functions. The two keep step: in what a definition is written as, the path of an
issue leads to the field, the group or the condition at fault.
-/

namespace FormLogic

namespace Rule

/-! ## Places in written rules -/

theorem toJsonAll_getElem? {operands : List Rule} {k : Nat} {operand : Rule}
    (found : operands[k]? = some operand) : (toJsonAll operands)[k]? = some operand.toJson := by
  induction operands generalizing k with
  | nil => cases found
  | cons first rest ih =>
    cases k with
    | zero =>
      cases found
      rfl
    | succ k => exact ih found

/-- In a written group, the place of an operand leads to the written operand. -/
theorem follow?_operand {connective : Connective} {operands : List Rule} {k : Nat} {operand : Rule}
    (found : operands[k]? = some operand) (below : Json.Pointer) :
    (group connective operands).toJson.follow? (.name connective.name :: .index k :: below) =
      operand.toJson.follow? below := by
  have listed : (group connective operands).toJson.child? (.name connective.name) =
      some (.array (toJsonAll operands)) := by
    rw [toJson, Json.child?, Json.member?, List.find?_cons_of_pos (by simp), Option.map_some]
  rw [Json.follow?_cons, listed, Option.bind_some, Json.follow?_cons, Json.child?,
    toJsonAll_getElem? found, Option.bind_some]

/-- The place of a condition leads to the written condition. -/
theorem follow?_located {rule : Rule} {path : Json.Pointer} {c : Condition}
    (placed : (path, c) ∈ rule.located) : rule.toJson.follow? path = some c.toJson := by
  induction rule generalizing path with
  | empty => cases placed
  | leaf condition =>
    rw [located, List.mem_singleton] at placed
    cases placed
    rfl
  | group connective operands ih =>
    obtain ⟨k, operand, below, found, inOperand, rfl⟩ := mem_located_group.mp placed
    rw [follow?_operand found]
    exact ih operand (List.mem_of_getElem? found) inOperand

/-- No two conditions of a rule stand at one place. -/
theorem nodup_located (rule : Rule) : (rule.located.map Prod.fst).Nodup := by
  induction rule with
  | empty => exact List.nodup_nil
  | leaf condition => exact List.nodup_singleton _
  | group connective operands ih =>
    have all : ∀ position, ((locatedAll position operands).map Prod.fst).Nodup := by
      induction operands with
      | nil =>
        intro position
        exact List.nodup_nil
      | cons first rest ihRest =>
        intro position
        have head := ih first List.mem_cons_self
        have tail := ihRest (fun operand member => ih operand (List.mem_cons_of_mem _ member))
          (position + 1)
        rw [locatedAll, List.map_append, List.map_map, List.nodup_append]
        refine ⟨?_, tail, ?_⟩
        · have injective : Function.Injective (Json.Key.index position :: · : Json.Pointer → _) :=
            List.cons_injective
          have numbered := head.map injective
          rwa [List.map_map] at numbered
        · intro p inFirst q inRest
          obtain ⟨⟨below, c⟩, _, rfl⟩ := List.mem_map.mp inFirst
          obtain ⟨⟨place, d⟩, placed, rfl⟩ := List.mem_map.mp inRest
          obtain ⟨k, _, _, _, _, rfl⟩ :=
            (mem_numbered (fun _ => rfl) fun _ _ _ => rfl).mp placed
          intro equal
          have samePosition : position = position + 1 + k := by simpa using (List.cons.inj equal).1
          omega
    have named := (all 0).map (List.cons_injective (a := Json.Key.name connective.name))
    rw [located, List.map_map]
    rwa [List.map_map] at named

/-- A fault of a rule is that of a group without operands, or that of a condition at that place. -/
theorem ruleFaults_cases {s : FormSpec} {index : Nat} {rule : Rule} {path : Json.Pointer}
    {fault : Fault} (reported : (path, fault) ∈ Check.ruleFaults s index rule) :
    (∃ connective, fault = .emptyGroup connective ∧
      rule.toJson.follow? path = some (group connective []).toJson) ∨
    ∃ c, (path, c) ∈ rule.located ∧ fault ∈ Check.conditionFaults s index c := by
  induction rule generalizing path with
  | empty => cases reported
  | leaf condition =>
    obtain ⟨fault', faulty, same⟩ := List.mem_map.mp reported
    cases same
    exact .inr ⟨condition, List.mem_singleton.mpr rfl, faulty⟩
  | group connective operands ih =>
    rw [Check.ruleFaults, List.mem_append] at reported
    rcases reported with noOperands | inside
    · split at noOperands
      · next isEmpty =>
        cases List.mem_singleton.mp noOperands
        rw [List.isEmpty_iff] at isEmpty
        exact .inl ⟨connective, rfl, by rw [isEmpty, Json.follow?_nil]⟩
      · cases noOperands
    · obtain ⟨⟨below, fault'⟩, numbered, same⟩ := List.mem_map.mp inside
      cases same
      obtain ⟨k, operand, place, found, inOperand, rfl⟩ :=
        (mem_numbered (fun _ => rfl) fun _ _ _ => rfl).mp numbered
      rw [Nat.zero_add]
      rcases ih operand (List.mem_of_getElem? found) inOperand with
        ⟨inner, rfl, leads⟩ | ⟨c, placed, faulty⟩
      · exact .inl ⟨inner, rfl, by rw [follow?_operand found, leads]⟩
      · exact .inr ⟨c, mem_located_group.mpr ⟨k, operand, place, found, placed, rfl⟩, faulty⟩

theorem verbatim_name (connective : Connective) : (Json.Key.name connective.name).Verbatim := by
  cases connective <;> exact ⟨by decide, by decide⟩

theorem verbatim_of_ruleFaults {s : FormSpec} {index : Nat} {rule : Rule} {path : Json.Pointer}
    {fault : Fault} (reported : (path, fault) ∈ Check.ruleFaults s index rule) :
    ∀ key ∈ path, key.Verbatim := by
  induction rule generalizing path with
  | empty => cases reported
  | leaf condition =>
    obtain ⟨fault', _, same⟩ := List.mem_map.mp reported
    cases same
    intro key member
    cases List.mem_singleton.mp member
    exact ⟨by decide, by decide⟩
  | group connective operands ih =>
    rw [Check.ruleFaults, List.mem_append] at reported
    rcases reported with noOperands | inside
    · split at noOperands
      · cases List.mem_singleton.mp noOperands
        exact List.forall_mem_nil _
      · cases noOperands
    · obtain ⟨⟨below, fault'⟩, numbered, same⟩ := List.mem_map.mp inside
      cases same
      obtain ⟨k, operand, place, found, inOperand, rfl⟩ :=
        (mem_numbered (fun _ => rfl) fun _ _ _ => rfl).mp numbered
      rw [List.forall_mem_cons, List.forall_mem_cons]
      exact ⟨verbatim_name connective, Json.Key.verbatim_index _,
        ih operand (List.mem_of_getElem? found) inOperand⟩

theorem ruleFaults_not_isEmpty {s : FormSpec} {index : Nat} {rule : Rule}
    {x : Json.Pointer × Fault} (reported : x ∈ Check.ruleFaults s index rule) :
    rule.isEmpty = false := by
  cases rule with
  | empty => cases reported
  | leaf condition => rfl
  | group connective operands => rfl

end Rule

/-! ## Places in written definitions -/

theorem Field.child?_rule {f : Field} (nonempty : f.rule.isEmpty = false) :
    f.toJson.child? (.name "rule") = some f.rule.toJson := by
  unfold Field.toJson Json.child? Json.member? Json.optionalMember
  rw [nonempty]
  by_cases noChoices : f.choices.isEmpty = true
  · cases f.default? <;> simp [noChoices]
  · cases f.default? <;> simp [noChoices]

namespace FormSpec

variable {s : FormSpec} {index : Nat} {f : Field}

/-- The place of a field leads to the written field. -/
theorem follow?_fieldPath (found : s.fields[index]? = some f) :
    s.toJson.follow? (Check.fieldPath index) = some f.toJson := by
  have fields : s.toJson.child? (.name "fields") = some (.array (s.fields.map Field.toJson)) := by
    unfold toJson Json.child? Json.member? Json.optionalMember
    cases s.description? <;> simp
  rw [Check.fieldPath, Json.follow?_cons, fields, Option.bind_some, Json.follow?_cons, Json.child?,
    List.getElem?_map, found, Option.map_some, Option.bind_some, Json.follow?_nil]

/-- Below the place of a rule there is what stands in the written rule. -/
theorem follow?_rulePath (found : s.fields[index]? = some f) (nonempty : f.rule.isEmpty = false)
    (below : Json.Pointer) :
    s.toJson.follow? (Check.rulePath index ++ below) = f.rule.toJson.follow? below := by
  rw [Check.rulePath, List.append_assoc, Json.follow?_append, follow?_fieldPath found,
    Option.bind_some, List.singleton_append, Json.follow?_cons, Field.child?_rule nonempty,
    Option.bind_some]

end FormSpec

/-! ## Faults -/

namespace FormSpec

variable {s : FormSpec} {index : Nat} {f : Field} {id : String}

/-- The ids of the fields before a position. -/
def idsBefore (s : FormSpec) (index : Nat) : List String :=
  (s.fields.take index).map Field.id

theorem position?_eq_none_iff : s.position? id = none ↔ id ∉ s.fields.map Field.id := by
  rw [position?_eq_findIdx?, List.findIdx?_eq_none_iff]
  constructor
  · intro noOther member
    have different := noOther id member
    simp at different
  · intro missing other member
    rw [beq_eq_false_iff_ne]
    rintro rfl
    exact missing member

theorem getElem?_of_position? {position : Nat} (first : s.position? id = some position) :
    ∃ g, s.fields[position]? = some g ∧ g.id = id ∧ s.field? id = some g := by
  obtain ⟨bound, same, notBefore⟩ := List.findIdx?_eq_some_iff_getElem.mp first
  refine ⟨s.fields[position], List.getElem?_eq_getElem bound, eq_of_beq same, ?_⟩
  unfold field?
  rw [List.find?_eq_some_iff_getElem]
  exact ⟨same, position, bound, rfl, fun k before => by simpa using notBefore k before⟩

/-- The first field with an id stands before a position if one of those before it has the id. -/
theorem mem_idsBefore_iff :
    id ∈ s.idsBefore index ↔ ∃ position, s.position? id = some position ∧ position < index := by
  unfold idsBefore
  rw [List.mem_map]
  constructor
  · rintro ⟨g, early, rfl⟩
    obtain ⟨k, bound, same⟩ := List.getElem_of_mem early
    rw [List.getElem_take] at same
    rw [List.length_take] at bound
    cases first : s.position? g.id with
    | none =>
      rw [position?_eq_none_iff] at first
      exact absurd (List.mem_map_of_mem (List.mem_of_mem_take early)) first
    | some position =>
      refine ⟨position, rfl, ?_⟩
      obtain ⟨_, _, notBefore⟩ := List.findIdx?_eq_some_iff_getElem.mp first
      by_contra late
      have noneAtK := notBefore k (by omega)
      rw [same] at noneAtK
      simp at noneAtK
  · rintro ⟨position, first, early⟩
    obtain ⟨g, found, sameId, _⟩ := getElem?_of_position? first
    refine ⟨g, List.mem_of_getElem? (i := position) ?_, sameId⟩
    rw [List.getElem?_take_of_lt early, found]

/-- A field is reported as repeated if its id is that of a field before it. -/
theorem duplicateIssues_eq (found : s.fields[index]? = some f) :
    Check.duplicateIssues s f index =
      if f.id ∈ s.idsBefore index then [⟨f.id, Check.fieldPath index, .duplicateField⟩] else [] := by
  have known : f.id ∈ s.fields.map Field.id := List.mem_map_of_mem (List.mem_of_getElem? found)
  cases first : s.position? f.id with
  | none => exact absurd known (position?_eq_none_iff.mp first)
  | some position =>
    have notLater : position ≤ index := by
      obtain ⟨_, _, notBefore⟩ := List.findIdx?_eq_some_iff_getElem.mp first
      obtain ⟨bound, same⟩ := List.getElem?_eq_some_iff.mp found
      by_contra late
      have noneHere := notBefore index (by omega)
      rw [same] at noneHere
      simp at noneHere
    have early : f.id ∈ s.idsBefore index ↔ position ≠ index := by
      rw [mem_idsBefore_iff, first]
      simp only [Option.some.injEq, exists_eq_left']
      omega
    rw [Check.duplicateIssues, first]
    by_cases here : position = index
    · simp [here, early]
    · simp [here, early]

end FormSpec

namespace Check

/-- What it means for a condition in the rule of the field at a position to be at fault. -/
inductive AtFault (s : FormSpec) (index : Nat) (c : Condition) : Fault → Prop where
  | operator (unknown : Operator.ofId? c.operator = none) :
      AtFault s index c (.unknownOperator c.operator)
  | missing (nowhere : c.target ∉ s.fields.map Field.id) :
      AtFault s index c (.unresolvedTarget c.target)
  | late (known : c.target ∈ s.fields.map Field.id) (notBefore : c.target ∉ s.idsBefore index) :
      AtFault s index c (.forwardReference c.target)
  | kind {op : Operator} {target : Field} (known : Operator.ofId? c.operator = some op)
      (found : s.field? c.target = some target) (misfit : target.kind ∉ op.kinds) :
      AtFault s index c (.kindMismatch op target.kind c.target)
  | noLiteral {op : Operator} (known : Operator.ofId? c.operator = some op)
      (nothing : c.literal? = none) (needed : op.standsAlone = false) :
      AtFault s index c (.missingValue op)
  | choice {target : Field} {literal : Literal} {key : String}
      (found : s.field? c.target = some target) (offers : target.widget.hasChoices = true)
      (compared : c.literal? = some literal) (names : key ∈ literal.keys)
      (noOption : ∀ position < target.choices.length, choiceKey position ≠ key) :
      AtFault s index c (.unknownChoice key c.target)

theorem AtFault.of_targetFaults {s : FormSpec} {index : Nat} {c : Condition} {op : Operator}
    {target : Field} {fault : Fault} (known : Operator.ofId? c.operator = some op)
    (found : s.field? c.target = some target) (sameId : target.id = c.target)
    (faulty : fault ∈ targetFaults op c.literal? target) : AtFault s index c fault := by
  rw [targetFaults, List.mem_append, List.mem_append, sameId] at faulty
  rcases faulty with (inKind | inLiteral) | inChoices
  · split at inKind
    · cases inKind
    · next misfit =>
      cases List.mem_singleton.mp inKind
      refine .kind known found ?_
      simpa [Operator.appliesTo] using misfit
  · split at inLiteral
    · next needed =>
      cases List.mem_singleton.mp inLiteral
      simp only [Bool.and_eq_true, Option.isNone_iff_eq_none, Bool.not_eq_true'] at needed
      exact .noLiteral known needed.1 needed.2
    · cases inLiteral
  · split at inChoices
    · next offers =>
      obtain ⟨key, names, unknown⟩ := List.mem_filterMap.mp inChoices
      split at unknown
      · cases unknown
      · next noOption =>
        cases unknown
        cases compared : c.literal? with
        | none =>
          rw [compared] at names
          cases names
        | some literal =>
          rw [compared] at names
          refine .choice found offers compared names ?_
          simpa [Field.hasOption] using noOption
    · cases inChoices

/-- A condition that is reported on is at fault. -/
theorem AtFault.of_conditionFaults {s : FormSpec} {index : Nat} {c : Condition} {fault : Fault}
    (faulty : fault ∈ conditionFaults s index c) : AtFault s index c fault := by
  rw [conditionFaults, List.mem_append] at faulty
  rcases faulty with inOperator | inTarget
  · split at inOperator
    · next unknown =>
      cases List.mem_singleton.mp inOperator
      exact .operator (Option.isNone_iff_eq_none.mp unknown)
    · cases inOperator
  · cases first : s.position? c.target with
    | none =>
      rw [first] at inTarget
      cases List.mem_singleton.mp inTarget
      exact .missing (FormSpec.position?_eq_none_iff.mp first)
    | some position =>
      obtain ⟨target, there, sameId, found⟩ := FormSpec.getElem?_of_position? first
      simp only [first, there, List.mem_append] at inTarget
      rcases inTarget with inOrder | inComparison
      · split at inOrder
        · next late =>
          cases List.mem_singleton.mp inOrder
          refine .late ?_ ?_
          · rw [← sameId]
            exact List.mem_map_of_mem (List.mem_of_getElem? there)
          · rw [FormSpec.mem_idsBefore_iff]
            rintro ⟨other, sameFirst, early⟩
            rw [first, Option.some.injEq] at sameFirst
            omega
        · cases inOrder
      · cases known : Operator.ofId? c.operator with
        | none =>
          rw [known] at inComparison
          cases inComparison
        | some op =>
          rw [known] at inComparison
          exact .of_targetFaults known found sameId inComparison

/-- What an issue in the declaration of a field is about, by its place and its fault: the field, a
group without operands, or a condition. -/
inductive Marks (s : FormSpec) (index : Nat) (f : Field) : Json.Pointer → Fault → Json → Prop where
  | repeated (again : f.id ∈ s.idsBefore index) :
      Marks s index f (fieldPath index) .duplicateField f.toJson
  | noOperands {below : Json.Pointer} {connective : Connective} :
      Marks s index f (rulePath index ++ below) (.emptyGroup connective)
        (.object [(connective.name, .array [])])
  | condition {below : Json.Pointer} {c : Condition} {fault : Fault}
      (placed : (below, c) ∈ f.rule.located) (faulty : AtFault s index c fault) :
      Marks s index f (rulePath index ++ below) fault c.toJson

end Check

namespace FormSpec

variable {s : FormSpec}

theorem verbatim_fieldPath (index : Nat) : ∀ key ∈ Check.fieldPath index, key.Verbatim := by
  rw [Check.fieldPath, List.forall_mem_cons, List.forall_mem_singleton]
  exact ⟨⟨by decide, by decide⟩, Json.Key.verbatim_index index⟩

/-- The text of the place of an issue leads to what the issue is about. -/
theorem marked_of_mem_issues {issue : Issue} (reported : issue ∈ s.issues) :
    ∃ index f node, s.fields[index]? = some f ∧ issue.fieldId = f.id ∧
      s.toJson.followText? issue.path.text = some node ∧
      Check.Marks s index f issue.path issue.fault node := by
  rw [issues, List.mem_append, List.mem_flatMap, List.mem_flatMap] at reported
  rcases reported with ⟨⟨f, index⟩, there, inIds⟩ | ⟨⟨f, index⟩, there, inRule⟩
  · have found : s.fields[index]? = some f := List.mem_zipIdx_iff_getElem?.mp there
    simp only [duplicateIssues_eq found] at inIds
    split at inIds
    · next again =>
      cases List.mem_singleton.mp inIds
      exact ⟨index, f, f.toJson, found, rfl,
        Json.followText?_text (verbatim_fieldPath index) (follow?_fieldPath found), .repeated again⟩
    · cases inIds
  · have found : s.fields[index]? = some f := List.mem_zipIdx_iff_getElem?.mp there
    obtain ⟨⟨path, fault⟩, faulty, rfl⟩ := List.mem_map.mp inRule
    have samePath : Check.fieldPath index ++ .name "rule" :: path = Check.rulePath index ++ path := by
      rw [Check.rulePath, List.append_assoc, List.singleton_append]
    have verbatim : ∀ key ∈ Check.rulePath index ++ path, key.Verbatim := by
      rw [← samePath, List.forall_mem_append, List.forall_mem_cons]
      exact ⟨verbatim_fieldPath index, ⟨by decide, by decide⟩,
        Rule.verbatim_of_ruleFaults faulty⟩
    have leads {node : Json} (inWritten : f.rule.toJson.follow? path = some node) :
        s.toJson.followText? (Check.rulePath index ++ path : Json.Pointer).text = some node := by
      apply Json.followText?_text verbatim
      rw [follow?_rulePath found (Rule.ruleFaults_not_isEmpty faulty), inWritten]
    simp only [samePath]
    rcases Rule.ruleFaults_cases faulty with ⟨connective, rfl, group⟩ | ⟨c, placed, inCondition⟩
    · exact ⟨index, f, _, found, rfl, leads group, .noOperands⟩
    · exact ⟨index, f, c.toJson, found, rfl, leads (Rule.follow?_located placed),
        .condition placed (.of_conditionFaults inCondition)⟩

/-- The conditions of a form in order, each with its place in the written definition. -/
def places (s : FormSpec) : List (Json.Pointer × Condition) :=
  s.fields.zipIdx.flatMap fun (f, index) =>
    f.rule.located.map fun (path, c) => (Check.rulePath index ++ path, c)

theorem map_snd_places (s : FormSpec) :
    s.places.map Prod.snd = s.fields.flatMap (·.rule.conditions) := by
  have ofField : ∀ x : Field × Nat, (x.1.rule.located.map fun (path, c) =>
      (Check.rulePath x.2 ++ path, c)).map Prod.snd = x.1.rule.conditions := by
    intro x
    rw [List.map_map, ← Rule.map_snd_located]
    rfl
  calc s.places.map Prod.snd
      = s.fields.zipIdx.flatMap (·.1.rule.conditions) := by
        rw [places, List.map_flatMap]
        exact List.flatMap_congr fun x _ => ofField x
    _ = (s.fields.zipIdx.map Prod.fst).flatMap (·.rule.conditions) := by
        rw [List.flatMap_map]
    _ = s.fields.flatMap (·.rule.conditions) := by
        rw [List.zipIdx_map_fst]

theorem exists_of_mem_places {path : Json.Pointer} {c : Condition} (placed : (path, c) ∈ s.places) :
    ∃ index f below, s.fields[index]? = some f ∧ (below, c) ∈ f.rule.located ∧
      path = Check.rulePath index ++ below := by
  obtain ⟨⟨f, index⟩, there, inField⟩ := List.mem_flatMap.mp placed
  obtain ⟨⟨below, d⟩, inRule, same⟩ := List.mem_map.mp inField
  cases same
  exact ⟨index, f, below, List.mem_zipIdx_iff_getElem?.mp there, inRule, rfl⟩

/-- No two conditions of a form have places with one text. -/
theorem nodup_places (s : FormSpec) : (s.places.map fun x => x.1.text).Nodup := by
  have otherFields : s.fields.zipIdx.Pairwise fun x y => x.2 ≠ y.2 := by
    rw [← List.pairwise_map (f := Prod.snd) (R := (· ≠ ·)), List.zipIdx_map_snd]
    exact List.nodup_range'
  have distinct : (s.places.map Prod.fst).Nodup := by
    rw [places, List.map_flatMap, List.nodup_flatMap]
    constructor
    · rintro ⟨f, index⟩ _
      have inRule :=
        (Rule.nodup_located f.rule).map (List.append_right_injective (Check.rulePath index))
      rw [List.map_map] at inRule ⊢
      exact inRule
    · apply otherFields.imp
      rintro ⟨f, i⟩ ⟨g, j⟩ different path inF inG
      simp only [List.map_map, List.mem_map] at inF inG
      obtain ⟨⟨below, c⟩, _, rfl⟩ := inF
      obtain ⟨⟨below', d⟩, _, same⟩ := inG
      simp [Check.rulePath, Check.fieldPath] at same
      exact different same.1.symm
  have sameText : ∀ x ∈ s.places, ∀ y ∈ s.places, x.1.text = y.1.text → x.1 = y.1 := by
    rintro ⟨p, c⟩ placedP ⟨q, d⟩ placedQ same
    obtain ⟨_, _, _, _, inP, rfl⟩ := exists_of_mem_places placedP
    obtain ⟨_, _, _, _, inQ, rfl⟩ := exists_of_mem_places placedQ
    exact Json.Pointer.text_inj (Check.plain_place inP) (Check.plain_place inQ) same
  unfold List.Nodup at distinct ⊢
  rw [List.pairwise_map] at distinct ⊢
  apply distinct.imp_of_mem
  intro x y placedX placedY different same
  exact different (sameText x placedX y placedY same)

theorem fault_ne_duplicate {s : FormSpec} {f : Field} {index : Nat} {issue : Issue}
    (inRule : issue ∈ Check.ruleIssues s f index) : issue.fault ≠ .duplicateField := by
  obtain ⟨⟨path, fault⟩, faulty, rfl⟩ := List.mem_map.mp inRule
  rcases Rule.ruleFaults_cases faulty with ⟨connective, rfl, _⟩ | ⟨c, _, inCondition⟩
  · exact Fault.noConfusion
  · rintro rfl
    cases Check.AtFault.of_conditionFaults inCondition

/-- There is one issue for each field with the id of a field before it. -/
theorem filter_duplicates (s : FormSpec) :
    s.issues.filter (·.fault = .duplicateField) =
      (s.fields.zipIdx.filter fun (f, index) => f.id ∈ s.idsBefore index).map fun (f, index) =>
        ⟨f.id, Check.fieldPath index, .duplicateField⟩ := by
  have inRules : (s.fields.zipIdx.flatMap fun (f, index) => Check.ruleIssues s f index).filter
      (·.fault = .duplicateField) = [] := by
    rw [List.filter_eq_nil_iff]
    intro issue member
    obtain ⟨⟨f, index⟩, _, inRule⟩ := List.mem_flatMap.mp member
    simpa using fault_ne_duplicate inRule
  have inIds : ∀ declared : List (Field × Nat), (∀ x ∈ declared, s.fields[x.2]? = some x.1) →
      (declared.flatMap fun (f, index) => Check.duplicateIssues s f index).filter
        (·.fault = .duplicateField) =
      (declared.filter fun (f, index) => f.id ∈ s.idsBefore index).map fun (f, index) =>
        ⟨f.id, Check.fieldPath index, .duplicateField⟩ := by
    intro declared found
    induction declared with
    | nil => rfl
    | cons first rest ih =>
      obtain ⟨f, index⟩ := first
      rw [List.forall_mem_cons] at found
      obtain ⟨here, others⟩ := found
      rw [List.flatMap_cons, List.filter_append, ih others]
      simp only [duplicateIssues_eq here]
      by_cases again : f.id ∈ s.idsBefore index
      · simp [again]
      · simp [again]
  rw [issues, List.filter_append, inRules, List.append_nil]
  exact inIds s.fields.zipIdx fun x there => List.mem_zipIdx_iff_getElem?.mp there

end FormSpec

/-- Issues lead to faults. In what a form definition is written as, the text of the path of an issue
leads to what the issue is about: the field that is repeated, the group without operands, or the
condition at fault; and the field of the issue is the one at the position in the path. There is one
issue for each field with the id of a field before it. No two conditions have places with one
text. -/
theorem FormSpec.issues_lead_to_faults (s : FormSpec) :
    (∀ issue ∈ s.issues, ∃ index f node, s.fields[index]? = some f ∧ issue.fieldId = f.id ∧
      s.toJson.followText? issue.path.text = some node ∧
      Check.Marks s index f issue.path issue.fault node) ∧
    (s.issues.filter (·.fault = .duplicateField) =
      (s.fields.zipIdx.filter fun (f, index) => f.id ∈ s.idsBefore index).map fun (f, index) =>
        ⟨f.id, Check.fieldPath index, .duplicateField⟩) ∧
    s.places.map Prod.snd = s.fields.flatMap (·.rule.conditions) ∧
    (s.places.map fun x => x.1.text).Nodup :=
  ⟨fun _ => marked_of_mem_issues, filter_duplicates s, map_snd_places s, nodup_places s⟩

end FormLogic
