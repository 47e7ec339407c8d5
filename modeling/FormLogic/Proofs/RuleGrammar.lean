import FormLogic.Json.Pointer
import FormLogic.Proofs.RuleDocument

/-!
# The grammar of rule documents

Which JSON values describe rules is said by derivations (`Rule.Derivation`), one clause for each
layout. Reading a value is looking for its derivation, which is unique (`Rule.Derivation.unique`): no
value falls under two clauses. An empty rule stands in a rule only where `{}` or `[]` stands in the
document.
-/

namespace FormLogic

namespace Json

/-! ## Members by name -/

/-- What members hold under a name: nothing, or one value. -/
inductive Holds (members : List Member) (name : String) : Option Json → Prop where
  | nothing (absent : name ∉ members.map Prod.fst) : Holds members name none
  | one {before after : List Member} {value : Json}
      (split : members = before ++ (name, value) :: after)
      (notBefore : name ∉ before.map Prod.fst) (notAfter : name ∉ after.map Prod.fst) :
      Holds members name (some value)

theorem filter_name_eq_nil_iff {members : List Member} {name : String} :
    members.filter (·.1 == name) = [] ↔ name ∉ members.map Prod.fst := by
  rw [List.filter_eq_nil_iff, List.mem_map]
  constructor
  · rintro others ⟨member, inside, rfl⟩
    exact others member inside (by simp)
  · intro absent member inside same
    exact absent ⟨member, inside, by simpa using same⟩

theorem filter_name_eq_singleton_iff {members : List Member} {name name' : String} {value : Json} :
    members.filter (·.1 == name) = [(name', value)] ↔
      name' = name ∧ Holds members name (some value) := by
  constructor
  · intro only
    obtain ⟨before, after, split, others, same, rest⟩ := List.filter_eq_cons_iff.mp only
    have same : name' = name := by simpa using same
    subst same
    refine ⟨rfl, .one split ?_ (filter_name_eq_nil_iff.mp rest)⟩
    exact filter_name_eq_nil_iff.mp (List.filter_eq_nil_iff.mpr others)
  · rintro ⟨rfl, holds⟩
    cases holds with
    | one split notBefore notAfter =>
      rw [split, List.filter_append, filter_name_eq_nil_iff.mpr notBefore, List.nil_append,
        List.filter_cons_of_pos (by simp), filter_name_eq_nil_iff.mpr notAfter]

theorem onlyMember?_eq_some_iff {members : List Member} {name : String} {part : Option Json} :
    onlyMember? members name = some part ↔ Holds members name part := by
  rw [onlyMember?]
  constructor
  · intro found
    split at found
    · next none =>
      cases found
      exact .nothing (filter_name_eq_nil_iff.mp none)
    · next only =>
      cases found
      exact (filter_name_eq_singleton_iff.mp only).2
    · cases found
  · intro holds
    cases part with
    | none =>
      cases holds with
      | nothing absent => rw [filter_name_eq_nil_iff.mpr absent]
    | some value => rw [filter_name_eq_singleton_iff.mpr ⟨rfl, holds⟩]

theorem Holds.unique {members : List Member} {name : String} {part other : Option Json}
    (holds : Holds members name part) (holds' : Holds members name other) : part = other := by
  have read := onlyMember?_eq_some_iff.mpr holds
  rw [onlyMember?_eq_some_iff.mpr holds'] at read
  exact (Option.some.inj read).symm

/-- The parts of a record that is written as an object are what the object holds. -/
theorem record?_object_eq_some_iff {members : List Member} {names : List String}
    {parts : List (Option Json)} :
    (object members).record? names = some parts ↔ List.Forall₂ (Holds members) names parts := by
  rw [record?]
  induction names generalizing parts with
  | nil => simp [eq_comm]
  | cons name rest ih =>
    rw [List.mapM_cons]
    constructor
    · intro read
      obtain ⟨first, found, read⟩ := Option.bind_eq_some_iff.mp read
      obtain ⟨others, readRest, read⟩ := Option.bind_eq_some_iff.mp read
      cases read
      exact .cons (onlyMember?_eq_some_iff.mp found) (ih.mp readRest)
    · intro holds
      cases holds with
      | cons first others =>
        rw [onlyMember?_eq_some_iff.mpr first, ih.mpr others]
        rfl

theorem Holds.mem {members : List Member} {name : String} {value : Json}
    (holds : Holds members name (some value)) : (name, value) ∈ members := by
  cases holds with
  | one split _ _ =>
    rw [split]
    exact List.mem_append_right _ List.mem_cons_self

theorem Holds.member? {members : List Member} {name : String} {value : Json}
    (holds : Holds members name (some value)) : (object members).member? name = some value := by
  cases holds with
  | @one before after value split notBefore notAfter =>
    have skipped : before.find? (·.1 == name) = none := by
      rw [List.find?_eq_none]
      exact List.filter_eq_nil_iff.mp (filter_name_eq_nil_iff.mpr notBefore)
    rw [Json.member?, split, List.find?_append, skipped, Option.none_or,
      List.find?_cons_of_pos (by simp), Option.map_some]

theorem choice?_eq_some_iff {j : Json} {name : String} :
    j.choice? = some name ↔ j = .string name ∨ j = .object [(name, .null)] := by
  constructor
  · intro read
    unfold choice? at read
    split at read
    · cases read
      exact .inl rfl
    · cases read
      exact .inr rfl
    · cases read
  · rintro (rfl | rfl) <;> rfl

end Json

/-! ## Conditions -/

/-- What may stand in the place of a literal, and the literal that it is. -/
inductive Literal.Derives : Option Json → Option Literal → Prop where
  | absent : Derives none none
  | null : Derives (some .null) none
  | bool (value : Bool) : Derives (some (.bool value)) (some (.bool value))
  | number (n : Json.Number) : Derives (some (.number n)) (some (.number n.toDouble))
  | text (value : String) : Derives (some (.string value)) (some (.text value))
  | list (items : List String) :
      Derives (some (.array (items.map Json.string))) (some (.list items))

theorem Json.mapM_string?_eq_some_iff {items : List Json} {texts : List String} :
    items.mapM Json.string? = some texts ↔ items = texts.map Json.string := by
  constructor
  · intro read
    induction items generalizing texts with
    | nil =>
      cases read
      rfl
    | cons first rest ih =>
      rw [List.mapM_cons] at read
      obtain ⟨text, readFirst, read⟩ := Option.bind_eq_some_iff.mp read
      obtain ⟨others, readRest, read⟩ := Option.bind_eq_some_iff.mp read
      cases read
      rw [ih readRest, List.map_cons]
      cases first with
      | string value =>
        cases readFirst
        rfl
      | _ => cases readFirst
  · rintro rfl
    exact Literal.mapM_string? texts

theorem Literal.optional_eq_some_iff {part : Option Json} {literal? : Option Literal} :
    Json.optional Literal.ofJson? part = some literal? ↔ Literal.Derives part literal? := by
  constructor
  · intro read
    cases part with
    | none =>
      cases read
      exact .absent
    | some value =>
      cases value with
      | null =>
        cases read
        exact .null
      | bool value =>
        cases read
        exact .bool value
      | number n =>
        cases read
        exact .number n
      | string value =>
        cases read
        exact .text value
      | array items =>
        rw [Json.optional_of_ne_null (by simp)] at read
        obtain ⟨literal, readLiteral, rfl⟩ := Option.map_eq_some_iff.mp read
        obtain ⟨texts, readTexts, rfl⟩ := Option.map_eq_some_iff.mp readLiteral
        rw [Json.mapM_string?_eq_some_iff.mp readTexts]
        exact .list texts
      | object members => cases read
  · intro derives
    cases derives with
    | list items =>
      rw [Json.optional_of_ne_null (by simp)]
      exact congrArg (Option.map some) (Literal.ofJson?_ofStrings items)
    | _ => rfl

/-- The values that describe a condition: an object that holds an id and an operator and may hold a
literal, or an array of them in this order. -/
inductive Condition.Derives : Json → Condition → Prop where
  | members {members : List Json.Member} {target operator : String} {part : Option Json}
      {literal? : Option Literal} (holdsTarget : Json.Holds members "target" (some (.string target)))
      (holdsOperator : Json.Holds members "opr" (some (.string operator)))
      (holdsLiteral : Json.Holds members "val" part) (literal : Literal.Derives part literal?) :
      Derives (.object members) ⟨target, operator, literal?⟩
  | pair (target operator : String) :
      Derives (.array [.string target, .string operator]) ⟨target, operator, none⟩
  | triple (target operator : String) {value : Json} {literal? : Option Literal}
      (literal : Literal.Derives (some value) literal?) :
      Derives (.array [.string target, .string operator, value]) ⟨target, operator, literal?⟩

namespace Condition

/-- The parts of a condition, read one by one. -/
theorem ofJson?_eq_some_iff_parts {j : Json} {c : Condition} :
    ofJson? j = some c ↔
      ∃ part, j.record? members =
          some [some (.string c.target), some (.string c.operator), part] ∧
        Literal.Derives part c.literal? := by
  obtain ⟨target, operator, literal?⟩ := c
  rw [ofJson?]
  constructor
  · intro read
    obtain ⟨parts, record, read⟩ := Option.bind_eq_some_iff.mp read
    split at read
    · next first second part =>
      obtain ⟨_, readTarget, read⟩ := Option.bind_eq_some_iff.mp read
      obtain ⟨_, readOperator, read⟩ := Option.bind_eq_some_iff.mp read
      obtain ⟨_, readLiteral, read⟩ := Option.bind_eq_some_iff.mp read
      cases read
      have given : ∀ {part : Option Json} {text : String},
          Json.required Json.string? part = some text → part = some (.string text) := by
        intro part text read
        rcases part with _ | _ | _ | _ | _ | _ | _ <;> cases read
        rfl
      rw [given readTarget, given readOperator] at record
      exact ⟨part, record, Literal.optional_eq_some_iff.mp readLiteral⟩
    · cases read
  · rintro ⟨part, record, literal⟩
    rw [record]
    simp only [Option.bind_eq_bind, Option.bind_some, Json.required, Json.string?,
      Literal.optional_eq_some_iff.mpr literal]
    rfl

theorem ofJson?_eq_some_iff {j : Json} {c : Condition} : ofJson? j = some c ↔ Derives j c := by
  rw [ofJson?_eq_some_iff_parts]
  obtain ⟨target, operator, literal?⟩ := c
  constructor
  · rintro ⟨part, record, literal⟩
    cases j with
    | object given =>
      rw [Json.record?_object_eq_some_iff] at record
      rcases record with _ | ⟨holdsTarget, _ | ⟨holdsOperator, _ | ⟨holdsLiteral, _⟩⟩⟩
      exact .members holdsTarget holdsOperator holdsLiteral literal
    | array items =>
      rcases items with _ | ⟨first, _ | ⟨second, _ | ⟨third, _ | ⟨fourth, rest⟩⟩⟩⟩
      · cases record
      · cases record
      · cases record
        cases literal
        exact .pair target operator
      · cases record
        exact .triple target operator literal
      · rw [Json.record?, if_neg (by simp [members])] at record
        cases record
    | _ => cases record
  · intro derives
    cases derives with
    | @members given _ _ part _ holdsTarget holdsOperator holdsLiteral literal =>
      refine ⟨part, Json.record?_object_eq_some_iff.mpr ?_, literal⟩
      exact .cons holdsTarget (.cons holdsOperator (.cons holdsLiteral .nil))
    | pair => exact ⟨none, rfl, .absent⟩
    | triple target operator literal => exact ⟨_, rfl, literal⟩

end Condition

/-! ## Rules -/

namespace Rule

mutual

/-- How a JSON value describes a rule: as an object whose only member is a condition or a group, as
an object that holds the connective and the operands of a group under names of their own, or as an
empty object or array. -/
inductive Derivation : Json → Rule → Type where
  | entry {members : List Json.Member} {value : Json} {condition : Condition}
      (only : members = [("entry", value)]) (derives : Condition.Derives value condition) :
      Derivation (.object members) (.leaf condition)
  | tagged {members : List Json.Member} {connective : Connective} {items : List Json}
      {operands : List Rule} (only : members = [(connective.name, .array items)])
      (each : Derivations items operands) : Derivation (.object members) (.group connective operands)
  | grouped {members : List Json.Member} {connective : Connective} {name : Json}
      {items : List Json} {operands : List Rule}
      (holdsName : Json.Holds members "bool_opr" (some name))
      (named : name = .string connective.name ∨ name = .object [(connective.name, .null)])
      (holdsItems : Json.Holds members "subrules" (some (.array items)))
      (each : Derivations items operands) : Derivation (.object members) (.group connective operands)
  | emptyObject : Derivation (.object []) .empty
  | emptyArray : Derivation (.array []) .empty

/-- Derivations of rules from the items of an array, one for each. -/
inductive Derivations : List Json → List Rule → Type where
  | nil : Derivations [] []
  | cons {item : Json} {rule : Rule} {items : List Json} {rules : List Rule}
      (first : Derivation item rule) (rest : Derivations items rules) :
      Derivations (item :: items) (rule :: rules)

end

/-! ## At most one derivation -/

theorem name_inj {connective other : Connective} (same : connective.name = other.name) :
    connective = other := by
  have known := Connective.ofName?_eq_some_iff.mpr same
  rw [Connective.ofName?_eq_some_iff.mpr rfl] at known
  exact Option.some.inj known

theorem name_ne_entry (connective : Connective) : connective.name ≠ "entry" := by
  cases connective <;> decide

/-- A group under names of its own takes two members. -/
theorem not_grouped_of_single {members : List Json.Member} {name : String} {value first : Json}
    {second : Json} (only : members = [(name, value)])
    (holdsFirst : Json.Holds members "bool_opr" (some first))
    (holdsSecond : Json.Holds members "subrules" (some second)) : False := by
  have single : ∀ {text : String} {part : Json},
      Json.Holds members text (some part) → name = text := by
    intro text part holds
    have found := Json.onlyMember?_eq_some_iff.mpr holds
    by_contra other
    simp [only, Json.onlyMember?, other] at found
  have same := (single holdsFirst).symm.trans (single holdsSecond)
  exact absurd same (by decide)

theorem not_holds_nil {name : String} {value : Json}
    (holds : Json.Holds [] name (some value)) : False := by
  have found := Json.onlyMember?_eq_some_iff.mpr holds
  cases found

mutual

/-- A value has at most one derivation, and so describes at most one rule. -/
theorem Derivation.unique {j : Json} {rule other : Rule} :
    (d : Derivation j rule) → (e : Derivation j other) → rule = other ∧ HEq d e
  | .entry only derives, e => by
    cases e with
    | entry only' derives' =>
      cases only.symm.trans only'
      have read := Condition.ofJson?_eq_some_iff.mpr derives
      rw [Condition.ofJson?_eq_some_iff.mpr derives'] at read
      cases read
      exact ⟨rfl, HEq.rfl⟩
    | @tagged _ connective _ _ only' each' =>
      have same := only.symm.trans only'
      simp only [List.cons.injEq, Prod.mk.injEq] at same
      exact absurd same.1.1.symm (name_ne_entry connective)
    | grouped holdsName named holdsItems each' =>
      exact (not_grouped_of_single only holdsName holdsItems).elim
    | emptyObject => cases only
  | @Derivation.tagged _ connective _ _ only each, e => by
    cases e with
    | entry only' derives' =>
      have same := only.symm.trans only'
      simp only [List.cons.injEq, Prod.mk.injEq] at same
      exact absurd same.1.1 (name_ne_entry connective)
    | @tagged _ connective' _ _ only' each' =>
      have same := only.symm.trans only'
      simp only [List.cons.injEq, Prod.mk.injEq, Json.array.injEq, and_true] at same
      obtain ⟨sameName, rfl⟩ := same
      obtain rfl := name_inj sameName
      obtain ⟨rfl, sameEach⟩ := each.unique each'
      cases sameEach
      exact ⟨rfl, HEq.rfl⟩
    | grouped holdsName named holdsItems each' =>
      exact (not_grouped_of_single only holdsName holdsItems).elim
    | emptyObject => cases only
  | .grouped holdsName named holdsItems each, e => by
    cases e with
    | entry only' derives' => exact (not_grouped_of_single only' holdsName holdsItems).elim
    | tagged only' each' => exact (not_grouped_of_single only' holdsName holdsItems).elim
    | grouped holdsName' named' holdsItems' each' =>
      cases holdsName.unique holdsName'
      cases holdsItems.unique holdsItems'
      have read := Json.choice?_eq_some_iff.mpr named
      rw [Json.choice?_eq_some_iff.mpr named'] at read
      obtain rfl := name_inj (Option.some.inj read)
      obtain ⟨rfl, sameEach⟩ := each.unique each'
      cases sameEach
      exact ⟨rfl, HEq.rfl⟩
    | emptyObject => exact (not_holds_nil holdsName).elim
  | .emptyObject, e => by
    cases e with
    | entry only' derives' => cases only'
    | tagged only' each' => cases only'
    | grouped holdsName named holdsItems each' => exact (not_holds_nil holdsName).elim
    | emptyObject => exact ⟨rfl, HEq.rfl⟩
  | .emptyArray, e => by
    cases e
    exact ⟨rfl, HEq.rfl⟩

theorem Derivations.unique {items : List Json} {rules others : List Rule} :
    (d : Derivations items rules) → (e : Derivations items others) → rules = others ∧ HEq d e
  | .nil, .nil => ⟨rfl, HEq.rfl⟩
  | .cons first rest, .cons first' rest' => by
    obtain ⟨rfl, sameFirst⟩ := first.unique first'
    obtain ⟨rfl, sameRest⟩ := rest.unique rest'
    cases sameFirst
    cases sameRest
    exact ⟨rfl, HEq.rfl⟩

end

/-! ## Reading by the grammar -/

theorem operandsOfMembers_eq (members : List Json.Member) :
    operandsOfMembers members = members.map fun member => (member.1, operands? member.2) := by
  induction members with
  | nil => rfl
  | cons first rest ih => rw [operandsOfMembers, ih, List.map_cons]

/-- A group under names of its own: one holds the connective and the other the operands. -/
theorem ofGrouped?_eq_some_iff {members : List Json.Member} {rule : Rule} :
    ofGrouped? members (operandsOfMembers members) = some rule ↔
      ∃ name connective value rules, Json.Holds members "bool_opr" (some name) ∧
        name.choice? = some (Connective.name connective) ∧
        Json.Holds members "subrules" (some value) ∧ operands? value = some rules ∧
        rule = group connective rules := by
  have listed : (operandsOfMembers members).filter (·.1 == "subrules") =
      (members.filter (·.1 == "subrules")).map fun member => (member.1, operands? member.2) := by
    rw [operandsOfMembers_eq, List.filter_map]
    rfl
  rw [ofGrouped?, listed]
  constructor
  · intro read
    obtain ⟨part, foundName, read⟩ := Option.bind_eq_some_iff.mp read
    obtain ⟨text, chosen, read⟩ := Option.bind_eq_some_iff.mp read
    obtain ⟨name, present, chosen⟩ := Option.bind_eq_some_iff.mp chosen
    rw [present] at foundName
    split at read
    · next only =>
      obtain ⟨⟨n, value⟩, single, same⟩ := List.map_eq_singleton_iff.mp only
      cases same
      obtain ⟨connective, known, read⟩ := Option.bind_eq_some_iff.mp read
      obtain ⟨rules, readItems, read⟩ := Option.bind_eq_some_iff.mp read
      cases read
      rw [Connective.ofName?_eq_some_iff.mp known] at chosen
      exact ⟨name, connective, value, rules, Json.onlyMember?_eq_some_iff.mp foundName, chosen,
        (Json.filter_name_eq_singleton_iff.mp single).2, readItems, rfl⟩
    · cases read
  · rintro ⟨name, connective, value, rules, holdsName, chosen, holdsItems, readItems, rfl⟩
    have known : Connective.ofName? connective.name = some connective :=
      Connective.ofName?_eq_some_iff.mpr rfl
    rw [Json.onlyMember?_eq_some_iff.mpr holdsName,
      Json.filter_name_eq_singleton_iff.mpr ⟨rfl, holdsItems⟩]
    simp only [Option.bind_eq_bind, Option.bind_some, chosen, List.map_cons, List.map_nil, known,
      readItems]
    rfl

/-- An object whose members are more than one is read as a group under names of its own. -/
theorem ofJson?_members (first second : Json.Member) (rest : List Json.Member) :
    ofJson? (.object (first :: second :: rest)) =
      ofGrouped? (first :: second :: rest) (operandsOfMembers (first :: second :: rest)) := by
  rw [ofJson?]
  · rw [operandsOfMembers, operandsOfMembers, ofTagged?, Option.none_or]
    · simp
  · simp

mutual

/-- What is derived from a value is what is read from it. -/
theorem Derivation.read {j : Json} {rule : Rule} : Derivation j rule → ofJson? j = some rule
  | .entry only derives => by
    rw [only, ofJson?_member, if_pos rfl, Condition.ofJson?_eq_some_iff.mpr derives]
    rfl
  | .tagged only each => by
    rw [only, ofJson?_group, each.read]
    rfl
  | @Derivation.grouped members connective name items operands holdsName named holdsItems each => by
    have grouped : ofGrouped? members (operandsOfMembers members) =
        some (group connective operands) :=
      ofGrouped?_eq_some_iff.mpr ⟨name, connective, _, operands, holdsName,
        Json.choice?_eq_some_iff.mpr named, holdsItems, each.read, rfl⟩
    rcases members with _ | ⟨first, _ | ⟨second, rest⟩⟩
    · exact (not_holds_nil holdsName).elim
    · exact (not_grouped_of_single rfl holdsName holdsItems).elim
    · rw [ofJson?_members, grouped]
  | .emptyObject => rfl
  | .emptyArray => rfl

theorem Derivations.read {items : List Json} {rules : List Rule} :
    Derivations items rules → ofItems? items = some rules
  | .nil => rfl
  | .cons first rest => by
    rw [ofItems?_cons, first.read, Option.bind_some, rest.read]
    rfl

end

mutual

/-- What is read from a value can be derived from it. -/
theorem derivation_of_ofJson? {rule : Rule} :
    (j : Json) → ofJson? j = some rule → Nonempty (Derivation j rule)
  | .object [], read => by
    cases read
    exact ⟨.emptyObject⟩
  | .object [(name, value)], read => by
    rw [ofJson?_member] at read
    split at read
    · next entry =>
      subst entry
      obtain ⟨condition, readCondition, rfl⟩ := Option.map_eq_some_iff.mp read
      exact ⟨.entry rfl (Condition.ofJson?_eq_some_iff.mp readCondition)⟩
    · obtain ⟨connective, known, read⟩ := Option.bind_eq_some_iff.mp read
      obtain ⟨rules, readItems, rfl⟩ := Option.map_eq_some_iff.mp read
      obtain ⟨items, rfl, ⟨each⟩⟩ := derivations_of_operands? value readItems
      rw [Connective.ofName?_eq_some_iff.mp known]
      exact ⟨.tagged rfl each⟩
  | .object (first :: second :: rest), read => by
    rw [ofJson?_members] at read
    obtain ⟨name, connective, value, rules, holdsName, chosen, holdsItems, readItems, rfl⟩ :=
      ofGrouped?_eq_some_iff.mp read
    obtain ⟨items, rfl, ⟨each⟩⟩ :=
      derivations_of_members (first :: second :: rest) _ holdsItems.mem readItems
    exact ⟨.grouped holdsName (Json.choice?_eq_some_iff.mp chosen) holdsItems each⟩
  | .array [], read => by
    cases read
    exact ⟨.emptyArray⟩

theorem derivations_of_members {rules : List Rule} :
    (members : List Json.Member) → ∀ member ∈ members, operands? member.2 = some rules →
      ∃ items, member.2 = .array items ∧ Nonempty (Derivations items rules)
  | [] => List.forall_mem_nil _
  | (name, value) :: rest => by
    rw [List.forall_mem_cons]
    exact ⟨derivations_of_operands? value, derivations_of_members rest⟩

theorem derivations_of_operands? {rules : List Rule} :
    (j : Json) → operands? j = some rules →
      ∃ items, j = .array items ∧ Nonempty (Derivations items rules)
  | .array items, read => ⟨items, rfl, derivations_of_ofItems? items read⟩

theorem derivations_of_ofItems? {rules : List Rule} :
    (items : List Json) → ofItems? items = some rules → Nonempty (Derivations items rules)
  | [], read => by
    cases read
    exact ⟨.nil⟩
  | item :: rest, read => by
    rw [ofItems?_cons] at read
    obtain ⟨first, readFirst, read⟩ := Option.bind_eq_some_iff.mp read
    obtain ⟨others, readRest, rfl⟩ := Option.map_eq_some_iff.mp read
    obtain ⟨d⟩ := derivation_of_ofJson? item readFirst
    obtain ⟨ds⟩ := derivations_of_ofItems? rest readRest
    exact ⟨.cons d ds⟩

end

/-! ## Empty rules -/

/-- The operand of a rule at a path, which tells the position in each group on the way. -/
def operand? : Rule → List Nat → Option Rule
  | rule, [] => some rule
  | group _ operands, k :: path => operands[k]?.bind fun operand => operand.operand? path
  | empty, _ :: _ | leaf _, _ :: _ => none

/-- The places of a document where the operand at a path may stand. -/
inductive OperandPlace : List Nat → Json.Pointer → Prop where
  | here : OperandPlace [] []
  | under {name : String} {k : Nat} {path : List Nat} {place : Json.Pointer}
      (lists : name = "and" ∨ name = "or" ∨ name = "subrules") (rest : OperandPlace path place) :
      OperandPlace (k :: path) (.name name :: .index k :: place)

theorem Derivations.getElem? {items : List Json} {rules : List Rule} {rule : Rule} :
    Derivations items rules → ∀ k : Nat, rules[k]? = some rule →
      ∃ item, items[k]? = some item ∧ Nonempty (Derivation item rule)
  | .nil, _, found => by cases found
  | .cons first rest, 0, found => by
    cases found
    exact ⟨_, rfl, ⟨first⟩⟩
  | .cons first rest, k + 1, found => rest.getElem? k found

theorem Derivation.listed {j : Json} {connective : Connective} {operands : List Rule}
    (d : Derivation j (group connective operands)) :
    ∃ name items, (name = "and" ∨ name = "or" ∨ name = "subrules") ∧
      j.child? (.name name) = some (.array items) ∧ Nonempty (Derivations items operands) := by
  cases d with
  | @tagged members _ items _ only each =>
    have lists : connective.name = "and" ∨ connective.name = "or" ∨
        connective.name = "subrules" := by
      cases connective <;> decide
    refine ⟨connective.name, items, lists, ?_, ⟨each⟩⟩
    rw [only, Json.child?, Json.member?, List.find?_cons_of_pos (by simp), Option.map_some]
  | @grouped members _ _ items _ holdsName named holdsItems each =>
    exact ⟨"subrules", items, .inr (.inr rfl), holdsItems.member?, ⟨each⟩⟩

/-- Every operand of a rule is derived from what stands at its place in the document. -/
theorem Derivation.operand {j : Json} {rule operand : Rule} (d : Derivation j rule)
    {path : List Nat} (found : rule.operand? path = some operand) :
    ∃ place value, OperandPlace path place ∧ j.follow? place = some value ∧
      Nonempty (Derivation value operand) := by
  induction path generalizing j rule with
  | nil =>
    rw [operand?] at found
    cases found
    exact ⟨[], j, .here, rfl, ⟨d⟩⟩
  | cons k path ih =>
    cases rule with
    | empty => cases found
    | leaf condition => cases found
    | group connective operands =>
      rw [operand?] at found
      obtain ⟨inner, foundInner, found⟩ := Option.bind_eq_some_iff.mp found
      obtain ⟨name, items, lists, held, ⟨each⟩⟩ := d.listed
      obtain ⟨item, foundItem, ⟨derived⟩⟩ := each.getElem? k foundInner
      obtain ⟨place, value, stands, reached, derivedBelow⟩ := ih derived found
      refine ⟨.name name :: .index k :: place, value, .under lists stands, ?_, derivedBelow⟩
      rw [Json.follow?_cons, held, Option.bind_some, Json.follow?_cons, Json.child?, foundItem,
        Option.bind_some, reached]

/-- An empty rule is derived from nothing but an empty object or array. -/
theorem Derivation.ofEmpty {j : Json} (d : Derivation j empty) : j = .object [] ∨ j = .array [] := by
  cases d with
  | emptyObject => exact .inl rfl
  | emptyArray => exact .inr rfl

/-- Reading follows the grammar: a value is read as a rule if and only if the rule can be derived
from it, no value has two derivations, and all other values are refused. An empty rule, which always
holds, is read only where an empty object or array stands. -/
theorem ofJson?_follows_grammar (j : Json) :
    (∀ rule, ofJson? j = some rule ↔ Nonempty (Derivation j rule)) ∧
    (ofJson? j = none ↔ ∀ rule, IsEmpty (Derivation j rule)) ∧
    Subsingleton ((rule : Rule) × Derivation j rule) ∧
    ∀ rule path, ofJson? j = some rule → rule.operand? path = some empty →
      ∃ place, OperandPlace path place ∧
        (j.follow? place = some (.object []) ∨ j.follow? place = some (.array [])) := by
  have derivable : ∀ rule, ofJson? j = some rule ↔ Nonempty (Derivation j rule) :=
    fun rule => ⟨derivation_of_ofJson? j, fun ⟨d⟩ => d.read⟩
  refine ⟨derivable, ?_, ⟨?_⟩, ?_⟩
  · simp only [Option.eq_none_iff_forall_ne_some, ne_eq, derivable, not_nonempty_iff]
  · rintro ⟨rule, d⟩ ⟨other, e⟩
    obtain ⟨rfl, same⟩ := d.unique e
    cases same
    rfl
  · intro rule path read found
    obtain ⟨d⟩ := (derivable rule).mp read
    obtain ⟨place, value, stands, reached, ⟨derived⟩⟩ := d.operand found
    refine ⟨place, stands, ?_⟩
    rcases derived.ofEmpty with rfl | rfl
    · exact .inl reached
    · exact .inr reached

/-- A group with an operand that no rule is derived from is no empty rule, nor any other. -/
example : ofJson? (.object [("and", .array [.object [("note", .null)]])]) = none :=
  rfl

end Rule

end FormLogic
