import FormLogic.Proofs.Evaluation
import FormLogic.Proofs.JsonNumbers
import FormLogic.Rule.Document

/-!
# Rules and their documents

A rule is read from any of several layouts and written in one. What is written is read as the rule
again, as long as its number literals are finite; and they are in every rule that is read.
-/

namespace FormLogic

theorem Json.optional_of_ne_null {α : Type} {decode : Json → Option α} {value : Json}
    (present : value ≠ .null) : Json.optional decode (some value) = (decode value).map some := by
  cases value with
  | null => exact absurd rfl present
  | _ => rfl

/-- What is read of an optional part is read of a value that is not null. -/
theorem Json.exists_of_optional {α : Type} {decode : Json → Option α} {part : Option Json} {a : α}
    (read : Json.optional decode part = some (some a)) :
    ∃ value, part = some value ∧ value ≠ .null ∧ decode value = some a := by
  cases part with
  | none => cases read
  | some value =>
    by_cases null : value = .null
    · subst null
      cases read
    · rw [Json.optional_of_ne_null null] at read
      obtain ⟨_, decoded, same⟩ := Option.map_eq_some_iff.mp read
      cases same
      exact ⟨value, rfl, null, decoded⟩

/-! ## Literals -/

namespace Literal

/-- Whether the literal is something else than an infinity or no number at all. -/
def isFinite : Literal → Bool
  | number value => value.isFinite
  | bool _ | text _ | list _ => true

/-- The values that a literal is written as. -/
inductive Written : Json → Prop where
  | bool (value : Bool) : Written (.bool value)
  | number (value : FiniteScalar) : Written (.number (.floating value))
  | text (value : String) : Written (.string value)
  | list (items : List String) : Written (.ofStrings items)

theorem mapM_string? (items : List String) :
    (items.map Json.string).mapM Json.string? = some items := by
  induction items with
  | nil => rfl
  | cons first rest ih =>
    rw [List.map_cons, List.mapM_cons, ih]
    rfl

theorem ofJson?_ofStrings (items : List String) :
    ofJson? (Json.ofStrings items) = some (list items) := by
  have read : (Json.ofStrings items).strings? = some items := mapM_string? items
  rw [Json.ofStrings, ofJson?, ← Json.ofStrings, read, Option.map_some]

/-- A literal is read again from what it is written as, and something else than null is written, if
and only if it is finite. -/
theorem optional_toJson (literal : Literal) :
    Json.optional ofJson? (some literal.toJson) =
      some (if literal.isFinite then some literal else none) := by
  cases literal with
  | bool value => rfl
  | number value => cases value <;> rfl
  | text value => rfl
  | list items => exact congrArg (Option.map some) (ofJson?_ofStrings items)

theorem written_toJson {literal : Literal} (finite : literal.isFinite = true) :
    Written literal.toJson := by
  cases literal with
  | bool value => exact .bool value
  | number value =>
    obtain ⟨x, rfl⟩ := Scalar.isFinite_iff.mp finite
    exact .number x
  | text value => exact .text value
  | list items => exact .list items

theorem isFinite_of_ofJson? {j : Json} {literal : Literal} (fits : j.Fits)
    (read : ofJson? j = some literal) : literal.isFinite = true := by
  cases j with
  | number n =>
    cases read
    cases fits with
    | number fits => exact fits.isFinite_toDouble
  | array items =>
    obtain ⟨texts, _, rfl⟩ := Option.map_eq_some_iff.mp read
    rfl
  | _ =>
    cases read
    try rfl

theorem all_isFinite_of_optional {part : Option Json} {literal? : Option Literal}
    (fits : ∀ value, part = some value → value.Fits)
    (read : Json.optional ofJson? part = some literal?) : literal?.all isFinite = true := by
  cases literal? with
  | none => rfl
  | some literal =>
    obtain ⟨value, present, _, decoded⟩ := Json.exists_of_optional read
    exact isFinite_of_ofJson? (fits value present) decoded

end Literal

/-! ## Conditions -/

namespace Condition

/-- Whether the condition compares with no infinity and with nothing that is not a number. -/
def isFinite (c : Condition) : Bool :=
  c.literal?.all Literal.isFinite

theorem record?_toJson (c : Condition) :
    c.toJson.record? members =
      some [some (.string c.target), some (.string c.operator), c.literal?.map Literal.toJson] := by
  obtain ⟨target, operator, literal?⟩ := c
  cases literal? <;> rfl

/-- A condition is read again from what it is written as; only an infinity or what is not a number
gets lost. -/
theorem ofJson?_toJson (c : Condition) :
    ofJson? c.toJson = some { c with literal? := c.literal?.filter Literal.isFinite } := by
  rw [ofJson?, record?_toJson]
  obtain ⟨target, operator, literal?⟩ := c
  cases literal? with
  | none => rfl
  | some literal =>
    have read := literal.optional_toJson
    simp only [Option.map_some, Option.bind_eq_bind, Option.bind_some, Json.required, Json.string?,
      read, Option.filter_some]
    rfl

theorem ofJson?_toJson_iff {c : Condition} : ofJson? c.toJson = some c ↔ c.isFinite = true := by
  rw [ofJson?_toJson, Option.some.injEq]
  obtain ⟨target, operator, literal?⟩ := c
  rw [Condition.mk.injEq, isFinite]
  cases literal? with
  | none => simp
  | some literal => simp [Option.filter_some]

theorem isFinite_of_ofJson? {j : Json} {c : Condition} (fits : j.Fits) (read : ofJson? j = some c) :
    c.isFinite = true := by
  rw [ofJson?] at read
  obtain ⟨parts, record, read⟩ := Option.bind_eq_some_iff.mp read
  split at read
  · next _ target operator literal =>
    obtain ⟨_, _, read⟩ := Option.bind_eq_some_iff.mp read
    obtain ⟨_, _, read⟩ := Option.bind_eq_some_iff.mp read
    obtain ⟨literal?, readLiteral, read⟩ := Option.bind_eq_some_iff.mp read
    cases read
    apply Literal.all_isFinite_of_optional _ readLiteral
    rintro value rfl
    exact Json.fits_of_record? fits record value (by simp)
  · cases read

end Condition

namespace Rule

/-! ## Writing -/

/-- A rule without a condition that compares with an infinity or with what is not a number. -/
def Finite (rule : Rule) : Prop :=
  ∀ c ∈ rule.conditions, c.isFinite = true

theorem finite_empty : empty.Finite :=
  List.forall_mem_nil _

theorem finite_leaf {condition : Condition} :
    (leaf condition).Finite ↔ condition.isFinite = true := by
  simp [Finite, conditions]

theorem finite_group {connective : Connective} {operands : List Rule} :
    (group connective operands).Finite ↔ ∀ operand ∈ operands, operand.Finite := by
  simp only [Finite, conditions, conditionsOfAll_eq_flatMap, List.mem_flatMap]
  constructor
  · intro finite operand member c inside
    exact finite c ⟨operand, member, inside⟩
  · rintro finite c ⟨operand, member, inside⟩
    exact finite operand member c inside

/-- The values that rules are written as. -/
inductive Written : Json → Prop where
  | empty : Written (.object [])
  | entry (target operator : String) :
      Written (.object [("entry", .object [("opr", .string operator), ("target", .string target)])])
  | comparison (target operator : String) {value : Json} (literal : Literal.Written value) :
      Written (.object [("entry",
        .object [("opr", .string operator), ("target", .string target), ("val", value)])])
  | and {operands : List Json} (each : ∀ operand ∈ operands, Written operand) :
      Written (.object [("and", .array operands)])
  | or {operands : List Json} (each : ∀ operand ∈ operands, Written operand) :
      Written (.object [("or", .array operands)])

theorem toJsonAll_eq (operands : List Rule) : toJsonAll operands = operands.map toJson := by
  induction operands with
  | nil => rfl
  | cons first rest ih => rw [toJsonAll, ih, List.map_cons]

theorem written_toJson {rule : Rule} (finite : rule.Finite) : Written rule.toJson := by
  induction rule with
  | empty => exact .empty
  | leaf condition =>
    obtain ⟨target, operator, literal?⟩ := condition
    cases literal? with
    | none => exact .entry target operator
    | some literal =>
      have finiteLiteral : literal.isFinite = true := finite_leaf.mp finite
      exact .comparison target operator (Literal.written_toJson finiteLiteral)
  | group connective operands ih =>
    have each : ∀ operand ∈ operands.map toJson, Written operand := by
      rw [List.forall_mem_map]
      intro operand member
      exact ih operand member (finite_group.mp finite operand member)
    rw [toJson, toJsonAll_eq]
    cases connective with
    | and => exact .and each
    | or => exact .or each

/-! ## Reading what is written -/

/-- An object with a single member names no group in the other layout, which takes two. -/
theorem ofGrouped?_member (name : String) (value : Json) :
    ofGrouped? [(name, value)] (operandsOfMembers [(name, value)]) = none := by
  by_cases connective : name = "bool_opr"
  · subst connective
    rw [ofGrouped?]
    simp [Json.onlyMember?, operandsOfMembers]
  · simp [ofGrouped?, Json.onlyMember?, connective]

theorem ofJson?_member (name : String) (value : Json) :
    ofJson? (.object [(name, value)]) =
      if name = "entry" then (Condition.ofJson? value).map leaf
      else (Connective.ofName? name).bind fun connective =>
        (operands? value).map (group connective) := by
  simp only [ofJson?, ofGrouped?_member, Option.or_none]
  rw [operandsOfMembers, operandsOfMembers, ofTagged?]
  split
  · rfl
  · cases Connective.ofName? name with
    | none => rfl
    | some connective => cases operands? value <;> rfl

theorem ofJson?_group (connective : Connective) (items : List Json) :
    ofJson? (.object [(connective.name, .array items)]) =
      (ofItems? items).map (group connective) := by
  rw [ofJson?_member]
  cases connective <;> rfl

theorem ofItems?_cons (item : Json) (rest : List Json) :
    ofItems? (item :: rest) = (ofJson? item).bind fun rule => (ofItems? rest).map (rule :: ·) := by
  rw [ofItems?]
  cases ofJson? item with
  | none => rfl
  | some rule => cases ofItems? rest <;> rfl

theorem ofItems?_map_toJson {operands : List Rule} :
    ofItems? (operands.map toJson) = some operands ↔
      ∀ operand ∈ operands, ofJson? operand.toJson = some operand := by
  induction operands with
  | nil => simp [ofItems?]
  | cons first rest ih =>
    rw [List.map_cons, List.forall_mem_cons, ← ih, ofItems?_cons, Option.bind_eq_some_iff]
    constructor
    · rintro ⟨rule, read, others⟩
      obtain ⟨rules, readRest, same⟩ := Option.map_eq_some_iff.mp others
      cases same
      exact ⟨read, readRest⟩
    · rintro ⟨read, readRest⟩
      exact ⟨first, read, by rw [readRest, Option.map_some]⟩

/-- What a rule is written as is read as the rule again if and only if its number literals are
finite. -/
theorem ofJson?_toJson {rule : Rule} : ofJson? rule.toJson = some rule ↔ rule.Finite := by
  induction rule with
  | empty =>
    constructor
    · intro _
      exact finite_empty
    · intro _
      rfl
  | leaf condition =>
    rw [toJson, ofJson?_member, if_pos rfl, Option.map_eq_some_iff, finite_leaf,
      ← Condition.ofJson?_toJson_iff]
    simp
  | group connective operands ih =>
    have same : (ofItems? (operands.map toJson)).map (group connective) =
        some (group connective operands) ↔ ofItems? (operands.map toJson) = some operands := by
      simp
    rw [toJson, toJsonAll_eq, ofJson?_group, same, ofItems?_map_toJson, finite_group]
    exact forall₂_congr ih

/-! ## Reading -/

/-- The members of an object whose values list rules, if they do, all of them finite. -/
def FiniteOperands (operands : List (String × Option (List Rule))) : Prop :=
  ∀ entry ∈ operands, ∀ rules, entry.2 = some rules → ∀ rule ∈ rules, rule.Finite

theorem finite_of_ofTagged? {members : List Json.Member} {rule : Rule}
    {operands : List (String × Option (List Rule))} (fits : ∀ member ∈ members, member.2.Fits)
    (finite : FiniteOperands operands) (read : ofTagged? members operands = some rule) :
    rule.Finite := by
  rw [ofTagged?.eq_def] at read
  split at read
  · next name value name' rules =>
    split at read
    · obtain ⟨condition, decoded, rfl⟩ := Option.map_eq_some_iff.mp read
      have valueFits := fits _ (List.mem_singleton_self _)
      exact finite_leaf.mpr (Condition.isFinite_of_ofJson? valueFits decoded)
    · obtain ⟨connective, _, read⟩ := Option.bind_eq_some_iff.mp read
      obtain ⟨rules, listed, read⟩ := Option.bind_eq_some_iff.mp read
      cases read
      exact finite_group.mpr (finite _ (List.mem_singleton_self _) rules listed)
  · cases read

theorem finite_of_ofGrouped? {members : List Json.Member} {rule : Rule}
    {operands : List (String × Option (List Rule))} (finite : FiniteOperands operands)
    (read : ofGrouped? members operands = some rule) : rule.Finite := by
  obtain ⟨_, _, read⟩ := Option.bind_eq_some_iff.mp read
  obtain ⟨_, _, read⟩ := Option.bind_eq_some_iff.mp read
  split at read
  · next name rules only =>
    obtain ⟨connective, _, read⟩ := Option.bind_eq_some_iff.mp read
    obtain ⟨rules, listed, read⟩ := Option.bind_eq_some_iff.mp read
    cases read
    have member := List.mem_of_mem_filter (only ▸ List.mem_singleton_self _)
    exact finite_group.mpr (finite _ member rules listed)
  · cases read

mutual

theorem finite_of_ofJson? {rule : Rule} :
    (j : Json) → j.Fits → ofJson? j = some rule → rule.Finite
  | .object [], _, read => by
    cases read
    exact finite_empty
  | .object (member :: rest), .object each, read => by
    have finite := finiteOperands (member :: rest) each
    rw [ofJson?] at read
    rcases Option.or_eq_some_iff.mp read with tagged | ⟨_, grouped⟩
    · exact finite_of_ofTagged? each finite tagged
    · exact finite_of_ofGrouped? finite grouped
    · exact List.cons_ne_nil _ _
  | .array [], _, read => by
    cases read
    exact finite_empty

theorem finiteOperands :
    (members : List Json.Member) → (∀ member ∈ members, member.2.Fits) →
      FiniteOperands (operandsOfMembers members)
  | [], _ => List.forall_mem_nil _
  | (name, value) :: rest, fits => by
    rw [List.forall_mem_cons] at fits
    rw [operandsOfMembers, FiniteOperands, List.forall_mem_cons]
    exact ⟨fun rules => finite_of_operands? value fits.1, finiteOperands rest fits.2⟩

theorem finite_of_operands? {rules : List Rule} :
    (j : Json) → j.Fits → operands? j = some rules → ∀ rule ∈ rules, rule.Finite
  | .array items, .array each, read => finite_of_ofItems? items each read

theorem finite_of_ofItems? {rules : List Rule} :
    (items : List Json) → (∀ item ∈ items, item.Fits) → ofItems? items = some rules →
      ∀ rule ∈ rules, rule.Finite
  | [], _, read => by
    cases read
    exact List.forall_mem_nil _
  | item :: rest, fits, read => by
    rw [List.forall_mem_cons] at fits
    rw [ofItems?_cons] at read
    obtain ⟨first, readFirst, read⟩ := Option.bind_eq_some_iff.mp read
    obtain ⟨others, readRest, rfl⟩ := Option.map_eq_some_iff.mp read
    rw [List.forall_mem_cons]
    exact ⟨finite_of_ofJson? item fits.1 readFirst, finite_of_ofItems? rest fits.2 readRest⟩

end

end Rule

end FormLogic
