import FormLogic.Block.Document
import FormLogic.Proofs.RuleDocument
import FormLogic.Proofs.TimestampRange

/-!
# Rules out of documents

However a rule has come out of a document, read from one of its layouts or put together from stored
blocks, its number literals are finite: a number in a document is, without its fraction too, and so
is a moment in seconds. So what such a rule is written as is its normal form.
-/

namespace FormLogic


namespace Block

/-- A block without an infinity, or what is not a number, in a slot of it or of the blocks in it. -/
inductive Finite : Block → Prop where
  | mk {wrapped : Bool} {field operator : String} {slots : Slots} {rules : List Block}
      (number : ∀ x, slots.number? = some x → x.isFinite = true)
      (each : ∀ block ∈ rules, Finite block) : Finite ⟨wrapped, field, operator, slots, rules⟩

theorem Finite.wrap {b : Block} (finite : b.Finite) : b.wrap.Finite := by
  cases finite with
  | mk number each => exact .mk number each

theorem isFinite_of_optional_double? {part : Option Json} {number? : Option Scalar}
    (fits : ∀ value, part = some value → value.Fits)
    (read : Json.optional Json.double? part = some number?) :
    ∀ x, number? = some x → x.isFinite = true := by
  rintro x rfl
  cases part with
  | none => cases read
  | some value =>
    by_cases null : value = .null
    · subst null
      cases read
    · rw [Json.optional_of_ne_null null, Option.map_eq_some_iff] at read
      obtain ⟨y, decoded, same⟩ := read
      cases same
      have valueFits := fits value rfl
      cases valueFits with
      | number small =>
        cases decoded
        exact small.isFinite_toDouble
      | _ => cases decoded

/-- Readings of lists of blocks, all of these finite. -/
def FiniteLists (rules : List (Option (List Block))) : Prop :=
  ∀ list ∈ rules, ∀ blocks, list = some blocks → ∀ block ∈ blocks, block.Finite

theorem finite_of_ofParts? {j : Json} {rules : List (Option (List Block))} {b : Block}
    (fits : j.Fits) (finite : FiniteLists rules) (read : ofParts? j rules = some b) :
    b.Finite := by
  obtain ⟨parts, record, read⟩ := Option.bind_eq_some_iff.mp read
  split at read
  · next _ field operator char number dropdown date time datetime last =>
    obtain ⟨_, _, read⟩ := Option.bind_eq_some_iff.mp read
    obtain ⟨_, _, read⟩ := Option.bind_eq_some_iff.mp read
    obtain ⟨_, _, read⟩ := Option.bind_eq_some_iff.mp read
    obtain ⟨number?, readNumber, read⟩ := Option.bind_eq_some_iff.mp read
    obtain ⟨_, _, read⟩ := Option.bind_eq_some_iff.mp read
    obtain ⟨_, _, read⟩ := Option.bind_eq_some_iff.mp read
    obtain ⟨_, _, read⟩ := Option.bind_eq_some_iff.mp read
    obtain ⟨_, _, read⟩ := Option.bind_eq_some_iff.mp read
    obtain ⟨blocks, listed, read⟩ := Option.bind_eq_some_iff.mp read
    cases read
    apply Finite.mk
    · apply isFinite_of_optional_double? _ readNumber
      rintro value rfl
      exact Json.fits_of_record? fits record value (by simp)
    · cases rules with
      | nil =>
        cases listed
        exact List.forall_mem_nil _
      | cons first rest =>
        rw [List.headD_cons] at listed
        exact finite first List.mem_cons_self blocks listed
  · cases read

mutual

theorem finite_of_ofJson? {b : Block} : (j : Json) → j.Fits → ofJson? j = some b → b.Finite
  | .object members, .object each, read => by
    rw [ofJson?] at read
    exact finite_of_ofParts? (.object each) (finiteLists_members members each) read
  | .array items, .array each, read => by
    rw [ofJson?] at read
    exact finite_of_ofParts? (.array each) (finiteLists_items 8 items each) read

theorem finite_of_entry {b : Block} : (j : Json) → j.Fits → ofEntry? j = some b → b.Finite
  | .object members, .object each, read => by
    rw [ ofEntry?, ofWrapped?.eq_def] at read
    split at read
    · next inner only =>
      cases read
      have member : some inner ∈ valuesOfMembers members := only ▸ List.mem_singleton_self _
      exact (finite_of_valuesOfMembers members each _ member inner rfl).wrap
    · exact finite_of_ofParts? (.object each) (finiteLists_members members each) read
  | .array items, .array each, read => by
    rw [ ofEntry?] at read
    exact finite_of_ofParts? (.array each) (finiteLists_items 8 items each) read

theorem finite_of_valuesOfMembers :
    (members : List Json.Member) → (∀ member ∈ members, member.2.Fits) →
      ∀ value ∈ valuesOfMembers members, ∀ b, value = some b → b.Finite
  | [], _ => List.forall_mem_nil _
  | (name, value) :: rest, fits => by
    rw [List.forall_mem_cons] at fits
    have others := finite_of_valuesOfMembers rest fits.2
    rw [valuesOfMembers]
    split
    · rw [List.forall_mem_cons]
      exact ⟨fun b => finite_of_ofJson? value fits.1, others⟩
    · exact others

theorem finiteLists_members :
    (members : List Json.Member) → (∀ member ∈ members, member.2.Fits) →
      FiniteLists (rulesOfMembers members)
  | [], _ => List.forall_mem_nil _
  | (name, value) :: rest, fits => by
    rw [List.forall_mem_cons] at fits
    have others := finiteLists_members rest fits.2
    rw [rulesOfMembers]
    split
    · rw [FiniteLists, List.forall_mem_cons]
      exact ⟨fun blocks => finite_of_ofList? value fits.1, others⟩
    · exact others

theorem finiteLists_items :
    (position : Nat) → (items : List Json) → (∀ item ∈ items, item.Fits) →
      FiniteLists (rulesOfItems position items)
  | _, [], _ => by
    rw [rulesOfItems]
    exact List.forall_mem_nil _
  | 0, item :: _, fits => by
    rw [rulesOfItems, FiniteLists, List.forall_mem_singleton]
    exact fun blocks => finite_of_ofList? item (fits item List.mem_cons_self)
  | position + 1, item :: rest, fits => by
    rw [List.forall_mem_cons] at fits
    rw [rulesOfItems]
    exact finiteLists_items position rest fits.2

theorem finite_of_ofList? {blocks : List Block} :
    (j : Json) → j.Fits → ofList? j = some blocks → ∀ block ∈ blocks, block.Finite
  | .array items, .array each, read => by
    rw [ofList?] at read
    exact finite_of_ofEntries? items each read

theorem finite_of_ofEntries? {blocks : List Block} :
    (items : List Json) → (∀ item ∈ items, item.Fits) → ofEntries? items = some blocks →
      ∀ block ∈ blocks, block.Finite
  | [], _, read => by
    cases read
    exact List.forall_mem_nil _
  | item :: rest, fits, read => by
    rw [List.forall_mem_cons] at fits
    obtain ⟨first, readFirst, read⟩ := Option.bind_eq_some_iff.mp read
    obtain ⟨others, readRest, read⟩ := Option.bind_eq_some_iff.mp read
    cases read
    rw [List.forall_mem_cons]
    exact ⟨finite_of_entry item fits.1 readFirst, finite_of_ofEntries? rest fits.2 readRest⟩

end

/-! ## Rules of blocks -/

theorem isFinite_plainLiteral? {slots : Slots}
    (number : ∀ x, slots.number? = some x → x.isFinite = true) :
    slots.plainLiteral?.all Literal.isFinite = true := by
  rw [Slots.plainLiteral?]
  cases Slots.filled? slots.dropdown? with
  | some pick => rfl
  | none =>
    cases present : slots.number? with
    | some x => exact (Scalar.isFinite_trunc x).trans (number x present)
    | none => cases Slots.filled? slots.char? <;> rfl

/-- The value of a block is a finite number, or none at all: a moment is within reach of a double. -/
theorem isFinite_literal? {slots : Slots} {field : String} {literal? : Option Literal}
    (number : ∀ x, slots.number? = some x → x.isFinite = true)
    (converted : slots.literal? field = .ok literal?) : literal?.all Literal.isFinite = true := by
  rw [Slots.literal?] at converted
  split at converted
  · cases converted
    exact isFinite_plainLiteral? number
  · split at converted
    · next seconds read =>
      cases converted
      have near := Timestamp.ofText?_abs_lt read
      exact Scalar.isFinite_ofInt (near.le.trans (by norm_num))
    · cases converted

mutual

theorem finite_of_toRule {rule : Rule} :
    (b : Block) → b.Finite → b.toRule = .ok rule → rule.Finite
  | ⟨_, field, operator, slots, rules⟩, .mk number each, converted => by
    rw [toRule] at converted
    split at converted
    · obtain ⟨operands, convertedRules, rfl⟩ := Outcome.map_eq_ok_iff.mp converted
      exact Rule.finite_group.mpr (finite_of_toRules rules each convertedRules)
    · obtain ⟨literal?, convertedLiteral, rfl⟩ := Outcome.map_eq_ok_iff.mp converted
      exact Rule.finite_leaf.mpr (isFinite_literal? number convertedLiteral)

theorem finite_of_toRules {operands : List Rule} :
    (blocks : List Block) → (∀ block ∈ blocks, block.Finite) → toRules blocks = .ok operands →
      ∀ operand ∈ operands, operand.Finite
  | [], _, converted => by
    cases converted
    exact List.forall_mem_nil _
  | block :: rest, finite, converted => by
    rw [List.forall_mem_cons] at finite
    obtain ⟨first, convertedFirst, converted⟩ := Outcome.bind_eq_ok_iff.mp converted
    obtain ⟨others, convertedRest, converted⟩ := Outcome.bind_eq_ok_iff.mp converted
    cases converted
    rw [List.forall_mem_cons]
    exact ⟨finite_of_toRule block finite.1 convertedFirst,
      finite_of_toRules rest finite.2 convertedRest⟩

end

theorem finite_of_ruleOfStored {stored : Json} {rule : Rule} (fits : stored.Fits)
    (converted : ruleOfStored stored = .ok rule) : rule.Finite := by
  rw [ruleOfStored] at converted
  split at converted
  · next blocks listed =>
    cases blocks with
    | nil =>
      cases converted
      exact Rule.finite_empty
    | cons first rest =>
      have finite := finite_of_ofList? stored fits listed first List.mem_cons_self
      exact finite_of_toRule first finite converted
  · cases converted

end Block

/-! ## Normal forms -/

namespace Rule

/-- Writing is a normal form. A rule is read again from what it is written as if and only if its
number literals are finite, and then it is written with the members `entry`, `and` and `or` alone.
The numbers in a value that is read from a text are those that a JSON value can hold; and the rules
that are read from such values, or put together from stored blocks, are written as what is read as
the same rule again and written as the same once more. -/
theorem toJson_isNormalForm :
    (∀ rule : Rule, ofJson? rule.toJson = some rule ↔ rule.Finite) ∧
    (∀ rule : Rule, rule.Finite → Written rule.toJson) ∧
    (∀ text j, Json.ofText? text = some j → j.Fits) ∧
    (∀ j rule, j.Fits → ofJson? j = some rule →
      ofJson? rule.toJson = some rule ∧
        (ofJson? rule.toJson).map toJson = some rule.toJson ∧ Written rule.toJson) ∧
    (∀ stored rule, stored.Fits → Block.ruleOfStored stored = .ok rule →
      ofJson? rule.toJson = some rule ∧
        (ofJson? rule.toJson).map toJson = some rule.toJson ∧ Written rule.toJson) := by
  have again {rule : Rule} (finite : rule.Finite) : ofJson? rule.toJson = some rule ∧
      (ofJson? rule.toJson).map toJson = some rule.toJson ∧ Written rule.toJson := by
    have same := ofJson?_toJson.mpr finite
    exact ⟨same, by rw [same, Option.map_some], written_toJson finite⟩
  refine ⟨fun _ => ofJson?_toJson, fun _ => written_toJson, fun _ _ => Json.fits_of_ofTextKnowing?,
    ?_, ?_⟩
  · intro j rule fits read
    exact again (finite_of_ofJson? j fits read)
  · intro stored rule fits converted
    exact again (Block.finite_of_ruleOfStored fits converted)

/-- A group in its other layout, with a condition and the empty rule as arrays; and a stored block
with a moment. -/
theorem layouts_have_normalForm :
    (∃ rule, ofJson? (.object [("bool_opr", .string "or"), ("subrules", .array [
          .object [("entry", .array [.string "age", .string "lt", .number (.whole 18)])],
          .array []])]) = some rule ∧
      rule.Finite ∧ ofJson? rule.toJson = some rule ∧ Written rule.toJson ∧
      rule.toJson = .object [("or", .array [.object [("entry", .object [("opr", .string "lt"),
        ("target", .string "age"), ("val", .ofScalar (.ofInt 18))])], .object []])]) ∧
    ∃ rule, Block.ruleOfStored (.array [.object [("field", .string "born"),
        ("operator", .string "bt"), ("value_date", .string "1970-01-02")]]) = .ok rule ∧
      ofJson? rule.toJson = some rule ∧ Written rule.toJson := by
  obtain ⟨readAgain, _, _, ofValues, ofBlocks⟩ := toJson_isNormalForm
  constructor
  · have fits : Json.Fits (.object [("bool_opr", .string "or"), ("subrules", .array [
          .object [("entry", .array [.string "age", .string "lt", .number (.whole 18)])],
          .array []])]) := by
      simp [Json.Number.Fits]
    obtain ⟨same, _, written⟩ := ofValues _ _ fits rfl
    exact ⟨_, rfl, (readAgain _).mp same, same, written, rfl⟩
  · have fits : Json.Fits (.array [.object [("field", .string "born"),
        ("operator", .string "bt"), ("value_date", .string "1970-01-02")]]) := by
      simp
    have converts : (Block.ruleOfStored (.array [.object [("field", .string "born"),
        ("operator", .string "bt"), ("value_date", .string "1970-01-02")]])).isOk = true := by
      decide +kernel
    obtain ⟨rule, converted⟩ := Outcome.isOk_iff.mp converts
    obtain ⟨same, _, written⟩ := ofBlocks _ _ fits converted
    exact ⟨rule, converted, same, written⟩

end Rule

end FormLogic
