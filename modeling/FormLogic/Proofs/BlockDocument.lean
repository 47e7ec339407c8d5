import FormLogic.Proofs.BlockShape
import FormLogic.Proofs.RuleGrammar
import FormLogic.Proofs.StoredRule

/-!
# Rule blocks and their documents

A list of blocks is written with each block wrapped or bare as it is. What is written is read as the
same list again, as long as the numbers in it are finite: a bare block has no member `value` that
could be taken for a block, and a wrapped one has nothing else. So a stored document, in whatever
layout, may be replaced by what its blocks are written as.
-/

namespace FormLogic

namespace Json

/-! ## Members that are written when they have a value -/

/-- The members of a record, of which those without a value are left out. -/
def writtenMembers (names : List String) (part? : String → Option Json) : List Member :=
  names.flatMap fun name => optionalMember name (part? name)

theorem filter_optionalMember (name other : String) (value? : Option Json) :
    (optionalMember other value?).filter (·.1 == name) =
      if other = name then optionalMember other value? else [] := by
  by_cases same : other = name <;> cases value? <;> simp [optionalMember, same]

variable {names : List String} {part? : String → Option Json} {name : String}

theorem filter_writtenMembers_of_not_mem (absent : name ∉ names) :
    (writtenMembers names part?).filter (·.1 == name) = [] := by
  rw [writtenMembers, List.filter_flatMap, List.flatMap_eq_nil_iff]
  intro other member
  rw [filter_optionalMember, if_neg]
  rintro rfl
  exact absent member

/-- Under a name stands the part of that name alone. -/
theorem filter_writtenMembers (distinct : names.Nodup) (member : name ∈ names) :
    (writtenMembers names part?).filter (·.1 == name) = optionalMember name (part? name) := by
  induction names with
  | nil => cases member
  | cons first rest ih =>
    rw [List.nodup_cons] at distinct
    rw [writtenMembers, List.flatMap_cons, List.filter_append, ← writtenMembers,
      filter_optionalMember]
    rcases List.mem_cons.mp member with rfl | inRest
    · rw [if_pos rfl, filter_writtenMembers_of_not_mem distinct.1, List.append_nil]
    · have different : first ≠ name := by
        rintro rfl
        exact distinct.1 inRest
      rw [if_neg different, ih distinct.2 inRest, List.nil_append]

/-- The parts of a record are found again, in whatever order they are asked for. -/
theorem record?_writtenMembers {asked : List String} (distinct : names.Nodup)
    (written : asked ⊆ names) :
    (object (writtenMembers names part?)).record? asked = some (asked.map part?) := by
  rw [record?_object_eq_some_iff, List.forall₂_map_right_iff, List.forall₂_same]
  intro name member
  rw [← onlyMember?_eq_some_iff, onlyMember?, filter_writtenMembers distinct (written member)]
  cases part? name <;> rfl

/-- A number is read again from what it is written as, unless null is written for it. -/
theorem optional_ofScalar (number? : Option Scalar) :
    optional double? (number?.map ofScalar) = some (number?.filter Scalar.isFinite) := by
  cases number? with
  | none => rfl
  | some x => cases x <;> rfl

theorem optional_string (text? : Option String) :
    optional string? (text?.map string) = some text? := by
  cases text? <;> rfl

end Json

namespace Block

/-! ## What is written of a block -/

/-- What is written of a block under a name. -/
def part? (b : Block) : String → Option Json
  | "field" => some (.string b.field)
  | "operator" => some (.string b.operator)
  | "rules" => if b.rules.isEmpty then none else some (.array (entriesToJson b.rules))
  | "value_char" => b.slots.char?.map .string
  | "value_date" => b.slots.date?.map .string
  | "value_datetime" => b.slots.datetime?.map .string
  | "value_dropdown" => b.slots.dropdown?.map .string
  | "value_number" => b.slots.number?.map .ofScalar
  | "value_time" => b.slots.time?.map .string
  | _ => none

/-- The names under which a block is written, in order. -/
def writtenNames : List String :=
  ["field", "operator", "rules", "value_char", "value_date", "value_datetime", "value_dropdown",
    "value_number", "value_time"]

theorem nodup_writtenNames : writtenNames.Nodup := by
  decide

theorem toJson_eq (b : Block) : b.toJson = .object (Json.writtenMembers writtenNames b.part?) := by
  obtain ⟨wrapped, field, operator, slots, rules⟩ := b
  simp [toJson, part?, writtenNames, Json.writtenMembers, Json.optionalMember]

theorem record?_toJson (b : Block) : b.toJson.record? members = some (members.map b.part?) := by
  rw [toJson_eq]
  exact Json.record?_writtenMembers nodup_writtenNames (by decide)

theorem valuesOfMembers_eq (members : List Json.Member) :
    valuesOfMembers members = (members.filter (·.1 == "value")).map fun member =>
      ofJson? member.2 := by
  induction members with
  | nil => rfl
  | cons first rest ih =>
    rw [valuesOfMembers, ih]
    by_cases named : first.1 = "value" <;> simp [named]

theorem rulesOfMembers_eq (members : List Json.Member) :
    rulesOfMembers members = (members.filter (·.1 == "rules")).map fun member =>
      ofList? member.2 := by
  induction members with
  | nil => rfl
  | cons first rest ih =>
    rw [rulesOfMembers, ih]
    by_cases named : first.1 = "rules" <;> simp [named]

/-- A block that is written bare has no member that could be taken for a wrapped one. -/
theorem valuesOfMembers_written (b : Block) :
    valuesOfMembers (Json.writtenMembers writtenNames b.part?) = [] := by
  rw [valuesOfMembers_eq, Json.filter_writtenMembers_of_not_mem (by decide), List.map_nil]

/-- The blocks in a block are read from what they are written as, none if there are none. -/
theorem rulesOfMembers_written (b : Block) :
    (rulesOfMembers (Json.writtenMembers writtenNames b.part?)).headD (some []) =
      ofEntries? (entriesToJson b.rules) := by
  rw [rulesOfMembers_eq, Json.filter_writtenMembers nodup_writtenNames (by decide)]
  cases rules : b.rules with
  | nil => simp [part?, rules, Json.optionalMember, entriesToJson, ofEntries?]
  | cons first rest => simp [part?, rules, Json.optionalMember, ofList?]

/-! ## Reading what is written -/

/-- The block with some blocks in it that have been read again, and with its number if that can be
written. -/
def again (b : Block) (wrapped : Bool) (rules : List Block) : Block :=
  { b with
    wrapped
    slots := { b.slots with number? := b.slots.number?.filter Scalar.isFinite }
    rules }

theorem ofParts?_toJson (b : Block) :
    ofParts? b.toJson (rulesOfMembers (Json.writtenMembers writtenNames b.part?)) =
      (ofEntries? (entriesToJson b.rules)).map (b.again false) := by
  have parts : members.map b.part? = [some (.string b.field), some (.string b.operator),
      b.slots.char?.map .string, b.slots.number?.map .ofScalar, b.slots.dropdown?.map .string,
      b.slots.date?.map .string, b.slots.time?.map .string, b.slots.datetime?.map .string,
      b.part? "rules"] := rfl
  have operator : Json.withDefault "" Json.string? (some (.string b.operator)) =
      some b.operator := rfl
  rw [ofParts?, record?_toJson, rulesOfMembers_written, parts]
  simp only [Option.bind_eq_bind, Option.bind_some, Json.required, Json.string?, operator,
    Json.optional_string, Json.optional_ofScalar]
  cases ofEntries? (entriesToJson b.rules) <;> rfl

theorem ofJson?_toJson (b : Block) :
    ofJson? b.toJson = (ofEntries? (entriesToJson b.rules)).map (b.again false) := by
  rw [← ofParts?_toJson, toJson_eq, ofJson?]

/-- Of the two ways to read an entry, the one in which it was written is taken. -/
theorem ofEntry?_entry (b : Block) :
    ofEntry? (entry b.wrapped b.toJson) =
      (ofEntries? (entriesToJson b.rules)).map (b.again b.wrapped) := by
  cases b.wrapped with
  | true =>
    -- The wrapped reading comes first, and `value` is the one member that it could read.
    have values : valuesOfMembers [("value", b.toJson)] = [ofJson? b.toJson] := by
      rw [valuesOfMembers_eq]
      rfl
    rw [entry, if_pos rfl, ofEntry?, values, ofJson?_toJson]
    cases ofEntries? (entriesToJson b.rules) <;> rfl
  | false =>
    rw [entry, if_neg Bool.false_ne_true, ← ofParts?_toJson, toJson_eq, ofEntry?,
      valuesOfMembers_written]
    rfl

theorem ofEntries?_entriesToJson {blocks : List Block} :
    ofEntries? (entriesToJson blocks) = some blocks ↔
      ∀ block ∈ blocks, ofEntry? (entry block.wrapped block.toJson) = some block := by
  induction blocks with
  | nil => simp [entriesToJson, ofEntries?]
  | cons first rest ih =>
    rw [List.forall_mem_cons, ← ih, entriesToJson, ofEntries?]
    simp [Option.bind_eq_some_iff]

theorem finite_mk {wrapped : Bool} {field operator : String} {slots : Slots}
    {rules : List Block} : Finite ⟨wrapped, field, operator, slots, rules⟩ ↔
      slots.number?.filter Scalar.isFinite = slots.number? ∧ ∀ block ∈ rules, block.Finite := by
  have finite : slots.number?.filter Scalar.isFinite = slots.number? ↔
      ∀ x, slots.number? = some x → x.isFinite = true := by
    cases slots.number? <;> simp [Option.filter_some]
  rw [finite]
  constructor
  · rintro ⟨number, each⟩
    exact ⟨number, each⟩
  · rintro ⟨number, each⟩
    exact .mk number each

/-- An entry is read again as the block that it was, and so are all blocks in it, each of them
wrapped or bare as before, if and only if the numbers in it are finite. -/
theorem ofEntry?_entry_iff {b : Block} :
    ofEntry? (entry b.wrapped b.toJson) = some b ↔ b.Finite := by
  induction b using inductionOn with
  | mk wrapped field operator slots rules ih =>
    rw [ofEntry?_entry, finite_mk, ← forall₂_congr ih, ← ofEntries?_entriesToJson,
      Option.map_eq_some_iff]
    constructor
    · rintro ⟨rules', read, same⟩
      -- If the block is the same, so are its number and the blocks in it.
      have sameNumber := congrArg (fun block => block.slots.number?) same
      obtain rfl : rules' = rules := congrArg Block.rules same
      exact ⟨sameNumber, read⟩
    · rintro ⟨number, read⟩
      exact ⟨rules, read, by rw [again, number]⟩

theorem ofList?_entriesToJson {blocks : List Block} :
    ofList? (.array (entriesToJson blocks)) = some blocks ↔ ∀ block ∈ blocks, block.Finite := by
  rw [ofList?, ofEntries?_entriesToJson]
  exact forall₂_congr fun _ _ => ofEntry?_entry_iff

/-! ## Stored documents -/

theorem ruleOfStored_of_ofList? {stored : Json} {blocks : List Block}
    (read : ofList? stored = some blocks) : ruleOfStored stored = ruleOfList blocks := by
  rw [ruleOfStored, read]

/-- Of blocks that have been read, only a moment can be wrong. -/
theorem exists_of_ruleOfList_error {blocks : List Block} {e : BlockError}
    (fails : ruleOfList blocks = .error e) :
    ∃ field slot text, e = .invalidTimestamp field slot text := by
  cases blocks with
  | nil => cases fails
  | cons first rest =>
    obtain ⟨comparison, _, faulty⟩ := List.exists_of_findSome?_eq_some (toRule_eq_error_iff.mp fails)
    obtain ⟨⟨slot, text⟩, _, unread⟩ := Option.bind_eq_some_iff.mp faulty
    dsimp only at unread
    cases read : Timestamp.ofText? text with
    | some seconds => simp [read] at unread
    | none =>
      rw [read] at unread
      exact ⟨comparison.field, slot, text, (Option.some.inj unread).symm⟩

/-- Stored blocks come back from what they are written as. An entry is read again as the same block,
with every block in it and each of them wrapped or bare as it was, if and only if all numbers in it
are finite; and so is a list of entries. The numbers in a document that is read from a text are, so
what its blocks are written as may take its place, whatever layout it had: it holds the same blocks
and makes the same rule, or the same moment in it cannot be read. -/
theorem stored_blocks_return :
    (∀ b : Block, ofEntry? (entry b.wrapped b.toJson) = some b ↔ b.Finite) ∧
    (∀ blocks, ofList? (.array (entriesToJson blocks)) = some blocks ↔ ∀ b ∈ blocks, b.Finite) ∧
    (∀ text j, Json.ofText? text = some j → j.Fits) ∧
    ∀ stored blocks, stored.Fits → ofList? stored = some blocks →
      ofList? (.array (entriesToJson blocks)) = some blocks ∧
      ruleOfStored (.array (entriesToJson blocks)) = ruleOfStored stored ∧
      ((∃ rule, ruleOfStored stored = .ok rule) ∨
        ∃ field slot text, ruleOfStored stored = .error (.invalidTimestamp field slot text)) := by
  refine ⟨fun b => ofEntry?_entry_iff, fun blocks => ofList?_entriesToJson,
    fun text j => Json.fits_of_ofTextKnowing?, ?_⟩
  intro stored blocks fits read
  have readAgain := ofList?_entriesToJson.mpr (finite_of_ofList? stored fits read)
  refine ⟨readAgain, ?_, ?_⟩
  · rw [ruleOfStored_of_ofList? readAgain, ruleOfStored_of_ofList? read]
  · rw [ruleOfStored_of_ofList? read]
    cases converted : ruleOfList blocks with
    | ok rule => exact .inl ⟨rule, rfl⟩
    | error e =>
      obtain ⟨field, slot, text, rfl⟩ := exists_of_ruleOfList_error converted
      exact .inr ⟨field, slot, text, rfl⟩

/-- A list with one block that is bare, because its member `value` is a text. Of the blocks in it,
one is written as an array, and the other is wrapped and has an empty slot and a member that has no
meaning; its day cannot be read. -/
def storedYoung : Json :=
  .array [.object [("value", .string "12"), ("field", .string "or"), ("rules", .array [
    .array [.string "age", .string "lt", .null, .number (.whole 12)],
    .object [("value", .object [("note", .bool true), ("field", .string "born"),
      ("operator", .string "bt"), ("value_char", .null), ("value_date", .string "someday")])]])]]

/-- The blocks are written with their known members alone, in order and as objects. The list that
they make is read as the same blocks, and has the same day in it that cannot be read. -/
theorem stored_young_returns :
    storedYoung.Fits ∧ ∃ blocks, ofList? storedYoung = some blocks ∧
      entriesToJson blocks = [.object [("field", .string "or"), ("operator", .string ""),
        ("rules", .array [
          .object [("field", .string "age"), ("operator", .string "lt"),
            ("value_number", .ofScalar (.ofInt 12))],
          .object [("value", .object [("field", .string "born"), ("operator", .string "bt"),
            ("value_date", .string "someday")])]])]] ∧
      ofList? (.array (entriesToJson blocks)) = some blocks ∧
      ruleOfStored (.array (entriesToJson blocks)) =
        .error (.invalidTimestamp "born" "value_date" "someday") := by
  have fits : storedYoung.Fits := by
    simp [storedYoung, Json.Number.Fits, Json.Fits.bool, Json.Fits.null]
  obtain ⟨readAgain, same, _⟩ := stored_blocks_return.2.2.2 storedYoung _ fits rfl
  refine ⟨fits, _, rfl, rfl, readAgain, same.trans ?_⟩
  rw [ruleOfStored_of_ofList? rfl]
  exact toRule_eq_error_iff.mpr (by decide +kernel)

end Block

end FormLogic
