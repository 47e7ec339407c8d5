import FormLogic.Block.Basic
import FormLogic.Proofs.Outcome

/-!
# The shape of blocks

The rule of stored blocks has their shape: a group for each block that names a connective, a
condition for each other one, which says what the first of its slots holds that is not left blank.
Nothing else counts, and only a moment that cannot be read, in the slot that counts, is an error
(`shape_of_toRule`).
-/

namespace FormLogic

/-! ## Slots -/

/-- The value slots of a block, by their widgets. -/
inductive Slot where
  | date
  | time
  | datetime
  | dropdown
  | number
  | char

namespace Slot

/-- The slots in the order in which they count. -/
def all : List Slot :=
  [date, time, datetime, dropdown, number, char]

/-- The name of a slot for moments. -/
def momentName? : Slot → Option String
  | date => some "value_date"
  | time => some "value_time"
  | datetime => some "value_datetime"
  | dropdown | number | char => none

end Slot

namespace Slots

/-- What stands in a slot, if it is not left blank. -/
def content? (s : Slots) : Slot → Option Literal
  | .date => (filled? s.date?).map .text
  | .time => (filled? s.time?).map .text
  | .datetime => (filled? s.datetime?).map .text
  | .dropdown => (filled? s.dropdown?).map .text
  | .number => s.number?.map .number
  | .char => (filled? s.char?).map .text

/-- The first slot that is not left blank, and what stands in it. -/
def first? (s : Slots) : Option (Slot × Literal) :=
  Slot.all.findSome? fun slot => (s.content? slot).map fun content => (slot, content)

/-- What a block about a field compares with, read off the first of its slots that is not blank. -/
inductive Gives (s : Slots) (field : String) : Except BlockError (Option Literal) → Prop where
  | nothing (blank : s.first? = none) : Gives s field (.ok none)
  | moment {slot : Slot} {name text : String} {seconds : Int}
      (first : s.first? = some (slot, .text text)) (named : slot.momentName? = some name)
      (read : Timestamp.ofText? text = some seconds) :
      Gives s field (.ok (some (.number (.ofInt seconds))))
  | unreadable {slot : Slot} {name text : String}
      (first : s.first? = some (slot, .text text)) (named : slot.momentName? = some name)
      (unread : Timestamp.ofText? text = none) :
      Gives s field (.error (.invalidTimestamp field name text))
  | option {pick : Literal} (first : s.first? = some (.dropdown, pick)) :
      Gives s field (.ok (some pick))
  | number {x : Scalar} (first : s.first? = some (.number, .number x)) :
      Gives s field (.ok (some (.number x.trunc)))
  | characters {text : Literal} (first : s.first? = some (.char, text)) :
      Gives s field (.ok (some text))

/-- Slots hold the same from the first slot on, up to the first one that is not blank. -/
def Agree (s t : Slots) : Prop :=
  ∀ before slot after, Slot.all = before ++ slot :: after →
    (∀ earlier ∈ before, s.content? earlier = none) → t.content? slot = s.content? slot

end Slots

/-! ## Blocks -/

namespace Block

mutual

/-- The comparisons that a block is made of, depth first: the block itself, or those of its blocks
    if it names a connective. -/
def comparisons : Block → List Block
  | ⟨wrapped, field, operator, slots, rules⟩ =>
    match Connective.ofName? field with
    | some _ => comparisonsOfAll rules
    | none => [⟨wrapped, field, operator, slots, rules⟩]

def comparisonsOfAll : List Block → List Block
  | [] => []
  | block :: rest => comparisons block ++ comparisonsOfAll rest

end

/-- Whether the moment that counts, if there is one, can be read. -/
def Readable (b : Block) : Prop :=
  ∀ slot text, b.slots.moment? = some (slot, text) → (Timestamp.ofText? text).isSome = true

/-- What is wrong with a comparison. -/
def fault? (b : Block) : Option BlockError :=
  b.slots.moment?.bind fun (slot, text) =>
    match Timestamp.ofText? text with
    | some _ => none
    | none => some (.invalidTimestamp b.field slot text)

/-- The condition that a comparison makes. -/
structure Makes (b : Block) (condition : Condition) : Prop where
  target : condition.target = b.field
  operator : condition.operator = b.operator
  literal : b.slots.Gives b.field (.ok condition.literal?)

/-- A block and a rule of the same shape. -/
inductive StandsFor : Block → Rule → Prop where
  | group {b : Block} {connective : Connective} {operands : List Rule}
      (named : b.field = connective.name) (each : List.Forall₂ StandsFor b.rules operands) :
      StandsFor b (.group connective operands)
  | leaf {b : Block} {condition : Condition} (plain : Connective.ofName? b.field = none)
      (makes : b.Makes condition) : StandsFor b (.leaf condition)

mutual

/-- The block in a list of which no entry is wrapped, at any depth. -/
def bare : Block → Block
  | ⟨_, field, operator, slots, rules⟩ => ⟨false, field, operator, slots, bareAll rules⟩

def bareAll : List Block → List Block
  | [] => []
  | block :: rest => bare block :: bareAll rest

end

/-- A block that may differ from another one in everything that does not count: in the slots and
the operator of a group, in the blocks under a comparison and its later slots, and in which of the
blocks are wrapped. -/
inductive Resembles : Block → Block → Prop where
  | group {b c : Block} {connective : Connective} (named : b.field = connective.name)
      (sameField : c.field = b.field) (each : List.Forall₂ Resembles b.rules c.rules) :
      Resembles b c
  | leaf {b c : Block} (plain : Connective.ofName? b.field = none) (sameField : c.field = b.field)
      (sameOperator : c.operator = b.operator) (agree : b.slots.Agree c.slots) : Resembles b c

end Block

/-! ## What the slots give -/

/-- What is found first in a list is the same if it is up to there. -/
theorem findSome?_congr_first {α β : Type} {f g : α → Option β} {l : List α}
    (same : ∀ before a after, l = before ++ a :: after → (∀ b ∈ before, f b = none) → g a = f a) :
    l.findSome? g = l.findSome? f := by
  induction l with
  | nil => rfl
  | cons a rest ih =>
    have here : g a = f a := same [] a rest rfl (List.forall_mem_nil _)
    rw [List.findSome?_cons, List.findSome?_cons, here]
    cases found : f a with
    | some b => rfl
    | none =>
      apply ih
      intro before b after split blank
      apply same (a :: before) b after (by rw [split, List.cons_append])
      exact List.forall_mem_cons.mpr ⟨found, blank⟩

namespace Slots

variable {s t : Slots} {field : String}

theorem Agree.first?_eq (agree : Agree s t) : t.first? = s.first? := by
  apply findSome?_congr_first
  intro before slot after split blank
  rw [agree before slot after split]
  intro earlier member
  exact Option.map_eq_none_iff.mp (blank earlier member)

/-- The moment that counts stands in the first slot that is not blank. -/
theorem first?_of_moment? {name text : String} (found : s.moment? = some (name, text)) :
    ∃ slot, s.first? = some (slot, .text text) ∧ slot.momentName? = some name := by
  simp only [moment?, moments, List.findSome?_cons, List.findSome?_nil] at found
  simp only [first?, Slot.all, content?, List.findSome?_cons, Option.map_map]
  cases date : filled? s.date? with
  | some text =>
    simp only [date, Option.map_some] at found ⊢
    cases found
    exact ⟨.date, rfl, rfl⟩
  | none =>
    cases time : filled? s.time? with
    | some text =>
      simp only [date, time, Option.map_some, Option.map_none] at found ⊢
      cases found
      exact ⟨.time, rfl, rfl⟩
    | none =>
      cases datetime : filled? s.datetime? with
      | some text =>
        simp only [date, time, datetime, Option.map_some, Option.map_none] at found ⊢
        cases found
        exact ⟨.datetime, rfl, rfl⟩
      | none => simp [date, time, datetime] at found

/-- Without a moment, the slots that hold none count. -/
theorem gives_plainLiteral? (noMoment : s.moment? = none) :
    s.Gives field (.ok s.plainLiteral?) := by
  obtain ⟨date, time, datetime⟩ : filled? s.date? = none ∧ filled? s.time? = none ∧
      filled? s.datetime? = none := by
    simpa [moment?, moments] using noMoment
  have first : s.first? = [Slot.dropdown, .number, .char].findSome? fun slot =>
      (s.content? slot).map fun content => (slot, content) := by
    simp [first?, Slot.all, content?, date, time, datetime]
  simp only [content?, List.findSome?_cons, List.findSome?_nil, Option.map_map] at first
  rw [plainLiteral?]
  cases dropdown : filled? s.dropdown? with
  | some pick => exact .option (by simp [first, dropdown])
  | none =>
    cases number : s.number? with
    | some x => exact .number (by simp [first, dropdown, number])
    | none =>
      cases char : filled? s.char? with
      | some text => exact .characters (by simp [first, dropdown, number, char])
      | none => exact .nothing (by simp [first, dropdown, number, char])

theorem gives_literal? (s : Slots) (field : String) : s.Gives field (s.literal? field) := by
  rw [literal?]
  cases found : s.moment? with
  | none => exact gives_plainLiteral? found
  | some moment =>
    obtain ⟨slot, first, named⟩ := first?_of_moment? found
    dsimp only
    cases read : Timestamp.ofText? moment.2 with
    | some seconds => exact .moment first named read
    | none => exact .unreadable first named read

theorem Gives.unique {x y : Except BlockError (Option Literal)} (first : s.Gives field x)
    (second : s.Gives field y) : x = y := by
  cases first <;> cases second <;> grind [Slot.momentName?]

/-- The literal of a block is the one that its first slot with something in it gives. -/
theorem literal?_eq_iff {x : Except BlockError (Option Literal)} :
    s.literal? field = x ↔ s.Gives field x := by
  constructor
  · rintro rfl
    exact gives_literal? s field
  · exact (gives_literal? s field).unique

/-- Slots that agree up to the first one with something in it give the same. -/
theorem Agree.literal?_eq (agree : Agree s t) (field : String) :
    t.literal? field = s.literal? field := by
  have given := gives_literal? s field
  generalize s.literal? field = x at given
  rw [literal?_eq_iff]
  cases given with
  | nothing blank => exact .nothing (agree.first?_eq.trans blank)
  | moment first named read => exact .moment (agree.first?_eq.trans first) named read
  | unreadable first named unread => exact .unreadable (agree.first?_eq.trans first) named unread
  | option first => exact .option (agree.first?_eq.trans first)
  | number first => exact .number (agree.first?_eq.trans first)
  | characters first => exact .characters (agree.first?_eq.trans first)

theorem literal?_eq_error_iff {b : Block} {e : BlockError} :
    b.slots.literal? b.field = .error e ↔ b.fault? = some e := by
  rw [literal?, Block.fault?]
  cases b.slots.moment? with
  | none => simp
  | some moment => cases read : Timestamp.ofText? moment.2 <;> simp [read]

end Slots

namespace Block

theorem fault?_eq_none_iff {b : Block} : b.fault? = none ↔ b.Readable := by
  rw [fault?, Readable]
  cases b.slots.moment? with
  | none => simp
  | some moment =>
    obtain ⟨slot, text⟩ := moment
    cases read : Timestamp.ofText? text <;> simp [read]

/-! ## Induction over blocks -/

/-- Induction over a block: the statement may be assumed of each of its blocks. -/
@[elab_as_elim]
theorem inductionOn {motive : Block → Prop} (b : Block)
    (mk : ∀ wrapped field operator slots rules, (∀ block ∈ rules, motive block) →
      motive ⟨wrapped, field, operator, slots, rules⟩) : motive b := by
  refine @Block.rec motive (fun rules => ∀ block ∈ rules, motive block) mk ?_ ?_ b
  · exact List.forall_mem_nil motive
  · intro first rest head tail
    exact List.forall_mem_cons.mpr ⟨head, tail⟩

variable {b c : Block} {rules : List Block} {rule : Rule} {e : BlockError}

/-- What can be said of each block and its rule can be said of a list of blocks and their rules. -/
theorem toRules_eq_ok_iff {related : Block → Rule → Prop}
    (each : ∀ block ∈ rules, ∀ rule, block.toRule = .ok rule ↔ related block rule)
    {operands : List Rule} :
    toRules rules = .ok operands ↔ List.Forall₂ related rules operands := by
  induction rules generalizing operands with
  | nil => cases operands <;> simp [toRules]
  | cons first rest ih =>
    rw [List.forall_mem_cons] at each
    simp only [toRules, Outcome.bind_eq_ok_iff, ih each.2, each.1, List.forall₂_cons_left_iff]
    constructor
    · rintro ⟨rule, head, others, tail, same⟩
      cases same
      exact ⟨rule, others, head, tail, rfl⟩
    · rintro ⟨rule, others, head, tail, rfl⟩
      exact ⟨rule, head, others, tail, rfl⟩

theorem toRule_eq_ok_iff : b.toRule = .ok rule ↔ StandsFor b rule := by
  induction b using inductionOn generalizing rule with
  | mk wrapped field operator slots rules ih =>
    rw [toRule]
    cases named : Connective.ofName? field with
    | some connective =>
      simp only [Outcome.map_eq_ok_iff, toRules_eq_ok_iff fun block member _ => ih block member]
      constructor
      · rintro ⟨operands, each, rfl⟩
        exact .group (Connective.ofName?_eq_some_iff.mp named) each
      · intro stands
        cases stands with
        | group named' each =>
          cases named.symm.trans (Connective.ofName?_eq_some_iff.mpr named')
          exact ⟨_, each, rfl⟩
        | leaf plain => cases named.symm.trans plain
    | none =>
      simp only [Outcome.map_eq_ok_iff, Slots.literal?_eq_iff]
      constructor
      · rintro ⟨literal?, gives, rfl⟩
        exact .leaf named ⟨rfl, rfl, gives⟩
      · intro stands
        cases stands with
        | group named' => cases named.symm.trans (Connective.ofName?_eq_some_iff.mpr named')
        | leaf plain makes =>
          obtain ⟨rfl, rfl, gives⟩ := makes
          exact ⟨_, gives, rfl⟩

theorem forall₂_conditionsOfAll {operands : List Rule}
    (each : ∀ block ∈ rules, ∀ rule, StandsFor block rule →
      List.Forall₂ Makes block.comparisons rule.conditions)
    (stand : List.Forall₂ StandsFor rules operands) :
    List.Forall₂ Makes (comparisonsOfAll rules) (Rule.conditionsOfAll operands) := by
  induction stand with
  | nil => exact .nil
  | cons head _ ih =>
    rw [List.forall_mem_cons] at each
    exact List.rel_append (each.1 _ head) (ih each.2)

/-- The conditions of the rule are the comparisons of the block, in the same order. -/
theorem StandsFor.conditions (stands : StandsFor b rule) :
    List.Forall₂ Makes b.comparisons rule.conditions := by
  induction b using inductionOn generalizing rule with
  | mk wrapped field operator slots rules ih =>
    cases stands with
    | group named each =>
      rw [comparisons, Connective.ofName?_eq_some_iff.mpr named, Rule.conditions]
      exact forall₂_conditionsOfAll (fun block member _ => ih block member) each
    | leaf plain makes =>
      rw [comparisons, plain, Rule.conditions]
      exact .cons makes .nil

/-! ## Errors -/

theorem toRules_eq_error_iff
    (each : ∀ block ∈ rules, ∀ e, block.toRule = .error e ↔
      block.comparisons.findSome? fault? = some e) :
    toRules rules = .error e ↔ (comparisonsOfAll rules).findSome? fault? = some e := by
  induction rules with
  | nil => simp [toRules, comparisonsOfAll]
  | cons first rest ih =>
    rw [List.forall_mem_cons] at each
    rw [comparisonsOfAll, List.findSome?_append, Option.or_eq_some_iff,
      ← Outcome.exists_ok_iff each.1, ← each.1, ← ih each.2, toRules, Outcome.bind_eq_error_iff]
    have others (rule : Rule) :
        List.cons rule <$> toRules rest = .error e ↔ toRules rest = .error e :=
      Outcome.map_eq_error_iff
    simp [others]

theorem toRule_eq_error_iff :
    b.toRule = .error e ↔ b.comparisons.findSome? fault? = some e := by
  induction b using inductionOn generalizing e with
  | mk wrapped field operator slots rules ih =>
    rw [toRule, comparisons]
    cases Connective.ofName? field with
    | some connective =>
      rw [← toRules_eq_error_iff fun block member e => ih block member]
      exact Outcome.map_eq_error_iff
    | none =>
      have here := @Slots.literal?_eq_error_iff ⟨wrapped, field, operator, slots, rules⟩ e
      rw [List.findSome?_singleton, ← here]
      exact Outcome.map_eq_error_iff

theorem toRule_isOk_iff : b.toRule.isOk = true ↔ ∀ c ∈ b.comparisons, c.Readable := by
  simp only [← fault?_eq_none_iff, ← List.findSome?_eq_none_iff]
  rw [Outcome.isOk_iff, Outcome.exists_ok_iff fun e => toRule_eq_error_iff]

/-! ## What does not count -/

theorem toRules_congr {rules' : List Block}
    (each : ∀ block ∈ rules, ∀ c, Resembles block c → c.toRule = block.toRule)
    (resemble : List.Forall₂ Resembles rules rules') : toRules rules' = toRules rules := by
  induction resemble with
  | nil => rfl
  | cons head _ ih =>
    rw [List.forall_mem_cons] at each
    rw [toRules, toRules, each.1 _ head, ih each.2]

theorem Resembles.toRule_eq (resembles : Resembles b c) : c.toRule = b.toRule := by
  induction b using inductionOn generalizing c with
  | mk wrapped field operator slots rules ih =>
    obtain ⟨wrapped', field', operator', slots', rules'⟩ := c
    cases resembles with
    | group named sameField each =>
      obtain rfl : field' = field := sameField
      have sameRules := toRules_congr (fun block member _ => ih block member) each
      rw [toRule, toRule, sameRules, Connective.ofName?_eq_some_iff.mpr named]
    | leaf plain sameField sameOperator agree =>
      obtain rfl : field' = field := sameField
      obtain rfl : operator' = operator := sameOperator
      rw [toRule, toRule, plain, agree.literal?_eq]

theorem forall₂_bareAll (each : ∀ block ∈ rules, Resembles block block.bare) :
    List.Forall₂ Resembles rules (bareAll rules) := by
  induction rules with
  | nil => exact .nil
  | cons first rest ih =>
    rw [List.forall_mem_cons] at each
    exact .cons each.1 (ih each.2)

theorem resembles_bare (b : Block) : Resembles b b.bare := by
  induction b using inductionOn with
  | mk wrapped field operator slots rules ih =>
    cases named : Connective.ofName? field with
    | some connective =>
      exact .group (Connective.ofName?_eq_some_iff.mp named) rfl (forall₂_bareAll ih)
    | none => exact .leaf named rfl rfl fun _ _ _ _ _ => rfl

/-- A block stands for one rule, of the same shape: there is one if and only if the moments that
count can be read, and else the first one that cannot is the error. What does not count may be
changed, and entries may be wrapped or not. -/
theorem shape_of_toRule (b : Block) :
    (b.toRule.isOk = true ↔ ∀ c ∈ b.comparisons, c.Readable) ∧
    (∀ rule, b.toRule = .ok rule ↔ StandsFor b rule) ∧
    (∀ rule, b.toRule = .ok rule → List.Forall₂ Makes b.comparisons rule.conditions) ∧
    (∀ e, b.toRule = .error e ↔ b.comparisons.findSome? fault? = some e) ∧
    (∀ c, Resembles b c → c.toRule = b.toRule) ∧
    ∀ c : Block, c.bare = b.bare → c.toRule = b.toRule := by
  refine ⟨toRule_isOk_iff, fun rule => toRule_eq_ok_iff, fun rule converted => ?_,
    fun e => toRule_eq_error_iff, fun c resembles => resembles.toRule_eq, fun c same => ?_⟩
  · exact (toRule_eq_ok_iff.mp converted).conditions
  · rw [← (resembles_bare c).toRule_eq, same, (resembles_bare b).toRule_eq]

/-- A comparison with a number, or one with a day; the text in the slot for a time cannot be
read. -/
def young : Block where
  wrapped := false
  field := "or"
  operator := ""
  slots := ⟨none, none, none, some "someday", none, none⟩
  rules :=
    [⟨true, "age", "lt", ⟨some "12", some (.ofRat (187 / 10)), some " ", none, none, none⟩, []⟩,
      ⟨false, "born", "after", ⟨none, none, none, some "2007-01-01", some "noon", none⟩, []⟩]

/-- The time cannot be read, but the day goes first; without it the time is an error. -/
theorem shape_of_young :
    young.toRule = .ok (.group .or [.leaf ⟨"age", "lt", some (.number (.ofInt 18))⟩,
      .leaf ⟨"born", "after", some (.number (.ofInt 1167609600))⟩]) ∧
    young.bare.toRule = young.toRule ∧
    (⟨false, "and", "is", ⟨none, none, none, none, none, none⟩, [young,
        ⟨true, "born", "is", ⟨some "2007", none, none, some "\t", some "noon", none⟩, [young]⟩]⟩ :
      Block).toRule = .error (.invalidTimestamp "born" "value_time" "noon") := by
  refine ⟨((shape_of_toRule young).2.1 _).mpr (.group rfl (.cons ?_ (.cons ?_ .nil))), ?_, ?_⟩
  · refine .leaf rfl ⟨rfl, rfl, ?_⟩
    have whole : (Scalar.ofRat (187 / 10)).trunc = .ofInt 18 := by decide +kernel
    rw [← whole]
    exact .number rfl
  · have read : Timestamp.ofText? "2007-01-01" = some 1167609600 := by decide +kernel
    exact .leaf rfl ⟨rfl, rfl, .moment (by rfl) (by rfl) read⟩
  · exact (shape_of_toRule young).2.2.2.2.1 _ (resembles_bare young)
  · exact ((shape_of_toRule _).2.2.2.1 _).mpr (by decide +kernel)

end Block

end FormLogic
