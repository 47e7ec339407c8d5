import FormLogic.Proofs.Answering
import FormLogic.Proofs.AuthoredMoments

/-!
# Lists as sets

A list literal counts as the set of its texts: their order and their repetitions are never seen. To
be among several texts is to be among one of them, which is to be that text or to hold it as an
option picked (`lists_mean_their_elements`).
-/

namespace FormLogic

/-! ## Parts of texts -/

theorem Text.occursIn_self (cs : List Char) : occursIn cs cs = true := by
  cases cs with
  | nil => rfl
  | cons c rest =>
    have whole : (c :: rest).isPrefixOf (c :: rest) = true :=
      List.isPrefixOf_iff_prefix.mpr List.prefix_rfl
    rw [occursIn, whole, Bool.true_or]

theorem KeySet.eq_ofList_iff {keys : KeySet} {items : List String} :
    keys = ofList items ↔ ∀ key, key ∈ keys ↔ key ∈ items := by
  constructor
  · rintro rfl key
    exact mem_ofList
  · intro same
    exact ext_mem fun key => (same key).trans mem_ofList.symm

namespace FieldValue

/-! ## Worded values and single texts -/

/-- Whether a worded value is a text, or has picked the option with this key. -/
def has : FieldValue → String → Bool
  | text value, key => value == key
  | choice picked, key => picked == some key
  | choices picked, key => decide (key ∈ picked)
  | number _, _ | timestamp _, _ | checked _, _ | notComparable, _ => false

theorem isAmong?_eq {value : FieldValue} (worded : value.isWorded = true) (items : List String) :
    value.isAmong? items = some (items.any value.has) := by
  cases value with
  | text value => exact congrArg some List.contains_eq_any_beq
  | choice picked =>
    cases picked with
    | none => simp [isAmong?, has]
    | some key => exact congrArg some List.contains_eq_any_beq
  | choices picked =>
    have common : picked.toList.any items.contains = items.any (has (choices picked)) := by
      rw [Bool.eq_iff_iff, List.any_eq_true, List.any_eq_true]
      simp only [List.contains_iff_mem, has, decide_eq_true_eq]
      exact ⟨fun ⟨key, isPicked, listed⟩ => ⟨key, listed, isPicked⟩,
        fun ⟨key, listed, isPicked⟩ => ⟨key, isPicked, listed⟩⟩
    exact congrArg some common
  | number value | timestamp seconds | checked value | notComparable => cases worded

theorem isAmong?_singleton {value : FieldValue} (worded : value.isWorded = true) (key : String) :
    value.isAmong? [key] = some (value.has key) := by
  rw [isAmong?_eq worded, List.any_cons, List.any_nil, Bool.or_false]

theorem equals?_choices_list {keys : KeySet} {items : List String} :
    (choices keys).equals? (.list items) = some true ↔ ∀ key, key ∈ keys ↔ key ∈ items := by
  rw [equals?, Option.some.injEq, beq_iff_eq, KeySet.eq_ofList_iff]

theorem equals?_choices_text {keys : KeySet} {key : String} :
    (choices keys).equals? (.text key) = some true ↔ ∀ other, other ∈ keys ↔ other = key := by
  rw [equals?, Option.some.injEq, beq_iff_eq, KeySet.eq_ofList_iff]
  simp only [List.mem_singleton]

/-- What is equal to a text contains it. -/
theorem contains?_of_equals? {value : FieldValue} (worded : value.isWorded = true) {key : String}
    (equal : value.equals? (.text key) = some true) : value.contains? (.text key) = some true := by
  cases value with
  | text value =>
    obtain rfl : value = key := by simpa [equals?, Literal.display] using equal
    exact congrArg some (Text.occursIn_self value.toList)
  | choice picked => exact equal
  | choices keys =>
    have member : key ∈ keys := (equals?_choices_text.mp equal key).mpr rfl
    rw [contains?, decide_eq_true member]
  | number value | timestamp seconds | checked value | notComparable => cases worded

/-! ## Lists with the same elements -/

theorem isAmong?_congr {items items' : List String} (same : ∀ key, key ∈ items ↔ key ∈ items')
    (value : FieldValue) : value.isAmong? items = value.isAmong? items' := by
  have sameContains (key : String) : items.contains key = items'.contains key := by
    rw [Bool.eq_iff_iff, List.contains_iff_mem, List.contains_iff_mem, same]
  cases value with
  | choice picked => simp only [isAmong?, funext sameContains]
  | choices picked => simp only [isAmong?, funext sameContains]
  | _ => simp only [isAmong?, sameContains]

theorem equals?_congr {items items' : List String} (same : ∀ key, key ∈ items ↔ key ∈ items')
    (value : FieldValue) : value.equals? (.list items) = value.equals? (.list items') := by
  have sameSet : KeySet.ofList items = KeySet.ofList items' :=
    KeySet.ext_mem fun key => by rw [KeySet.mem_ofList, KeySet.mem_ofList, same]
  cases value with
  | choices keys => simp only [equals?, sameSet]
  | _ => rfl

end FieldValue

namespace Operator

/-! ## Membership -/

/-- To be one of several texts is to be one of them alone, and to be none of them is to be none of
each. -/
theorem oneOf_list_iff {value : FieldValue} (worded : value.isWorded = true)
    (items : List String) :
    (oneOf.holds value (some (.list items)) = true ↔
      ∃ item ∈ items, oneOf.holds value (some (.text item)) = true) ∧
    (noneOf.holds value (some (.list items)) = true ↔
      ∀ item ∈ items, noneOf.holds value (some (.text item)) = true) := by
  simp only [holds, Option.bind_some, FieldValue.memberOf?, FieldValue.isAmong?_singleton worded,
    FieldValue.isAmong?_eq worded, beq_iff_eq, Option.some.injEq]
  exact ⟨List.any_eq_true, by simp only [List.any_eq_false, Bool.not_eq_true]⟩

/-- To be among one text alone is to be it, or to have picked it. -/
theorem oneOf_text {value : FieldValue} (worded : value.isWorded = true) (key : String) :
    oneOf.holds value (some (.text key)) = (some (value.has key) == some true) := by
  rw [holds, Option.bind_some, FieldValue.memberOf?, FieldValue.isAmong?_singleton worded]

/-- No operator sees in which order the texts of a list stand, nor how often. -/
theorem holds_list_congr {items items' : List String} (same : ∀ key, key ∈ items ↔ key ∈ items')
    (value : FieldValue) (op : Operator) :
    op.holds value (some (.list items)) = op.holds value (some (.list items')) := by
  have sameOrder : value.order? (.list items) = value.order? (.list items') := by
    cases value <;> rfl
  have sameParts : value.contains? (.list items) = value.contains? (.list items') := by
    cases value <;> rfl
  exact op.holds_congr sameOrder (FieldValue.equals?_congr same value) sameParts
    (FieldValue.isAmong?_congr same value)

/-- Lists count as sets. A text, or what is picked, is one of several texts if and only if it is one
of them alone, and none of them if and only if it is none of each. A text or a single choice is one
of one text if and only if it is equal to it, several choices if and only if they contain it; what
is equal to a text contains it. Several choices are equal to the list of exactly the keys picked,
and to a text if it is the only key picked. To no operator do lists with the same elements differ,
whatever the value. -/
theorem lists_mean_their_elements :
    (∀ value : FieldValue, value.isWorded = true → ∀ items,
      (oneOf.holds value (some (.list items)) = true ↔
        ∃ item ∈ items, oneOf.holds value (some (.text item)) = true) ∧
      (noneOf.holds value (some (.list items)) = true ↔
        ∀ item ∈ items, noneOf.holds value (some (.text item)) = true)) ∧
    (∀ typed key, oneOf.holds (.text typed) (some (.text key)) =
      equal.holds (.text typed) (some (.text key))) ∧
    (∀ picked key, oneOf.holds (.choice picked) (some (.text key)) =
      equal.holds (.choice picked) (some (.text key))) ∧
    (∀ keys key, oneOf.holds (.choices keys) (some (.text key)) =
      contains.holds (.choices keys) (some (.text key))) ∧
    (∀ value : FieldValue, value.isWorded = true → ∀ key,
      equal.holds value (some (.text key)) = true →
        contains.holds value (some (.text key)) = true) ∧
    (∀ keys items, equal.holds (.choices keys) (some (.list items)) = true ↔
      ∀ key, key ∈ keys ↔ key ∈ items) ∧
    (∀ keys key, equal.holds (.choices keys) (some (.text key)) = true ↔
      ∀ other, other ∈ keys ↔ other = key) ∧
    ∀ (op : Operator) (value : FieldValue) (items items' : List String),
      (∀ key, key ∈ items ↔ key ∈ items') →
        op.holds value (some (.list items)) = op.holds value (some (.list items')) := by
  refine ⟨fun value worded items => oneOf_list_iff worded items, fun _ key => oneOf_text rfl key,
    fun _ key => oneOf_text rfl key, fun _ key => oneOf_text rfl key, ?_, ?_, ?_,
    fun op value _ _ same => holds_list_congr same value op⟩
  · intro value worded key isEqual
    have equals : value.equals? (.text key) = some true := eq_of_beq isEqual
    exact beq_iff_eq.mpr (FieldValue.contains?_of_equals? worded equals)
  · intro keys items
    rw [holds, Option.bind_some, beq_iff_eq, FieldValue.equals?_choices_list]
  · intro keys key
    rw [holds, Option.bind_some, beq_iff_eq, FieldValue.equals?_choices_text]

/-- The first and the third option picked, and lists that repeat a key or lack one. -/
theorem travel_lists :
    oneOf.holds (.choices (KeySet.ofList ["c1", "c3"])) (some (.list ["c2", "c3", "c2"])) = true ∧
      equal.holds (.choices (KeySet.ofList ["c1", "c3"])) (some (.list ["c3", "c1", "c3"])) =
        equal.holds (.choices (KeySet.ofList ["c1", "c3"])) (some (.list ["c1", "c3"])) ∧
      contains.holds (.choices (KeySet.ofList ["c2"])) (some (.text "c2")) = true := by
  obtain ⟨amongAny, _, _, _, containsEqual, _, _, sameElements⟩ := lists_mean_their_elements
  refine ⟨?_, ?_, ?_⟩
  · exact (amongAny _ rfl _).1.mpr ⟨"c3", by decide, by decide⟩
  · exact sameElements .equal _ _ _ fun key => by simp only [List.mem_cons, List.not_mem_nil]; tauto
  · exact containsEqual _ rfl _ (by decide)

end Operator

end FormLogic
