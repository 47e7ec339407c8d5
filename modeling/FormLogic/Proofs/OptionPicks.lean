import FormLogic.Form.FieldValue
import FormLogic.Proofs.Outcome
import Mathlib.Data.List.Count

/-!
# Options picked

The options picked are written as keys and read again, as keys or as labels. The keys of options are
told apart, and no label takes a key away from its option; so what is picked is read again as it
was, whatever the labels are (`picked_options_return`).
-/

namespace FormLogic

/-! ## Keys -/

theorem choiceKey_inj {i k : Nat} (same : choiceKey i = choiceKey k) : i = k := by
  have sameDigits : Nat.toDigits 10 (i + 1) = Nat.toDigits 10 (k + 1) :=
    List.tail_eq_of_cons_eq (String.ofList_injective same)
  have next : i + 1 = k + 1 := by
    rw [← Nat.ofDigitChars_ten_toDigits (n := i + 1), sameDigits, Nat.ofDigitChars_ten_toDigits]
  exact Nat.succ.inj next

theorem mem_pickedKeys_iff {first : Nat} {flags : List Bool} {key : String} :
    key ∈ pickedKeys first flags ↔
      ∃ index, flags[index]? = some true ∧ choiceKey (first + index) = key := by
  induction flags generalizing first with
  | nil => simp [pickedKeys]
  | cons flag rest ih =>
    have later : key ∈ pickedKeys (first + 1) rest ↔
        ∃ index, rest[index]? = some true ∧ choiceKey (first + (index + 1)) = key := by
      simp only [ih, Nat.add_assoc, Nat.add_comm 1]
    rw [pickedKeys, ← Nat.or_exists_add_one]
    cases flag with
    | false => simp [later]
    | true => simp [later, eq_comm]

theorem length_pickedKeys (first : Nat) (flags : List Bool) :
    (pickedKeys first flags).length = flags.count true := by
  induction flags generalizing first with
  | nil => rfl
  | cons flag rest ih => cases flag <;> simp [pickedKeys, ih]

/-- Flags are determined by which of them are set. -/
theorem flags_ext {flags flags' : List Bool} (length : flags.length = flags'.length)
    (set : ∀ index : Nat, flags[index]? = some true ↔ flags'[index]? = some true) : flags = flags' := by
  apply List.ext_getElem length
  intro index bound bound'
  have sameFlag := set index
  rw [List.getElem?_eq_getElem bound, List.getElem?_eq_getElem bound', Option.some.injEq,
    Option.some.injEq] at sameFlag
  exact Bool.eq_iff_iff.mpr sameFlag

/-! ## Options by name -/

/-- Which option a text names: the one with this key; or else, if no option has it, the first one
with this label. -/
inductive Names (choices : List String) (name : String) (index : Nat) : Prop where
  | byKey (bound : index < choices.length) (key : choiceKey index = name)
  | byLabel (noKey : ∀ k < choices.length, choiceKey k ≠ name)
      (label : choices[index]? = some name) (first : ∀ k < index, choices[k]? ≠ some name)

namespace Names

variable {choices : List String} {name : String} {index : Nat}

theorem bound (names : Names choices name index) : index < choices.length := by
  cases names with
  | byKey bound key => exact bound
  | byLabel noKey label first => exact (List.getElem?_eq_some_iff.mp label).1

theorem optionIndex?_eq_some_iff :
    optionIndex? choices name = some index ↔ Names choices name index := by
  have keyAt : ((List.range choices.length).find? fun k => choiceKey k == name) = some index ↔
      index < choices.length ∧ choiceKey index = name := by
    rw [List.find?_range_eq_some]
    simp only [beq_iff_eq, List.mem_range]
    constructor
    · rintro ⟨key, bound, _⟩
      exact ⟨bound, key⟩
    · rintro ⟨bound, key⟩
      refine ⟨key, bound, fun k before => ?_⟩
      rw [Bool.not_eq_true', beq_eq_false_iff_ne]
      intro keyToo
      exact Nat.ne_of_lt before (choiceKey_inj (keyToo.trans key.symm))
  have labelAt : choices.findIdx? (· == name) = some index ↔
      choices[index]? = some name ∧ ∀ k < index, choices[k]? ≠ some name := by
    rw [List.findIdx?_eq_some_iff_getElem, List.getElem?_eq_some_iff]
    simp only [beq_iff_eq]
    constructor
    · rintro ⟨bound, label, first⟩
      refine ⟨⟨bound, label⟩, fun k before labelToo => first k before ?_⟩
      exact (List.getElem?_eq_some_iff.mp labelToo).2
    · rintro ⟨⟨bound, label⟩, first⟩
      refine ⟨bound, label, fun k before labelToo => first k before ?_⟩
      exact List.getElem?_eq_some_iff.mpr ⟨Nat.lt_trans before bound, labelToo⟩
  rw [optionIndex?, Option.or_eq_some_iff, keyAt, labelAt, List.find?_eq_none]
  simp only [List.mem_range, beq_iff_eq]
  constructor
  · rintro (⟨bound, key⟩ | ⟨noKey, label, first⟩)
    · exact .byKey bound key
    · exact .byLabel noKey label first
  · rintro (⟨bound, key⟩ | ⟨noKey, label, first⟩)
    · exact .inl ⟨bound, key⟩
    · exact .inr ⟨noKey, label, first⟩

theorem unique {other : Nat} (names : Names choices name index)
    (names' : Names choices name other) : other = index :=
  Option.some.inj ((optionIndex?_eq_some_iff.mpr names').symm.trans
    (optionIndex?_eq_some_iff.mpr names))

theorem exists_iff : (∃ index, Names choices name index) ↔
    (∃ index < choices.length, name = choiceKey index) ∨ name ∈ choices := by
  constructor
  · rintro ⟨index, ⟨bound, key⟩ | ⟨noKey, label, first⟩⟩
    · exact .inl ⟨index, bound, key.symm⟩
    · exact .inr (List.mem_of_getElem? label)
  · intro known
    cases found : optionIndex? choices name with
    | some index => exact ⟨index, optionIndex?_eq_some_iff.mp found⟩
    | none =>
      rw [optionIndex?, Option.or_eq_none_iff, List.find?_eq_none,
        List.findIdx?_eq_none_iff] at found
      rcases known with ⟨index, bound, rfl⟩ | label
      · exact absurd (beq_self_eq_true _) (found.1 index (List.mem_range.mpr bound))
      · exact absurd rfl (beq_eq_false_iff_ne.mp (found.2 name label))

/-- The key of an option names that option and no other. -/
theorem choiceKey_iff {k : Nat} (bound : k < choices.length) :
    Names choices (choiceKey k) index ↔ index = k := by
  constructor
  · rintro (⟨_, key⟩ | ⟨noKey, _, _⟩)
    · exact choiceKey_inj key
    · exact absurd rfl (noKey k bound)
  · rintro rfl
    exact .byKey bound rfl

end Names

namespace Answer

variable {choices : List String} {flags : List Bool}

/-! ## Picks one after another -/

/-- Whether a JSON value is a text that names an option. -/
def Picks (choices : List String) (j : Json) (index : Nat) : Prop :=
  ∃ name, j = .string name ∧ Names choices name index

theorem exists_picks_iff {j : Json} : (∃ index, Picks choices j index) ↔
    ∃ name, j = .string name ∧
      ((∃ index < choices.length, name = choiceKey index) ∨ name ∈ choices) := by
  simp only [Picks, ← Names.exists_iff]
  constructor
  · rintro ⟨index, name, text, names⟩
    exact ⟨name, text, index, names⟩
  · rintro ⟨name, text, index, names⟩
    exact ⟨index, name, text, names⟩

theorem pick_eq_ok_iff {j : Json} {flags' : List Bool} :
    pick choices flags j = .ok flags' ↔
      ∃ index, Picks choices j index ∧ flags' = flags.set index true := by
  cases j with
  | string name =>
    simp only [pick, Picks, Json.string.injEq]
    cases found : optionIndex? choices name with
    | none =>
      have noName : ∀ index, ¬ Names choices name index := by
        intro index names
        cases found.symm.trans (Names.optionIndex?_eq_some_iff.mpr names)
      simp [noName]
    | some index =>
      have names := Names.optionIndex?_eq_some_iff.mp found
      constructor
      · intro picked
        cases picked
        exact ⟨index, ⟨name, rfl, names⟩, rfl⟩
      · rintro ⟨index', ⟨_, rfl, names'⟩, rfl⟩
        cases found.symm.trans (Names.optionIndex?_eq_some_iff.mpr names')
        rfl
  | null | bool value | number value | array items | object members => simp [pick, Picks]

/-- Where every pick names an option, an option is set at the end if it was before or is named. By
induction on the picks, with the flags set so far general. -/
theorem foldlM_pick (length : flags.length = choices.length) {picked : List Json}
    (each : ∀ j ∈ picked, ∃ index, Picks choices j index) :
    ∃ flags', picked.foldlM (pick choices) flags = .ok flags' ∧
      flags'.length = choices.length ∧
      ∀ index, flags'[index]? = some true ↔
        flags[index]? = some true ∨ ∃ j ∈ picked, Picks choices j index := by
  induction picked generalizing flags with
  | nil => exact ⟨flags, rfl, length, by simp⟩
  | cons j rest ih =>
    rw [List.forall_mem_cons] at each
    obtain ⟨⟨first, names⟩, others⟩ := each
    have lengthSet : (flags.set first true).length = choices.length :=
      List.length_set.trans length
    obtain ⟨flags', taken, length', set⟩ := ih lengthSet others
    refine ⟨flags', ?_, length', fun index => ?_⟩
    · rw [List.foldlM_cons, pick_eq_ok_iff.mpr ⟨first, names, rfl⟩]
      exact taken
    · have setFirst : (flags.set first true)[index]? = some true ↔
          flags[index]? = some true ∨ Picks choices j index := by
        obtain ⟨name, rfl, names⟩ := names
        by_cases here : index = first
        · subst here
          simp [length, names.bound, Picks, names]
        · have notNamed : ¬ Picks choices (.string name) index := by
            rintro ⟨_, same, names'⟩
            cases same
            exact here (names.unique names')
          rw [List.getElem?_set_ne (Ne.symm here)]
          simp [notNamed]
      rw [set, setFirst, List.exists_mem_cons_iff, or_assoc]

theorem picks_of_foldlM {picked : List Json} {flags' : List Bool}
    (taken : picked.foldlM (pick choices) flags = .ok flags') :
    ∀ j ∈ picked, ∃ index, Picks choices j index := by
  induction picked generalizing flags with
  | nil => exact List.forall_mem_nil _
  | cons j rest ih =>
    rw [List.foldlM_cons] at taken
    obtain ⟨next, first, others⟩ := Outcome.bind_eq_ok_iff.mp taken
    obtain ⟨index, names, _⟩ := pick_eq_ok_iff.mp first
    exact List.forall_mem_cons.mpr ⟨⟨index, names⟩, ih others⟩

/-! ## Answers of choice widgets -/

variable {w : Widget} {j : Json}

theorem ofJson_eq_of_hasChoices (offers : w.hasChoices = true) :
    ofJson w choices j =
      if w.kind = .singleChoice ∧ 1 < (picks j).length then .error .tooManyOptions
      else ((picks j).foldlM (pick choices) (List.replicate choices.length false)).map options := by
  unfold ofJson
  split
  · next kind => simp [Widget.hasChoices, kind, ValueKind.isChoice] at offers
  · rfl
  · rfl
  all_goals
    next kind => simp [Widget.hasChoices, kind, ValueKind.isChoice] at offers

/-- A choice widget takes texts that name options, a single choice at most one of them, and the
options that it holds then are those named. -/
theorem exists_ofJson (offers : w.hasChoices = true)
    (few : w.kind = .singleChoice → (picks j).length ≤ 1)
    (each : ∀ pick ∈ picks j, ∃ index, Picks choices pick index) :
    ∃ flags, ofJson w choices j = .ok (options flags) ∧ flags.length = choices.length ∧
      ∀ index, flags[index]? = some true ↔ ∃ pick ∈ picks j, Picks choices pick index := by
  have notMany : ¬ (w.kind = .singleChoice ∧ 1 < (picks j).length) :=
    fun many => Nat.not_lt.mpr (few many.1) many.2
  obtain ⟨flags, taken, length, set⟩ := foldlM_pick List.length_replicate each
  refine ⟨flags, ?_, length, fun index => ?_⟩
  · rw [ofJson_eq_of_hasChoices offers, if_neg notMany, taken]
    rfl
  · have noneBefore : (List.replicate choices.length false)[index]? ≠ some true := by
      simp [List.getElem?_replicate]
    rw [set, or_iff_right noneBefore]

theorem picks_of_ofJson (offers : w.hasChoices = true) {a : Answer}
    (read : ofJson w choices j = .ok a) :
    (w.kind = .singleChoice → (picks j).length ≤ 1) ∧
      ∀ pick ∈ picks j, ∃ index, Picks choices pick index := by
  rw [ofJson_eq_of_hasChoices offers] at read
  split at read
  · cases read
  · next notMany =>
    obtain ⟨flags, taken, _⟩ := Outcome.map_eq_ok_iff.mp read
    exact ⟨fun single => Nat.not_lt.mp fun many => notMany ⟨single, many⟩, picks_of_foldlM taken⟩

/-- Where exactly the keys of the options picked are named, in whatever order and however often,
the same options are picked again. -/
theorem ofJson_of_keys (offers : w.hasChoices = true) (length : flags.length = choices.length)
    {names : List String} (listed : picks j = names.map .string)
    (few : w.kind = .singleChoice → names.length ≤ 1)
    (keys : ∀ key, key ∈ names ↔ key ∈ pickedKeys 0 flags) :
    ofJson w choices j = .ok (options flags) := by
  have keyOf {name : String} (member : name ∈ names) :
      ∃ k < choices.length, flags[k]? = some true ∧ choiceKey k = name := by
    obtain ⟨k, set, key⟩ := mem_pickedKeys_iff.mp ((keys name).mp member)
    rw [Nat.zero_add] at key
    exact ⟨k, length ▸ (List.getElem?_eq_some_iff.mp set).1, set, key⟩
  have each : ∀ pick ∈ picks j, ∃ index, Picks choices pick index := by
    rw [listed, List.forall_mem_map]
    intro name member
    obtain ⟨k, bound, _, key⟩ := keyOf member
    exact ⟨k, name, rfl, .byKey bound key⟩
  have fewPicks : w.kind = .singleChoice → (picks j).length ≤ 1 := by
    rw [listed, List.length_map]
    exact few
  obtain ⟨flags', read, length', set⟩ := exists_ofJson offers fewPicks each
  have same : flags' = flags := by
    refine flags_ext (length'.trans length.symm) fun index => ?_
    rw [set, listed]
    constructor
    · rintro ⟨_, member, name, rfl, named⟩
      obtain ⟨_, member, same⟩ := List.mem_map.mp member
      cases same
      obtain ⟨k, bound, set, rfl⟩ := keyOf member
      rwa [(Names.choiceKey_iff bound).mp named]
    · intro set
      have picked : choiceKey index ∈ pickedKeys 0 flags :=
        mem_pickedKeys_iff.mpr ⟨index, set, by rw [Nat.zero_add]⟩
      have bound : index < choices.length := length ▸ (List.getElem?_eq_some_iff.mp set).1
      exact ⟨_, List.mem_map_of_mem ((keys _).mpr picked), _, rfl, .byKey bound rfl⟩
  rw [read, same]

/-- At most one option picked has at most one key, which is then the only one. -/
theorem mem_toList_head?_pickedKeys (atMostOne : flags.count true ≤ 1) (key : String) :
    key ∈ (pickedKeys 0 flags).head?.toList ↔ key ∈ pickedKeys 0 flags := by
  rw [← length_pickedKeys 0 flags] at atMostOne
  match pickedKeys 0 flags, atMostOne with
  | [], _ => rfl
  | [only], _ => rfl

/-- Options picked are read again as they were, whatever the labels are. A list of exactly the keys
that the options picked have as a value, in any order and with any repetitions, gives the same
options to a widget for several choices; and so does the key, alone or as a list, or nothing where
none is picked, to a widget for a single choice. In general a choice widget takes the texts that are
keys or labels of options, a single choice at most one of them; and it then holds the options whose
key is picked, and the first ones with a label that is picked and no option's key. -/
theorem picked_options_return (choices : List String) :
    (∀ flags : List Bool, flags.length = choices.length →
      (∀ w : Widget, w.kind = .multiChoice →
        ∃ keys, FieldValue.ofAnswer w (.options flags) = .choices keys ∧
          ∀ names : List String, (∀ key, key ∈ names ↔ key ∈ keys) →
            ofJson w choices (.array (names.map .string)) = .ok (.options flags)) ∧
      (∀ w : Widget, w.kind = .singleChoice → flags.count true ≤ 1 →
        ∃ key?, FieldValue.ofAnswer w (.options flags) = .choice key? ∧
          (key? = none ↔ flags.count true = 0) ∧
          (∀ key, key? = some key → ofJson w choices (.string key) = .ok (.options flags) ∧
            ofJson w choices (.array [.string key]) = .ok (.options flags)) ∧
          (key? = none → ofJson w choices .null = .ok (.options flags) ∧
            ofJson w choices (.array []) = .ok (.options flags)))) ∧
    ∀ w : Widget, w.hasChoices = true → ∀ j,
      ((∃ a, ofJson w choices j = .ok a) ↔
        (w.kind = .singleChoice → (picks j).length ≤ 1) ∧
          ∀ pick ∈ picks j, ∃ name, pick = .string name ∧
            ((∃ index < choices.length, name = choiceKey index) ∨ name ∈ choices)) ∧
      ∀ a, ofJson w choices j = .ok a →
        ∃ flags, a = .options flags ∧ flags.length = choices.length ∧
          ∀ index, flags[index]? = some true ↔
            ∃ name, .string name ∈ picks j ∧ Names choices name index := by
  refine ⟨fun flags length => ⟨?_, ?_⟩, ?_⟩
  · intro w kind
    have offers : w.hasChoices = true := by simp [Widget.hasChoices, kind, ValueKind.isChoice]
    refine ⟨KeySet.ofList (pickedKeys 0 flags), by simp [FieldValue.ofAnswer, kind], ?_⟩
    intro names keys
    simp only [KeySet.mem_ofList] at keys
    exact ofJson_of_keys offers length rfl (by simp [kind]) keys
  · intro w kind atMostOne
    have offers : w.hasChoices = true := by simp [Widget.hasChoices, kind, ValueKind.isChoice]
    have again {j : Json} (listed : picks j = (pickedKeys 0 flags).head?.toList.map .string) :
        ofJson w choices j = .ok (.options flags) :=
      ofJson_of_keys offers length listed (fun _ => Option.length_toList_le)
        (mem_toList_head?_pickedKeys atMostOne)
    refine ⟨(pickedKeys 0 flags).head?, by simp [FieldValue.ofAnswer, kind], ?_, ?_, ?_⟩
    · rw [List.head?_eq_none_iff, ← length_pickedKeys 0 flags, List.length_eq_zero_iff]
    · intro key first
      exact ⟨again (by rw [first]; rfl), again (by rw [first]; rfl)⟩
    · intro none
      exact ⟨again (by rw [none]; rfl), again (by rw [none]; rfl)⟩
  · intro w offers j
    simp only [← exists_picks_iff]
    constructor
    · constructor
      · rintro ⟨a, read⟩
        exact picks_of_ofJson offers read
      · rintro ⟨few, each⟩
        obtain ⟨flags, read, _⟩ := exists_ofJson offers few each
        exact ⟨_, read⟩
    · intro a read
      obtain ⟨few, each⟩ := picks_of_ofJson offers read
      obtain ⟨flags, read', length, set⟩ := exists_ofJson offers few each
      cases read.symm.trans read'
      refine ⟨flags, rfl, length, fun index => (set index).trans ?_⟩
      constructor
      · rintro ⟨_, member, name, rfl, names⟩
        exact ⟨name, member, names⟩
      · rintro ⟨name, member, names⟩
        exact ⟨_, member, name, rfl, names⟩

/-- Of three options the first is labelled with the key of the second, and the others alike. -/
theorem alike_options_return :
    let choices := ["c2", "red", "red"]
    ofJson .checkboxes choices (.array [.string "c3", .string "c1", .string "c3"]) =
        .ok (.options [true, false, true]) ∧
      ofJson .radio choices (.string "c2") = .ok (.options [false, true, false]) ∧
      ofJson .radio choices (.array [.string "c2"]) = .ok (.options [false, true, false]) ∧
      ∃ a, ofJson .dropdown choices (.string "red") = .ok a := by
  intro choices
  obtain ⟨returned, general⟩ := picked_options_return choices
  obtain ⟨several, _⟩ := returned [true, false, true] rfl
  obtain ⟨keys, value, again⟩ := several .checkboxes rfl
  obtain ⟨_, one⟩ := returned [false, true, false] rfl
  obtain ⟨key?, value', _, key, _⟩ := one .radio rfl (by decide)
  have isSecond : key? = some "c2" := by
    cases value'
    decide
  refine ⟨again ["c3", "c1", "c3"] ?_, (key "c2" isSecond).1, (key "c2" isSecond).2, ?_⟩
  · cases value
    intro key
    rw [KeySet.mem_ofList]
    have picked : pickedKeys 0 [true, false, true] = ["c1", "c3"] := by decide
    simp only [picked, List.mem_cons, List.not_mem_nil]
    tauto
  · refine (general .dropdown rfl (.string "red")).1.mpr ⟨fun _ => Nat.le_refl 1, ?_⟩
    exact List.forall_mem_singleton.mpr ⟨"red", rfl, .inr (by decide)⟩

end Answer

end FormLogic
