import FormLogic.Json.Record
import FormLogic.Proofs.Rounding

/-!
# Numbers in JSON values

A whole number in JSON has 64 bits, with a sign or without. All values that are read from texts keep
to this, and so do the parts of a value that keeps to it; a number that does is finite as a double.
-/

namespace FormLogic

/-- Whether a number is of those that a JSON value can hold: a whole number of 64 bits, or any
floating one. -/
def Json.Number.Fits : Json.Number → Prop
  | whole value => -2 ^ 63 ≤ value ∧ value < 2 ^ 64
  | floating _ => True

theorem Json.Number.Fits.isFinite_toDouble {n : Json.Number} (fits : n.Fits) :
    n.toDouble.isFinite = true := by
  cases n with
  | floating value => rfl
  | whole value =>
    apply Scalar.isFinite_ofInt
    rw [Fits] at fits
    rw [abs_le]
    omega

namespace Json

/-- Whether all numbers in a value are of those that a JSON value can hold. -/
inductive Fits : Json → Prop where
  | null : Fits null
  | bool (value : Bool) : Fits (bool value)
  | number {n : Number} (fits : n.Fits) : Fits (number n)
  | string (value : String) : Fits (string value)
  | array {items : List Json} (each : ∀ item ∈ items, Fits item) : Fits (array items)
  | object {members : List Member} (each : ∀ member ∈ members, Fits member.2) :
      Fits (object members)

@[simp] theorem fits_string (value : String) : (string value).Fits :=
  .string value

@[simp] theorem fits_number_iff {n : Number} : (number n).Fits ↔ n.Fits := by
  constructor
  · rintro (_ | _ | fits)
    exact fits
  · exact .number

@[simp] theorem fits_array_iff {items : List Json} :
    (array items).Fits ↔ ∀ item ∈ items, item.Fits := by
  constructor
  · rintro (_ | _ | _ | _ | each)
    exact each
  · exact .array

@[simp] theorem fits_object_iff {members : List Member} :
    (object members).Fits ↔ ∀ member ∈ members, member.2.Fits := by
  constructor
  · rintro (_ | _ | _ | _ | _ | each)
    exact each
  · exact .object

/-! ## Values of texts -/

theorem fits_toNumber? {numeral : Numeral} {n : Number} (read : numeral.toNumber? = some n) :
    n.Fits := by
  simp only [Numeral.toNumber?] at read
  split at read
  · next small =>
    cases read
    have bound : digitsValue numeral.whole < 2 ^ 64 :=
      of_decide_eq_true (Bool.and_eq_true_iff.mp small).2
    rw [Number.Fits]
    omega
  · split at read
    · next small =>
      cases read
      have bound : 2 * digitsValue numeral.whole ≤ 2 ^ 64 :=
        of_decide_eq_true (Bool.and_eq_true_iff.mp small).2
      rw [Number.Fits]
      omega
    · obtain ⟨r, _, rfl⟩ := Option.map_eq_some_iff.mp read
      trivial

mutual

theorem fits_toJson? {room : Nat} {j : Json} :
    (d : Draft) → d.toJson? room = some j → j.Fits
  | .null, read => by
    cases read
    exact .null
  | .bool value, read => by
    cases read
    exact .bool value
  | .number numeral, read => by
    obtain ⟨n, number, rfl⟩ := Option.map_eq_some_iff.mp read
    exact .number (fits_toNumber? number)
  | .string units, read => by
    obtain ⟨value, _, rfl⟩ := Option.map_eq_some_iff.mp read
    exact .string value
  | .array items, read => by
    cases room with
    | zero => cases read
    | succ room =>
      rw [Draft.toJson?] at read
      obtain ⟨values, each, rfl⟩ := Option.map_eq_some_iff.mp read
      exact .array (fits_itemsToJson? items each)
  | .object members, read => by
    cases room with
    | zero => cases read
    | succ room =>
      rw [Draft.toJson?] at read
      obtain ⟨values, each, rfl⟩ := Option.map_eq_some_iff.mp read
      exact .object (fits_membersToJson? members each)

theorem fits_itemsToJson? {room : Nat} {values : List Json} :
    (items : List Draft) → Draft.itemsToJson? room items = some values →
      ∀ value ∈ values, value.Fits
  | [], read => by
    cases read
    exact List.forall_mem_nil _
  | item :: rest, read => by
    obtain ⟨first, readFirst, read⟩ := Option.bind_eq_some_iff.mp read
    obtain ⟨others, readRest, read⟩ := Option.bind_eq_some_iff.mp read
    cases read
    rw [List.forall_mem_cons]
    exact ⟨fits_toJson? item readFirst, fits_itemsToJson? rest readRest⟩

theorem fits_membersToJson? {room : Nat} {values : List Member} :
    (members : List (List TextUnit × Draft)) → Draft.membersToJson? room members = some values →
      ∀ member ∈ values, member.2.Fits
  | [], read => by
    cases read
    exact List.forall_mem_nil _
  | (_, d) :: rest, read => by
    obtain ⟨name, _, read⟩ := Option.bind_eq_some_iff.mp read
    obtain ⟨first, readFirst, read⟩ := Option.bind_eq_some_iff.mp read
    obtain ⟨others, readRest, read⟩ := Option.bind_eq_some_iff.mp read
    cases read
    rw [List.forall_mem_cons]
    exact ⟨fits_toJson? d readFirst, fits_membersToJson? rest readRest⟩

end

/-- All numbers in the value of a text fit, whatever parts of it are looked at. -/
theorem fits_of_ofTextKnowing? {known : Draft → Draft} {text : String} {j : Json}
    (read : ofTextKnowing? known text = some j) : j.Fits := by
  obtain ⟨d, _, read⟩ := Option.bind_eq_some_iff.mp read
  exact fits_toJson? (known d) read

/-! ## Parts of values -/

/-- A value is an item of an array, or it is what a member of an object holds. -/
inductive Inside (value : Json) : Json → Prop where
  | item {items : List Json} (member : value ∈ items) : Inside value (array items)
  | member {members : List Member} {name : String} (member : (name, value) ∈ members) :
      Inside value (object members)

theorem Fits.inside {value j : Json} (fits : j.Fits) (inside : Inside value j) : value.Fits := by
  cases inside with
  | item member => exact fits_array_iff.mp fits value member
  | member member => exact fits_object_iff.mp fits _ member

theorem mem_of_onlyMember? {members : List Member} {name : String} {value : Json}
    (found : onlyMember? members name = some (some value)) : ∃ name', (name', value) ∈ members := by
  rw [onlyMember?] at found
  split at found
  · cases found
  · next name' _ only =>
    cases found
    exact ⟨name', List.mem_of_mem_filter (only ▸ List.mem_singleton_self _)⟩
  · cases found

/-- Each result of reading a list is that of one of its items. -/
theorem exists_of_mapM {α β : Type} {f : α → Option β} {items : List α} {values : List β}
    (read : items.mapM f = some values) :
    ∀ value ∈ values, ∃ item ∈ items, f item = some value := by
  induction items generalizing values with
  | nil =>
    cases read
    exact List.forall_mem_nil _
  | cons first rest ih =>
    rw [List.mapM_cons] at read
    obtain ⟨firstValue, found, read⟩ := Option.bind_eq_some_iff.mp read
    obtain ⟨others, readRest, read⟩ := Option.bind_eq_some_iff.mp read
    cases read
    rw [List.forall_mem_cons]
    refine ⟨⟨first, List.mem_cons_self, found⟩, ?_⟩
    intro value member
    obtain ⟨item, inside, same⟩ := ih readRest value member
    exact ⟨item, List.mem_cons_of_mem first inside, same⟩

/-- The parts of a record are inside it. -/
theorem inside_of_record? {j : Json} {names : List String} {parts : List (Option Json)}
    (read : j.record? names = some parts) {value : Json} (part : some value ∈ parts) :
    Inside value j := by
  cases j with
  | object members =>
    obtain ⟨name, _, found⟩ := exists_of_mapM read _ part
    obtain ⟨name', member⟩ := mem_of_onlyMember? found
    exact .member member
  | array items =>
    simp only [record?] at read
    split at read
    · cases read
      rw [List.mem_append, List.mem_map] at part
      rcases part with ⟨item, member, same⟩ | missing
      · cases same
        exact .item member
      · cases List.eq_of_mem_replicate missing
    · cases read
  | _ => cases read

/-- The parts of a record fit if the record does. -/
theorem fits_of_record? {j : Json} {names : List String} {parts : List (Option Json)}
    (fits : j.Fits) (read : j.record? names = some parts) :
    ∀ value, some value ∈ parts → value.Fits :=
  fun _ part => fits.inside (inside_of_record? read part)

end Json

end FormLogic
