import FormLogic.Json.Draft
import FormLogic.Proofs.Entries

/-!
# Values in order

The value that a document denotes has its members in order, each name once. Nothing is left to put
in order in such a value, and putting in order nests nothing deeper.
-/

namespace FormLogic

namespace Json

/-! ## Order -/

theorem mem_of_mem_insertIfNew {name : String} {value : Json} {members : List Member}
    {member : Member} (inside : member ∈ insertIfNew name value members) :
    member = (name, value) ∨ member ∈ members := by
  induction members with
  | nil => exact .inl (List.mem_singleton.mp inside)
  | cons first rest ih =>
    rw [insertIfNew] at inside
    split at inside
    · exact List.mem_cons.mp inside
    · split at inside
      · exact .inr inside
      · rcases List.mem_cons.mp inside with rfl | inRest
        · exact .inr List.mem_cons_self
        · exact (ih inRest).imp_right (List.mem_cons_of_mem _)

theorem canonicalItems_eq (items : List Json) : canonicalItems items = items.map canonical := by
  induction items with
  | nil => rfl
  | cons item rest ih => rw [canonicalItems, List.map_cons, ih]

theorem canonicalMembers_eq (members : List Member) :
    canonicalMembers members = sortMembers (members.map fun m => (m.1, m.2.canonical)) := by
  induction members with
  | nil => rfl
  | cons first rest ih => rw [canonicalMembers, List.map_cons, sortMembers, ih]

/-- An array of values in order is in order. -/
theorem canonical_array {items : List Json} (each : ∀ item ∈ items, item.canonical = item) :
    (array items).canonical = array items := by
  rw [canonical, canonicalItems_eq, List.map_congr_left each, List.map_id']

/-- An object of values in order with sorted names is in order. -/
theorem canonical_object {members : List Member}
    (sorted : (members.map Prod.fst).Pairwise (· < ·))
    (each : ∀ member ∈ members, member.2.canonical = member.2) :
    (object members).canonical = object members := by
  have same : (members.map fun m => (m.1, m.2.canonical)) = members.map id := by
    apply List.map_congr_left
    intro member inside
    rw [each member inside]
    rfl
  rw [List.map_id] at same
  rw [canonical, canonicalMembers_eq, same, sortMembers_eq_self sorted]

mutual

/-- A value is in order once it has been put in order. -/
theorem canonical_canonical : (j : Json) → j.canonical.canonical = j.canonical
  | null | bool _ | number _ | string _ => rfl
  | array items => canonical_array (canonical_of_mem_items items)
  | object members => by
    have sorted : ((canonicalMembers members).map Prod.fst).Pairwise (· < ·) := by
      rw [canonicalMembers_eq]
      exact pairwise_sortMembers _
    exact canonical_object sorted (canonical_of_mem_members members)

theorem canonical_of_mem_items :
    (items : List Json) → ∀ item ∈ canonicalItems items, item.canonical = item
  | [] => List.forall_mem_nil _
  | first :: rest => by
    rw [canonicalItems, List.forall_mem_cons]
    exact ⟨canonical_canonical first, canonical_of_mem_items rest⟩

theorem canonical_of_mem_members :
    (members : List Member) → ∀ member ∈ canonicalMembers members, member.2.canonical = member.2
  | [] => List.forall_mem_nil _
  | (name, value) :: rest => by
    intro member inside
    rcases mem_of_mem_insertIfNew inside with rfl | inRest
    · exact canonical_canonical value
    · exact canonical_of_mem_members rest member inRest

end

/-! ## Depth -/

mutual

/-- How many containers a value has around its innermost part. -/
def depth : Json → Nat
  | array items => depthOfItems items + 1
  | object members => depthOfMembers members + 1
  | null | bool _ | number _ | string _ => 0

def depthOfItems : List Json → Nat
  | [] => 0
  | item :: rest => max (depth item) (depthOfItems rest)

def depthOfMembers : List Member → Nat
  | [] => 0
  | (_, value) :: rest => max (depth value) (depthOfMembers rest)

end

theorem depthOfItems_le_iff {items : List Json} {bound : Nat} :
    depthOfItems items ≤ bound ↔ ∀ item ∈ items, item.depth ≤ bound := by
  induction items with
  | nil => simp [depthOfItems]
  | cons first rest ih => rw [depthOfItems, Nat.max_le, ih, List.forall_mem_cons]

theorem depthOfMembers_le_iff {members : List Member} {bound : Nat} :
    depthOfMembers members ≤ bound ↔ ∀ member ∈ members, member.2.depth ≤ bound := by
  induction members with
  | nil => simp [depthOfMembers]
  | cons first rest ih =>
    obtain ⟨name, value⟩ := first
    rw [depthOfMembers, Nat.max_le, ih, List.forall_mem_cons]

mutual

theorem depth_canonical_le : (j : Json) → j.canonical.depth ≤ j.depth
  | null | bool _ | number _ | string _ => Nat.le_refl 0
  | array items => Nat.succ_le_succ (depthOfItems_canonicalItems_le items)
  | object members => Nat.succ_le_succ (depthOfMembers_canonicalMembers_le members)

theorem depthOfItems_canonicalItems_le :
    (items : List Json) → depthOfItems (canonicalItems items) ≤ depthOfItems items
  | [] => Nat.le_refl 0
  | first :: rest => by
    have head := depth_canonical_le first
    have tail := depthOfItems_canonicalItems_le rest
    rw [canonicalItems, depthOfItems, depthOfItems]
    omega

theorem depthOfMembers_canonicalMembers_le :
    (members : List Member) → depthOfMembers (canonicalMembers members) ≤ depthOfMembers members
  | [] => Nat.le_refl 0
  | (name, value) :: rest => by
    have head := depth_canonical_le value
    have tail := depthOfMembers_le_iff.mp (depthOfMembers_canonicalMembers_le rest)
    rw [depthOfMembers_le_iff, depthOfMembers]
    intro member inside
    rcases mem_of_mem_insertIfNew inside with rfl | inRest
    · exact Nat.le_trans head (Nat.le_max_left _ _)
    · exact Nat.le_trans (tail member inRest) (Nat.le_max_right _ _)

end

mutual

/-- The value of a document nests no deeper than there was room for. -/
theorem depth_le_of_toJson? {room : Nat} {j : Json} :
    (d : Draft) → d.toJson? room = some j → j.depth ≤ room
  | .null, read => by
    cases read
    exact Nat.zero_le room
  | .bool value, read => by
    cases read
    exact Nat.zero_le room
  | .number numeral, read => by
    obtain ⟨n, _, rfl⟩ := Option.map_eq_some_iff.mp read
    exact Nat.zero_le room
  | .string units, read => by
    obtain ⟨text, _, rfl⟩ := Option.map_eq_some_iff.mp read
    exact Nat.zero_le room
  | .array items, read => by
    cases room with
    | zero => cases read
    | succ room =>
      rw [Draft.toJson?] at read
      obtain ⟨values, each, rfl⟩ := Option.map_eq_some_iff.mp read
      exact Nat.succ_le_succ (depthOfItems_le_of_itemsToJson? items each)
  | .object members, read => by
    cases room with
    | zero => cases read
    | succ room =>
      rw [Draft.toJson?] at read
      obtain ⟨values, each, rfl⟩ := Option.map_eq_some_iff.mp read
      exact Nat.succ_le_succ (depthOfMembers_le_of_membersToJson? members each)

theorem depthOfItems_le_of_itemsToJson? {room : Nat} {values : List Json} :
    (items : List Draft) → Draft.itemsToJson? room items = some values →
      depthOfItems values ≤ room
  | [], read => by
    cases read
    exact Nat.zero_le room
  | item :: rest, read => by
    obtain ⟨first, readFirst, read⟩ := Option.bind_eq_some_iff.mp read
    obtain ⟨others, readRest, read⟩ := Option.bind_eq_some_iff.mp read
    cases read
    exact Nat.max_le.mpr ⟨depth_le_of_toJson? item readFirst,
      depthOfItems_le_of_itemsToJson? rest readRest⟩

theorem depthOfMembers_le_of_membersToJson? {room : Nat} {values : List Member} :
    (members : List (List TextUnit × Draft)) → Draft.membersToJson? room members = some values →
      depthOfMembers values ≤ room
  | [], read => by
    cases read
    exact Nat.zero_le room
  | (_, d) :: rest, read => by
    obtain ⟨name, _, read⟩ := Option.bind_eq_some_iff.mp read
    obtain ⟨first, readFirst, read⟩ := Option.bind_eq_some_iff.mp read
    obtain ⟨others, readRest, read⟩ := Option.bind_eq_some_iff.mp read
    cases read
    exact Nat.max_le.mpr ⟨depth_le_of_toJson? d readFirst,
      depthOfMembers_le_of_membersToJson? rest readRest⟩

end

/-! ## Values of texts -/

/-- The value of a text is in order and nests no deeper than what is read may. -/
theorem of_valueOfText? {text : String} {j : Json} (read : valueOfText? text = some j) :
    j.canonical = j ∧ j.depth ≤ Draft.maxDepth := by
  obtain ⟨written, readWritten, rfl⟩ := Option.map_eq_some_iff.mp read
  obtain ⟨d, _, read⟩ := Option.bind_eq_some_iff.mp readWritten
  exact ⟨canonical_canonical written,
    Nat.le_trans (depth_canonical_le written) (depth_le_of_toJson? d read)⟩

end Json

end FormLogic
