/-!
# Sets of keys

A finite set of texts, kept as the increasing list of its elements in the order of their UTF-8
text. Two sets with the same elements are therefore equal (`KeySet.ext_mem`).
-/

namespace FormLogic

/-- An increasing list with one more element. -/
def insertKey (key : String) : List String → List String
  | [] => [key]
  | first :: rest =>
    if key < first then key :: first :: rest
    else if key = first then first :: rest
    else first :: insertKey key rest

theorem mem_insertKey {key x : String} {keys : List String} :
    x ∈ insertKey key keys ↔ x = key ∨ x ∈ keys := by
  induction keys with
  | nil => simp [insertKey]
  | cons first rest ih => grind [insertKey]

theorem pairwise_insertKey {key : String} {keys : List String}
    (h : keys.Pairwise (· < ·)) : (insertKey key keys).Pairwise (· < ·) := by
  induction keys with
  | nil => simp [insertKey]
  | cons first rest ih =>
    rw [List.pairwise_cons] at h
    rw [insertKey]
    split
    · next hlt =>
      refine List.pairwise_cons.2 ⟨fun x hx => ?_, List.pairwise_cons.2 h⟩
      rcases List.mem_cons.1 hx with rfl | hx
      · exact hlt
      · exact String.lt_trans hlt (h.1 x hx)
    · split
      · exact List.pairwise_cons.2 h
      · next hnlt hne =>
        refine List.pairwise_cons.2 ⟨fun x hx => ?_, ih h.2⟩
        rcases mem_insertKey.1 hx with rfl | hx
        · exact Std.lt_of_le_of_ne (String.not_lt.1 hnlt) (Ne.symm hne)
        · exact h.1 x hx

/-- Increasing lists with the same elements are equal: the first elements are the least ones. -/
theorem eq_of_pairwise_of_mem_iff {xs ys : List String} (hx : xs.Pairwise (· < ·))
    (hy : ys.Pairwise (· < ·)) (h : ∀ key, key ∈ xs ↔ key ∈ ys) : xs = ys := by
  induction xs generalizing ys with
  | nil =>
    cases ys with
    | nil => rfl
    | cons b ys => simpa using h b
  | cons a xs ih =>
    cases ys with
    | nil => simpa using h a
    | cons b ys =>
      rw [List.pairwise_cons] at hx hy
      have hab : a = b := by
        rcases List.mem_cons.1 ((h a).1 List.mem_cons_self) with rfl | ha
        · rfl
        · rcases List.mem_cons.1 ((h b).2 List.mem_cons_self) with rfl | hb
          · rfl
          · exact absurd (String.lt_trans (hx.1 b hb) (hy.1 a ha)) (String.lt_irrefl a)
      subst hab
      rw [ih hx.2 hy.2 fun key => ⟨fun hk => ?_, fun hk => ?_⟩]
      · exact (List.mem_cons.1 ((h key).1 (List.mem_cons_of_mem a hk))).resolve_left
          fun e => String.lt_irrefl a (e ▸ hx.1 key hk)
      · exact (List.mem_cons.1 ((h key).2 (List.mem_cons_of_mem a hk))).resolve_left
          fun e => String.lt_irrefl a (e ▸ hy.1 key hk)

/-- A finite set of texts. -/
structure KeySet where
  toList : List String
  sorted : toList.Pairwise (· < ·)
  deriving DecidableEq

namespace KeySet

def empty : KeySet :=
  ⟨[], List.Pairwise.nil⟩

def insert (key : String) (s : KeySet) : KeySet :=
  ⟨insertKey key s.toList, pairwise_insertKey s.sorted⟩

/-- The set of the elements of a list. -/
def ofList (keys : List String) : KeySet :=
  keys.foldr insert empty

instance : Membership String KeySet :=
  ⟨fun s key => key ∈ s.toList⟩

instance {key : String} {s : KeySet} : Decidable (key ∈ s) :=
  inferInstanceAs (Decidable (key ∈ s.toList))

@[simp] theorem mem_insert {key x : String} {s : KeySet} :
    x ∈ s.insert key ↔ x = key ∨ x ∈ s :=
  mem_insertKey

@[simp] theorem mem_ofList {x : String} {keys : List String} :
    x ∈ ofList keys ↔ x ∈ keys := by
  induction keys with
  | nil => simp [ofList, empty, Membership.mem]
  | cons key rest ih =>
    rw [show ofList (key :: rest) = (ofList rest).insert key from rfl, mem_insert, ih,
      List.mem_cons]

/-- Two sets with the same elements are equal. -/
theorem ext_mem {s t : KeySet} (h : ∀ key, key ∈ s ↔ key ∈ t) : s = t := by
  cases s with
  | mk xs hx =>
    cases t with
    | mk ys hy =>
      congr
      exact eq_of_pairwise_of_mem_iff hx hy h

end KeySet

end FormLogic
