import FormLogic.Json.Basic
import FormLogic.Text.KeySet

/-!
# Entries of objects

The entries of an object are its members sorted by name, one for each name. Leaving entries out
leaves the others in their order, so that an object of some entries of another has just these.
-/

namespace FormLogic

namespace Json

/-- The names of members are sorted in as the elements of a set are. -/
theorem map_fst_insertIfNew (name : String) (value : Json) (members : List Member) :
    (insertIfNew name value members).map Prod.fst = insertKey name (members.map Prod.fst) := by
  induction members with
  | nil => rfl
  | cons first rest ih =>
    obtain ⟨name', value'⟩ := first
    simp only [insertIfNew, List.map_cons, insertKey]
    by_cases before : name < name'
    · rw [if_pos before, if_pos before]
      rfl
    · rw [if_neg before, if_neg before]
      by_cases same : name = name'
      · rw [if_pos same, if_pos same]
        rfl
      · rw [if_neg same, if_neg same, List.map_cons, ih]

theorem map_fst_insert (name : String) (value : Json) (members : List Member) :
    (insert name value members).map Prod.fst = insertKey name (members.map Prod.fst) := by
  induction members with
  | nil => rfl
  | cons first rest ih =>
    obtain ⟨name', value'⟩ := first
    simp only [insert, List.map_cons, insertKey]
    by_cases before : name < name'
    · rw [if_pos before, if_pos before]
      rfl
    · rw [if_neg before, if_neg before]
      by_cases same : name = name'
      · rw [if_pos same, if_pos same, List.map_cons, same]
      · rw [if_neg same, if_neg same, List.map_cons, ih]

theorem pairwise_sortMembers (members : List Member) :
    ((sortMembers members).map Prod.fst).Pairwise (· < ·) := by
  induction members with
  | nil => exact .nil
  | cons first rest ih =>
    obtain ⟨name, value⟩ := first
    rw [sortMembers, map_fst_insertIfNew]
    exact pairwise_insertKey ih

/-- Members that are sorted already stay as they are. -/
theorem sortMembers_eq_self {members : List Member}
    (sorted : (members.map Prod.fst).Pairwise (· < ·)) : sortMembers members = members := by
  induction members with
  | nil => rfl
  | cons first rest ih =>
    obtain ⟨name, value⟩ := first
    rw [List.map_cons, List.pairwise_cons] at sorted
    rw [sortMembers, ih sorted.2]
    cases rest with
    | nil => rfl
    | cons second rest =>
      have before : name < second.1 := sorted.1 second.1 (by simp)
      rw [insertIfNew, if_pos before]

theorem pairwise_entries (j : Json) : (j.entries.map Prod.fst).Pairwise (· < ·) := by
  cases j with
  | object members => exact pairwise_sortMembers members
  | _ => exact .nil

/-- No name has two entries. -/
theorem nodup_entries (j : Json) : (j.entries.map Prod.fst).Nodup := by
  apply (pairwise_entries j).imp
  intro first second before same
  rw [same] at before
  exact String.lt_irrefl second before

/-- The object of some entries has just these. -/
theorem entries_object_filter (keep : Member → Bool) (j : Json) :
    (object (j.entries.filter keep)).entries = j.entries.filter keep := by
  apply sortMembers_eq_self
  apply List.Pairwise.sublist _ j.pairwise_entries
  exact List.filter_sublist.map Prod.fst

/-- The object without the members of some names. -/
def without (names : List String) (j : Json) : Json :=
  .object (j.entries.filter fun entry => !names.contains entry.1)

theorem entries_without (names : List String) (j : Json) :
    (j.without names).entries = j.entries.filter fun entry => !names.contains entry.1 :=
  entries_object_filter _ j

theorem lookup_without {names : List String} {name : String} (kept : name ∉ names) (j : Json) :
    (j.without names).entries.lookup name = j.entries.lookup name := by
  rw [entries_without]
  induction j.entries with
  | nil => rfl
  | cons first rest ih =>
    obtain ⟨name', value⟩ := first
    by_cases same : name = name'
    · subst same
      simp [kept]
    · have other : (name == name') = false := beq_eq_false_iff_ne.mpr same
      rw [List.lookup_cons, other, ← ih, List.filter_cons]
      split
      · rw [List.lookup_cons, other]
      · rfl

end Json

end FormLogic
