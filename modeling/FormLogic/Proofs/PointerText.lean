import FormLogic.Json.Pointer

/-!
# Texts of pointers

The text of a pointer determines the pointer, as far as its names neither hold a slash nor look like
positions (`Json.Key.Plain`): every step is what stands between two slashes.
-/

namespace FormLogic

namespace Json

/-- What comes before the first slash of a text is determined, and so is the rest. -/
theorem split_at_slash {a b x y : List Char} (noSlashA : '/' ∉ a) (noSlashB : '/' ∉ b)
    (slashX : ∀ c ∈ x.head?, c = '/') (slashY : ∀ c ∈ y.head?, c = '/') (same : a ++ x = b ++ y) :
    a = b ∧ x = y := by
  induction a generalizing b with
  | nil =>
    cases b with
    | nil => exact ⟨rfl, same⟩
    | cons c b =>
      rw [List.nil_append, List.cons_append] at same
      have isSlash : c = '/' := slashX c (by rw [same]; rfl)
      exact absurd List.mem_cons_self (isSlash ▸ noSlashB)
  | cons c a ih =>
    cases b with
    | nil =>
      rw [List.nil_append, List.cons_append] at same
      have isSlash : c = '/' := slashY c (by rw [← same]; rfl)
      exact absurd List.mem_cons_self (isSlash ▸ noSlashA)
    | cons d b =>
      rw [List.cons_append, List.cons_append, List.cons.injEq] at same
      rw [List.mem_cons, not_or] at noSlashA noSlashB
      obtain ⟨rfl, rfl⟩ := ih noSlashA.2 noSlashB.2 same.2
      exact ⟨by rw [same.1], rfl⟩

/-! ## Steps -/

namespace Key

/-- A step whose text can be told from the others: a position, or a name that holds no slash and
does not look like a position. -/
def Plain : Key → Prop
  | name text => '/' ∉ text.toList ∧ ∃ c ∈ text.toList, c.isDigit = false
  | index _ => True

theorem text_index_isDigit {position : Nat} {c : Char}
    (member : c ∈ (index position).text.toList) : c.isDigit = true := by
  rw [text, String.toList_ofList] at member
  exact Nat.isDigit_of_mem_toDigits (by decide) (by decide) member

theorem slash_not_mem {key : Key} (plain : key.Plain) : '/' ∉ key.text.toList := by
  cases key with
  | name text => exact plain.1
  | index position =>
    intro member
    have digit := text_index_isDigit member
    exact absurd digit (by decide)

theorem index_text_inj {m n : Nat} (same : (index m).text = (index n).text) : m = n := by
  have sameDigits : Nat.toDigits 10 m = Nat.toDigits 10 n := by
    have chars := congrArg String.toList same
    rwa [text, text, String.toList_ofList, String.toList_ofList] at chars
  rw [← Nat.ofDigitChars_ten_toDigits (n := m), sameDigits, Nat.ofDigitChars_ten_toDigits]

theorem text_name_ne_index {name : String} {position : Nat} (plain : (Key.name name).Plain) :
    name ≠ (index position).text := by
  rintro rfl
  obtain ⟨_, c, member, noDigit⟩ := plain
  rw [text_index_isDigit member] at noDigit
  cases noDigit

theorem text_inj {k l : Key} (plainK : k.Plain) (plainL : l.Plain) (same : k.text = l.text) :
    k = l := by
  cases k with
  | name s =>
    cases l with
    | name t => exact congrArg name same
    | index n => exact absurd same (text_name_ne_index plainK)
  | index m =>
    cases l with
    | name t => exact absurd same.symm (text_name_ne_index plainL)
    | index n => rw [index_text_inj same]

end Key

/-! ## Pointers -/

namespace Pointer

theorem text_append (p q : Pointer) : text (p ++ q) = text p ++ text q := by
  rw [text, text, text, List.map_append, String.join_append]

theorem toList_text_cons (key : Key) (p : Pointer) :
    (text (key :: p)).toList = '/' :: (key.text.toList ++ (text p).toList) := by
  rw [text, List.map_cons, String.join_cons, String.toList_append, String.toList_append]
  rfl

theorem slash_of_head {p : Pointer} {c : Char} (head : c ∈ (text p).toList.head?) : c = '/' := by
  cases p with
  | nil => cases head
  | cons key p =>
    rw [toList_text_cons] at head
    exact (Option.some.inj head).symm

/-- If the text of a pointer goes on after the first step, then so do the texts that begin with
it. -/
theorem text_cons_append {k l : Key} {p q : Pointer} {rest : String} (plainK : k.Plain)
    (plainL : l.Plain) (goesOn : p ≠ []) (same : text (k :: p) ++ rest = text (l :: q)) :
    k = l ∧ text p ++ rest = text q := by
  have chars := congrArg String.toList same
  rw [String.toList_append, toList_text_cons, toList_text_cons, List.cons_append,
    List.append_assoc, List.cons.injEq, ← String.toList_append] at chars
  have slash : ∀ c ∈ (text p ++ rest).toList.head?, c = '/' := by
    intro c head
    cases p with
    | nil => exact absurd rfl goesOn
    | cons m p =>
      rw [String.toList_append, toList_text_cons] at head
      exact (Option.some.inj head).symm
  obtain ⟨first, others⟩ := split_at_slash (Key.slash_not_mem plainK) (Key.slash_not_mem plainL)
    slash (fun c => slash_of_head) chars.2
  exact ⟨Key.text_inj plainK plainL (String.toList_inj.mp first), String.toList_inj.mp others⟩

/-- Plain pointers with one text are one pointer. -/
theorem text_inj {p q : Pointer} (plainP : ∀ key ∈ p, key.Plain) (plainQ : ∀ key ∈ q, key.Plain)
    (same : text p = text q) : p = q := by
  induction p generalizing q with
  | nil =>
    cases q with
    | nil => rfl
    | cons l q =>
      have chars := congrArg String.toList same
      rw [toList_text_cons] at chars
      cases chars
  | cons k p ih =>
    cases q with
    | nil =>
      have chars := congrArg String.toList same
      rw [toList_text_cons] at chars
      cases chars
    | cons l q =>
      rw [List.forall_mem_cons] at plainP plainQ
      have chars := congrArg String.toList same
      rw [toList_text_cons, toList_text_cons, List.cons.injEq] at chars
      obtain ⟨first, others⟩ := split_at_slash (Key.slash_not_mem plainP.1)
        (Key.slash_not_mem plainQ.1) (fun c => slash_of_head) (fun c => slash_of_head) chars.2
      rw [Key.text_inj plainP.1 plainQ.1 (String.toList_inj.mp first),
        ih plainP.2 plainQ.2 (String.toList_inj.mp others)]

end Pointer

end Json

end FormLogic
