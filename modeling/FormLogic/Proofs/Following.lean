import FormLogic.Proofs.PointerText

/-!
# Following the text of a pointer

How a text is followed into a JSON value: it is cut at its slashes, and every piece names a member of
an object or a position in an array, with `~1` for a slash and `~0` for a tilde in a name. The text of
a pointer leads to where the pointer leads, as long as its names need none of this
(`Json.followText?_text`).
-/

namespace FormLogic

namespace Json

/-- A piece of the text with the slashes and tildes that it stands for. -/
def unescape : List Char → List Char
  | '~' :: '1' :: rest => '/' :: unescape rest
  | '~' :: '0' :: rest => '~' :: unescape rest
  | c :: rest => c :: unescape rest
  | [] => []

/-- The position that a piece of the text names: it is the number written in digits, without a zero
in front of others. -/
def position? (piece : List Char) : Option Nat :=
  let number := Nat.ofDigitChars 10 piece 0
  if Nat.toDigits 10 number = piece then some number else none

/-- The part of a value that a piece of the text leads to. -/
def step? (j : Json) (piece : List Char) : Option Json :=
  match j with
  | object _ => j.member? (String.ofList (unescape piece))
  | array items => (position? piece).bind (items[·]?)
  | _ => none

/-- The part of a value that a text leads to, which is empty or begins with a slash. -/
def followText? (j : Json) (text : String) : Option Json :=
  match text.toList.splitOn '/' with
  | [] :: pieces => pieces.foldlM step? j
  | _ => none

theorem unescape_of_not_mem {piece : List Char} (noTilde : '~' ∉ piece) :
    unescape piece = piece := by
  induction piece with
  | nil => rfl
  | cons c rest ih =>
    rw [List.mem_cons, not_or] at noTilde
    rw [unescape, ih noTilde.2]
    · intro _ same
      exact absurd same.symm noTilde.1
    · intro _ same
      exact absurd same.symm noTilde.1

theorem position?_text (position : Nat) :
    position? (Key.index position).text.toList = some position := by
  rw [Key.text, String.toList_ofList]
  unfold position?
  simp only [Nat.ofDigitChars_ten_toDigits, if_true]

/-- A piece of text leads where the step does that it is the text of. -/
theorem step?_text {j part : Json} {key : Key} (noTilde : '~' ∉ key.text.toList)
    (reached : j.child? key = some part) : j.step? key.text.toList = some part := by
  cases j with
  | object members =>
    cases key with
    | name text =>
      rw [step?, unescape_of_not_mem noTilde, String.ofList_toList]
      exact reached
    | index position => cases reached
  | array items =>
    cases key with
    | name text => cases reached
    | index position =>
      rw [step?, position?_text, Option.bind_some]
      exact reached
  | _ => cases reached

theorem foldlM_step?_text {j part : Json} {p : Pointer}
    (noTilde : ∀ key ∈ p, '~' ∉ key.text.toList) (reached : j.follow? p = some part) :
    (p.map fun key => key.text.toList).foldlM step? j = some part := by
  induction p generalizing j with
  | nil => exact reached
  | cons key p ih =>
    rw [List.forall_mem_cons] at noTilde
    rw [follow?_cons] at reached
    obtain ⟨next, first, rest⟩ := Option.bind_eq_some_iff.mp reached
    rw [List.map_cons, List.foldlM_cons, step?_text noTilde.1 first]
    exact ih noTilde.2 rest

/-- The pieces of the text of a pointer are the texts of its steps. -/
theorem splitOn_text {p : Pointer} (noSlash : ∀ key ∈ p, '/' ∉ key.text.toList) {before : List Char}
    (noSlashBefore : '/' ∉ before) :
    (before ++ (Pointer.text p).toList).splitOn '/' =
      before :: p.map fun key => key.text.toList := by
  induction p generalizing before with
  | nil =>
    rw [show (Pointer.text []).toList = [] from rfl, List.append_nil,
      List.splitOn_eq_singleton noSlashBefore]
    rfl
  | cons key p ih =>
    rw [List.forall_mem_cons] at noSlash
    rw [Pointer.toList_text_cons, List.splitOn_append_cons_self_of_not_mem noSlashBefore,
      ih noSlash.2 noSlash.1, List.map_cons]

/-- A step that stands in the text of a pointer as it is. -/
def Key.Verbatim (key : Key) : Prop :=
  '/' ∉ key.text.toList ∧ '~' ∉ key.text.toList

theorem Key.verbatim_index (position : Nat) : (Key.index position).Verbatim := by
  constructor
  · intro slash
    exact absurd (text_index_isDigit slash) (by decide)
  · intro tilde
    exact absurd (text_index_isDigit tilde) (by decide)

/-- The text of a pointer leads to where the pointer leads. -/
theorem followText?_text {j part : Json} {p : Pointer} (verbatim : ∀ key ∈ p, key.Verbatim)
    (reached : j.follow? p = some part) : j.followText? p.text = some part := by
  have pieces : p.text.toList.splitOn '/' = [] :: p.map fun key => key.text.toList :=
    splitOn_text (fun key member => (verbatim key member).1) List.not_mem_nil
  unfold followText?
  rw [pieces]
  exact foldlM_step?_text (fun key member => (verbatim key member).2) reached

end Json

end FormLogic
