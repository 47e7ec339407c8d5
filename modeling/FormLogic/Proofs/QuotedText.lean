import FormLogic.Json.Draft
import FormLogic.Json.Printer

/-!
# Quoted texts

A text that is printed in quotes is read as the text that it was, whatever characters it holds: a
character that is escaped is read from its escape, and every other one stands for itself
(`Token.Reader.foldlM_quote`).
-/

namespace FormLogic

/-! ## Single characters -/

/-- What a printed character is taken for: a control character without a letter of its own is
written as a code. -/
def TextUnit.ofPrinted (c : Char) : TextUnit :=
  if c.toNat < 0x20 ∧ c ∉ ['\x08', '\x0C', '\n', '\r', '\t'] then .code c.toNat else .char c

/-- The characters that printed characters are taken for are those characters. -/
theorem TextUnit.chars?_ofPrinted (cs : List Char) :
    TextUnit.chars? (cs.map TextUnit.ofPrinted) = some cs := by
  induction cs with
  | nil => rfl
  | cons c rest ih =>
    rw [List.map_cons, ofPrinted]
    by_cases coded : c.toNat < 0x20 ∧ c ∉ ['\x08', '\x0C', '\n', '\r', '\t']
    · have noHalf : ¬ (0xD800 ≤ c.toNat ∧ c.toNat < 0xDC00) ∧
          ¬ (0xDC00 ≤ c.toNat ∧ c.toNat < 0xE000) := by omega
      unfold chars?
      simp only [if_pos coded, if_neg noHalf.1, if_neg noHalf.2, ih, Char.ofNat_toNat,
        Option.map_some]
    · rw [if_neg coded, chars?, ih]
      rfl

namespace Token.Reader

theorem hexValue?_hexDigit {n : Nat} (small : n < 16) : hexValue? (Json.hexDigit n) = some n := by
  decide +revert

/-- A hexadecimal digit of an escaped unit. -/
theorem step?_hexDigit {n : Nat} (small : n < 16) (units : List TextUnit) (value left : Nat)
    (tokens : List Token) :
    step? ⟨.code units value left, tokens⟩ (Json.hexDigit n) =
      some (if left ≤ 1 then ⟨.string (.code (16 * value + n) :: units), tokens⟩
        else ⟨.code units (16 * value + n) (left - 1), tokens⟩) := by
  simp only [step?, hexValue?_hexDigit small, Option.map_some]

/-- Four hexadecimal digits are read as the code that they write. -/
theorem foldlM_code {n : Nat} (small : n < 0x100) (units : List TextUnit) (tokens : List Token) :
    ['\\', 'u', '0', '0', Json.hexDigit (n / 16), Json.hexDigit (n % 16)].foldlM step?
        ⟨.string units, tokens⟩ =
      some ⟨.string (.code n :: units), tokens⟩ := by
  have high : n / 16 < 16 := by omega
  have low : n % 16 < 16 := Nat.mod_lt _ (by decide)
  have value : 16 * (n / 16) + n % 16 = n := Nat.div_add_mod _ _
  calc ['\\', 'u', '0', '0', Json.hexDigit (n / 16), Json.hexDigit (n % 16)].foldlM step?
        ⟨.string units, tokens⟩
      = [Json.hexDigit (n / 16), Json.hexDigit (n % 16)].foldlM step?
          ⟨.code units 0 2, tokens⟩ := rfl
    _ = [Json.hexDigit (n % 16)].foldlM step? ⟨.code units (16 * 0 + n / 16) 1, tokens⟩ := by
      rw [List.foldlM_cons, step?_hexDigit high]
      rfl
    _ = some ⟨.string (.code n :: units), tokens⟩ := by
      rw [List.foldlM_cons, step?_hexDigit low, Nat.mul_zero, Nat.zero_add, value]
      rfl

/-- The escape of a character is read as that character. -/
theorem foldlM_escape (c : Char) (units : List TextUnit) (tokens : List Token) :
    (Json.escape c).foldlM step? ⟨.string units, tokens⟩ =
      some ⟨.string (TextUnit.ofPrinted c :: units), tokens⟩ := by
  unfold Json.escape
  split
  case h_8 notQuote notBackslash noBackspace noFeed noLine noReturn noTab =>
    by_cases control : c.toNat < 0x20
    · have noLetter : c ∉ ['\x08', '\x0C', '\n', '\r', '\t'] := by
        simp only [List.mem_cons, List.not_mem_nil, or_false, not_or]
        exact ⟨noBackspace, noFeed, noLine, noReturn, noTab⟩
      rw [if_pos control, foldlM_code (by omega), TextUnit.ofPrinted, if_pos ⟨control, noLetter⟩]
    · have itself : TextUnit.ofPrinted c = .char c := if_neg fun coded => control coded.1
      rw [if_neg control, itself, List.foldlM_cons]
      simp only [step?, if_neg notQuote, if_neg notBackslash, if_neg control]
      rfl
  all_goals rfl

/-! ## Quoted texts -/

theorem foldlM_escapes (cs : List Char) (units : List TextUnit) (tokens : List Token) :
    (cs.flatMap Json.escape).foldlM step? ⟨.string units, tokens⟩ =
      some ⟨.string ((cs.map TextUnit.ofPrinted).reverse ++ units), tokens⟩ := by
  induction cs generalizing units with
  | nil => rfl
  | cons c rest ih =>
    rw [List.flatMap_cons, List.foldlM_append, foldlM_escape, Option.bind_eq_bind,
      Option.bind_some, ih, List.map_cons, List.reverse_cons, List.append_assoc]
    rfl

/-- A text in quotes is read as a string of its characters. -/
theorem foldlM_quote (text : String) (tokens : List Token) :
    (Json.quote text).toList.foldlM step? ⟨.between, tokens⟩ =
      some ⟨.between, .string (text.toList.map TextUnit.ofPrinted) :: tokens⟩ := by
  have opened : step? ⟨.between, tokens⟩ '"' = some ⟨.string [], tokens⟩ := rfl
  have closed (units : List TextUnit) : ['"'].foldlM step? ⟨.string units, tokens⟩ =
      some ⟨.between, .string units.reverse :: tokens⟩ := rfl
  rw [Json.quote, String.toList_ofList, List.cons_append, List.foldlM_cons, opened,
    Option.bind_eq_bind, Option.bind_some, List.foldlM_append, foldlM_escapes,
    Option.bind_eq_bind, Option.bind_some, List.append_nil, closed, List.reverse_reverse]

end Token.Reader

theorem TextUnit.text?_ofPrinted (text : String) :
    TextUnit.text? (text.toList.map TextUnit.ofPrinted) = some text := by
  rw [text?, chars?_ofPrinted, Option.map_some, String.ofList_toList]

end FormLogic
