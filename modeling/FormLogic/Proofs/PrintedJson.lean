import FormLogic.Proofs.CanonicalJson
import FormLogic.Proofs.QuotedText
import Mathlib.Algebra.Group.Nat.Defs
import Mathlib.Data.List.TakeDrop
import Mathlib.Data.List.TakeWhile

/-!
# Printed JSON

What is printed, in whatever layout, is read as the value that it was, if each of its numbers is. A
printed value is cut into the tokens of its document, from which the document is built up again; and
the document has that value. Blanks between the tokens make no difference.
-/

namespace FormLogic

/-! ## Tokens of documents -/

namespace Draft

mutual

/-- The tokens that a document is written with. -/
def tokens : Draft → List Token
  | null => [.null]
  | bool value => [.bool value]
  | number numeral => [.number numeral]
  | string units => [.string units]
  | array [] => [.openArray, .closeArray]
  | array (first :: rest) => .openArray :: (tokens first ++ (laterItems rest ++ [.closeArray]))
  | object [] => [.openObject, .closeObject]
  | object ((name, first) :: rest) =>
    .openObject :: .string name :: .colon :: (tokens first ++ (laterMembers rest ++ [.closeObject]))

/-- The tokens of items that come after others. -/
def laterItems : List Draft → List Token
  | [] => []
  | item :: rest => .comma :: (tokens item ++ laterItems rest)

/-- The tokens of members that come after others. -/
def laterMembers : List (List TextUnit × Draft) → List Token
  | [] => []
  | (name, d) :: rest => .comma :: .string name :: .colon :: (tokens d ++ laterMembers rest)

end

namespace Builder

theorem foldlM_cons_of_step? {b next : Builder} {token : Token} (rest : List Token)
    (step : b.step? token = some next) :
    (token :: rest).foldlM step? b = rest.foldlM step? next := by
  rw [List.foldlM_cons, step]
  rfl

theorem foldlM_append_of_foldlM {b next : Builder} {before : List Token} (after : List Token)
    (run : before.foldlM step? b = some next) :
    (before ++ after).foldlM step? b = after.foldlM step? next := by
  rw [List.foldlM_append, run]
  rfl

/-- No document begins as an array ends. -/
theorem foldlM_tokens_valueOrClose (frames : List Frame) (result : Draft) (d : Draft) :
    d.tokens.foldlM step? ⟨frames, .valueOrClose, result⟩ =
      d.tokens.foldlM step? ⟨frames, .value, result⟩ := by
  cases d with
  | array items => cases items <;> rfl
  | object members => cases members <;> rfl
  | _ => rfl

mutual

/-- A document is built from its tokens. -/
theorem foldlM_tokens (frames : List Frame) (result : Draft) :
    (d : Draft) → d.tokens.foldlM step? ⟨frames, .value, result⟩ = some (complete frames d)
  | .null => rfl
  | .bool value => rfl
  | .number numeral => rfl
  | .string units => rfl
  | .array [] => rfl
  | .array (first :: rest) => by
    have built := foldlM_tokens (.array [] :: frames) .null first
    rw [← foldlM_tokens_valueOrClose] at built
    rw [tokens, foldlM_cons_of_step? _ rfl, foldlM_append_of_foldlM _ built, complete,
      foldlM_append_of_foldlM _ (foldlM_laterItems frames [first] rest),
      foldlM_cons_of_step? _ rfl, List.foldlM_nil, List.reverse_append, List.reverse_reverse]
    rfl
  | .object [] => rfl
  | .object ((name, first) :: rest) => by
    have built := foldlM_tokens (.object [] name :: frames) .null first
    obtain ⟨last, later⟩ := foldlM_laterMembers frames [(name, first)] name rest
    rw [tokens, foldlM_cons_of_step? _ rfl, foldlM_cons_of_step? _ rfl, foldlM_cons_of_step? _ rfl,
      foldlM_append_of_foldlM _ built, complete, foldlM_append_of_foldlM _ later,
      foldlM_cons_of_step? _ rfl, List.foldlM_nil, List.reverse_append, List.reverse_reverse]
    rfl

theorem foldlM_laterItems (frames : List Frame) (done : List Draft) :
    (items : List Draft) →
      (laterItems items).foldlM step? ⟨.array done :: frames, .commaOrClose, .null⟩ =
        some ⟨.array (items.reverse ++ done) :: frames, .commaOrClose, .null⟩
  | [] => rfl
  | item :: rest => by
    have built := foldlM_tokens (.array done :: frames) .null item
    rw [laterItems, foldlM_cons_of_step? _ rfl, foldlM_append_of_foldlM _ built, complete,
      foldlM_laterItems frames (item :: done) rest, List.reverse_cons, List.append_assoc]
    rfl

theorem foldlM_laterMembers (frames : List Frame) (done : List (List TextUnit × Draft))
    (name : List TextUnit) :
    (members : List (List TextUnit × Draft)) → ∃ last,
      (laterMembers members).foldlM step? ⟨.object done name :: frames, .commaOrClose, .null⟩ =
        some ⟨.object (members.reverse ++ done) last :: frames, .commaOrClose, .null⟩
  | [] => ⟨name, rfl⟩
  | (next, d) :: rest => by
    have built := foldlM_tokens (.object done next :: frames) .null d
    obtain ⟨last, later⟩ := foldlM_laterMembers frames ((next, d) :: done) next rest
    refine ⟨last, ?_⟩
    rw [laterMembers, foldlM_cons_of_step? _ rfl, foldlM_cons_of_step? _ rfl,
      foldlM_cons_of_step? _ rfl, foldlM_append_of_foldlM _ built, complete, later,
      List.reverse_cons, List.append_assoc]
    rfl

end

end Builder

end Draft

/-! ## Characters of numerals -/

namespace Numeral

open Token.Reader (isNumeralChar)

theorem isNumeralChar_of_isDigit {c : Char} (digit : isDigit c = true) :
    isNumeralChar c = true := by
  unfold isNumeralChar
  simp only [digit, Bool.true_or]

theorem splitFraction?_cases {cs rest : List Char} {fraction : Option (List Char)}
    (split : splitFraction? cs = some (fraction, rest)) :
    ∃ before, cs = before ++ rest ∧ ∀ c ∈ before, isNumeralChar c = true := by
  unfold splitFraction? at split
  split at split
  · next tail =>
    rw [List.span_eq_takeWhile_dropWhile] at split
    split at split
    · cases split
    · next digits rest' _ parts =>
      cases split
      cases parts
      refine ⟨'.' :: tail.takeWhile isDigit, ?_, ?_⟩
      · rw [List.cons_append, List.takeWhile_append_dropWhile]
      · rw [List.forall_mem_cons]
        exact ⟨by decide, fun c member =>
          isNumeralChar_of_isDigit (List.mem_takeWhile_imp member)⟩
  · cases split
    exact ⟨[], rfl, List.forall_mem_nil _⟩

theorem isNumeralChar_of_splitSign {cs : List Char}
    (digits : ∀ c ∈ (splitSign cs).2, isDigit c = true) : ∀ c ∈ cs, isNumeralChar c = true := by
  unfold splitSign at digits
  split at digits
  · rw [List.forall_mem_cons]
    exact ⟨by decide, fun c member => isNumeralChar_of_isDigit (digits c member)⟩
  · rw [List.forall_mem_cons]
    exact ⟨by decide, fun c member => isNumeralChar_of_isDigit (digits c member)⟩
  · exact fun c member => isNumeralChar_of_isDigit (digits c member)

theorem isNumeralChar_of_exponent? {cs : List Char} {exponent : Option (Bool × List Char)}
    (read : exponent? cs = some exponent) : ∀ c ∈ cs, isNumeralChar c = true := by
  have written {rest : List Char} {e : Char} (mark : isNumeralChar e = true)
      (read : (if (splitSign rest).2 ≠ [] ∧ (splitSign rest).2.all isDigit then
        some (some ((splitSign rest).1, (splitSign rest).2)) else none) = some exponent) :
      ∀ c ∈ e :: rest, isNumeralChar c = true := by
    split at read
    · next digits =>
      rw [List.forall_mem_cons]
      exact ⟨mark, isNumeralChar_of_splitSign (List.all_eq_true.mp digits.2)⟩
    · cases read
  unfold exponent? at read
  split at read
  · exact List.forall_mem_nil _
  · exact written (by decide) read
  · exact written (by decide) read
  · cases read

/-- What is read as a numeral without a sign begins with a digit. -/
theorem chars_of_unsigned {negative : Bool} {cs : List Char} {n : Numeral} (read : (do
      if !isWhole (cs.takeWhile isDigit) then none
      let (fraction, rest) ← splitFraction? (cs.dropWhile isDigit)
      let exponent ← exponent? rest
      return ⟨negative, cs.takeWhile isDigit, fraction, exponent⟩) = some n) :
    (∀ c ∈ cs, isNumeralChar c = true) ∧
      ∃ first rest, cs = first :: rest ∧ isDigit first = true := by
  split at read
  · cases read
  · next whole =>
    obtain ⟨⟨fraction, rest⟩, split, read⟩ := Option.bind_eq_some_iff.mp read
    obtain ⟨exponent, inExponent, _⟩ := Option.bind_eq_some_iff.mp read
    obtain ⟨before, parts, inFraction⟩ := splitFraction?_cases split
    constructor
    · rw [← List.takeWhile_append_dropWhile (p := isDigit) (l := cs), parts,
        List.forall_mem_append, List.forall_mem_append]
      exact ⟨fun c member => isNumeralChar_of_isDigit (List.mem_takeWhile_imp member), inFraction,
        isNumeralChar_of_exponent? inExponent⟩
    · cases cs with
      | nil => simp [isWhole] at whole
      | cons first rest =>
        refine ⟨first, rest, rfl, ?_⟩
        by_contra noDigit
        simp [List.takeWhile_cons_of_neg noDigit, isWhole] at whole

/-- What is read as a numeral has the characters of one, and begins with a digit or a minus. -/
theorem chars_of_ofChars? {cs : List Char} {n : Numeral} (read : ofChars? cs = some n) :
    (∀ c ∈ cs, isNumeralChar c = true) ∧
      ∃ first rest, cs = first :: rest ∧ (isDigit first || first == '-') = true := by
  unfold ofChars? at read
  simp only [List.span_eq_takeWhile_dropWhile] at read
  split at read
  · obtain ⟨chars, _⟩ := chars_of_unsigned read
    exact ⟨List.forall_mem_cons.mpr ⟨by decide, chars⟩, _, _, rfl, by decide⟩
  · obtain ⟨chars, first, rest, begins, digit⟩ := chars_of_unsigned read
    exact ⟨chars, first, rest, begins, by rw [digit, Bool.true_or]⟩

/-! ## Numerals of whole numbers -/

theorem isDigit_eq_true_iff {c : Char} : isDigit c = true ↔ c.isDigit = true := by
  rw [isDigit, Char.isDigit]
  rfl

/-- A positive number is written without a zero in front. -/
theorem toDigits_lead {n : Nat} (positive : 0 < n) :
    ∃ first rest, Nat.toDigits 10 n = first :: rest ∧ first ≠ '0' := by
  induction n using Nat.strongRecOn with
  | ind n shorter =>
    by_cases single : n < 10
    · have lead : ∀ digit < 10, 0 < digit → Nat.digitChar digit ≠ '0' := by decide
      exact ⟨n.digitChar, [], Nat.toDigits_of_lt_base single, lead n single positive⟩
    · obtain ⟨first, rest, begins, lead⟩ := shorter (n / 10) (by omega) (by omega)
      rw [Nat.toDigits_of_base_le (by decide) (by omega), begins]
      exact ⟨first, _, rfl, lead⟩

theorem isWhole_toDigits (n : Nat) : isWhole (Nat.toDigits 10 n) = true := by
  by_cases positive : 0 < n
  · obtain ⟨first, rest, begins, lead⟩ := toDigits_lead positive
    rw [begins]
    unfold isWhole
    split
    · next none => cases none
    · rfl
    · next zero => exact absurd (List.cons.inj zero).1 lead
    · rfl
  · rw [Nat.eq_zero_of_not_pos positive]
    rfl

/-- The digits of a number are a numeral. -/
theorem ofChars?_toDigits (n : Nat) :
    ofChars? (Nat.toDigits 10 n) = some ⟨false, Nat.toDigits 10 n, none, none⟩ := by
  have digits : ∀ c ∈ Nat.toDigits 10 n, isDigit c = true := by
    intro c member
    exact isDigit_eq_true_iff.mpr (Nat.isDigit_of_mem_toDigits (by decide) (by decide) member)
  unfold ofChars?
  split
  next negative cs signed =>
    split at signed
    · next begins =>
      rw [begins] at digits
      exact absurd (digits '-' List.mem_cons_self) (by decide)
    · cases signed
      rw [List.span_eq_takeWhile_dropWhile, List.takeWhile_eq_self_iff.mpr digits,
        List.dropWhile_eq_nil_iff.mpr digits]
      simp only [isWhole_toDigits]
      rfl

end Numeral

/-! ## Texts that spell tokens -/

namespace Token.Reader

/-- Some characters are read as some tokens, whatever has been read before, once the text or a
container ends with them. -/
def Spells (cs : List Char) (tokens : List Token) : Prop :=
  ∀ before, ∃ r, cs.foldlM step? ⟨.between, before⟩ = some r ∧
    r.close? = some ⟨.between, tokens.reverse ++ before⟩

/-- A character that is a token by itself. -/
structure IsMark (c : Char) (token : Token) : Prop where
  begins : ∀ r : Reader, r.begin? c = some (r.push token)
  noWord : isWordChar c = false
  noNumeral : isNumeralChar c = false

theorem openArray : IsMark '[' .openArray :=
  ⟨fun _ => rfl, by decide, by decide⟩

theorem closeArray : IsMark ']' .closeArray :=
  ⟨fun _ => rfl, by decide, by decide⟩

theorem openObject : IsMark '\x7b' .openObject :=
  ⟨fun _ => rfl, by decide, by decide⟩

theorem closeObject : IsMark '\x7d' .closeObject :=
  ⟨fun _ => rfl, by decide, by decide⟩

theorem comma : IsMark ',' .comma :=
  ⟨fun _ => rfl, by decide, by decide⟩

theorem colon : IsMark ':' .colon :=
  ⟨fun _ => rfl, by decide, by decide⟩

/-- After what may end, a mark ends it. -/
theorem IsMark.step? {c : Char} {token : Token} (mark : IsMark c token) {r : Reader}
    {tokens : List Token} (closed : r.close? = some ⟨.between, tokens⟩) :
    r.step? c = some ⟨.between, token :: tokens⟩ := by
  obtain ⟨mode, earlier⟩ := r
  cases mode with
  | between =>
    cases closed
    exact mark.begins _
  | word read =>
    rw [Reader.step?]
    simp only [mark.noWord, closed, Option.bind_some, mark.begins]
    rfl
  | numeral read =>
    rw [Reader.step?]
    simp only [mark.noNumeral, closed, Option.bind_some, mark.begins]
    rfl
  | string units => cases closed
  | escape units => cases closed
  | code units value left => cases closed

/-- A character between tokens that is passed over. -/
structure IsGap (c : Char) : Prop where
  skips : ∀ r : Reader, r.begin? c = some r
  noWord : isWordChar c = false
  noNumeral : isNumeralChar c = false

theorem blank : IsGap ' ' :=
  ⟨fun _ => rfl, by decide, by decide⟩

theorem newline : IsGap '\n' :=
  ⟨fun _ => rfl, by decide, by decide⟩

/-- After what may end, a gap ends it. -/
theorem IsGap.step? {c : Char} (gap : IsGap c) {r closed : Reader} (ends : r.close? = some closed) :
    r.step? c = some closed := by
  obtain ⟨mode, earlier⟩ := r
  cases mode with
  | between =>
    cases ends
    exact gap.skips _
  | word read =>
    rw [Reader.step?]
    simp only [gap.noWord, ends, Option.bind_some, gap.skips]
    rfl
  | numeral read =>
    rw [Reader.step?]
    simp only [gap.noNumeral, ends, Option.bind_some, gap.skips]
    rfl
  | string units => cases ends
  | escape units => cases ends
  | code units value left => cases ends

theorem foldlM_gaps {gaps : List Char} (each : ∀ c ∈ gaps, IsGap c) (before : List Token) :
    gaps.foldlM step? ⟨.between, before⟩ = some ⟨.between, before⟩ := by
  induction gaps with
  | nil => rfl
  | cons c rest ih =>
    rw [List.forall_mem_cons] at each
    rw [List.foldlM_cons, each.1.step? rfl, Option.bind_eq_bind, Option.bind_some, ih each.2]

/-- What has been ended has nothing left to end. -/
theorem close?_of_close? {r closed : Reader} (ends : r.close? = some closed) :
    closed.close? = some closed := by
  obtain ⟨mode, earlier⟩ := r
  cases mode with
  | between =>
    cases ends
    rfl
  | word read =>
    obtain ⟨token, _, rfl⟩ := Option.map_eq_some_iff.mp ends
    rfl
  | numeral read =>
    obtain ⟨n, _, rfl⟩ := Option.map_eq_some_iff.mp ends
    rfl
  | string units => cases ends
  | escape units => cases ends
  | code units value left => cases ends

/-- A new line ends what the end of a text ends. -/
theorem close?_step?_newline (r : Reader) : (r.step? '\n').bind close? = r.close? := by
  cases ends : r.close? with
  | some closed => rw [newline.step? ends, Option.bind_some, close?_of_close? ends]
  | none =>
    obtain ⟨mode, earlier⟩ := r
    cases mode with
    | between => cases ends
    | word read =>
      rw [Reader.step?]
      simp only [newline.noWord, ends]
      rfl
    | numeral read =>
      rw [Reader.step?]
      simp only [newline.noNumeral, ends]
      rfl
    | string units => rfl
    | escape units => rfl
    | code units value left => rfl

theorem begin?_of_numeral {first : Char} (before : List Token)
    (begins : (isDigit first || first == '-') = true) :
    (⟨.between, before⟩ : Reader).begin? first = some ⟨.numeral [first], before⟩ := by
  have noWord : isWordChar first = false := by
    simp only [isDigit, Bool.or_eq_true, Bool.and_eq_true, decide_eq_true_eq, beq_iff_eq] at begins
    rcases begins with ⟨_, digit⟩ | rfl
    · have early : ¬ 'a' ≤ first :=
        fun late => absurd (Char.le_trans late digit) (by decide)
      simp [isWordChar, early]
    · decide
  unfold begin?
  split
  case h_12 => rw [noWord, begins]; rfl
  all_goals exact absurd begins (by decide)

theorem foldlM_numeral {cs read : List Char} {before : List Token}
    (chars : ∀ c ∈ cs, isNumeralChar c = true) :
    cs.foldlM step? ⟨.numeral read, before⟩ = some ⟨.numeral (cs.reverse ++ read), before⟩ := by
  induction cs generalizing read with
  | nil => rfl
  | cons c rest ih =>
    rw [List.forall_mem_cons] at chars
    have step : step? ⟨.numeral read, before⟩ c = some ⟨.numeral (c :: read), before⟩ :=
      if_pos chars.1
    rw [List.foldlM_cons, step, Option.bind_eq_bind, Option.bind_some, ih chars.2,
      List.reverse_cons, List.append_assoc]
    rfl

namespace Spells

variable {cs rest : List Char} {tokens others : List Token}

theorem nil : Spells [] [] :=
  fun before => ⟨⟨.between, before⟩, rfl, rfl⟩

/-- A mark between what spells tokens spells its own. -/
theorem mark {c : Char} {token : Token} (mark : IsMark c token) (first : Spells cs tokens)
    (later : Spells rest others) : Spells (cs ++ c :: rest) (tokens ++ token :: others) := by
  intro before
  obtain ⟨r, run, closed⟩ := first before
  obtain ⟨last, runLater, closedLater⟩ := later (token :: (tokens.reverse ++ before))
  refine ⟨last, ?_, ?_⟩
  · rw [List.foldlM_append, run, Option.bind_eq_bind, Option.bind_some, List.foldlM_cons,
      mark.step? closed, Option.bind_eq_bind, Option.bind_some, runLater]
  · rw [closedLater, List.reverse_append, List.reverse_cons]
    simp only [List.append_assoc, List.cons_append, List.nil_append]

/-- Gaps in front of what spells tokens spell none of their own. -/
theorem afterGaps {gaps : List Char} (each : ∀ c ∈ gaps, IsGap c) (spells : Spells cs tokens) :
    Spells (gaps ++ cs) tokens := by
  intro before
  obtain ⟨r, run, closed⟩ := spells before
  refine ⟨r, ?_, closed⟩
  rw [List.foldlM_append, foldlM_gaps each, Option.bind_eq_bind, Option.bind_some, run]

/-- Nor do gaps after it. -/
theorem beforeGaps {gaps : List Char} (each : ∀ c ∈ gaps, IsGap c) (spells : Spells cs tokens) :
    Spells (cs ++ gaps) tokens := by
  intro before
  obtain ⟨r, run, closed⟩ := spells before
  cases gaps with
  | nil =>
    rw [List.append_nil]
    exact ⟨r, run, closed⟩
  | cons c rest =>
    rw [List.forall_mem_cons] at each
    refine ⟨⟨.between, tokens.reverse ++ before⟩, ?_, rfl⟩
    rw [List.foldlM_append, run, Option.bind_eq_bind, Option.bind_some, List.foldlM_cons,
      each.1.step? closed, Option.bind_eq_bind, Option.bind_some, foldlM_gaps each.2]

theorem quote (text : String) :
    Spells (Json.quote text).toList [.string (text.toList.map TextUnit.ofPrinted)] :=
  fun before => ⟨_, foldlM_quote text before, rfl⟩

theorem null : Spells "null".toList [.null] :=
  fun _ => ⟨_, rfl, rfl⟩

theorem bool (value : Bool) :
    Spells (if value then "true" else "false").toList [.bool value] := by
  cases value with
  | true => exact fun _ => ⟨_, rfl, rfl⟩
  | false => exact fun _ => ⟨_, rfl, rfl⟩

/-- A numeral is read as one number. -/
theorem numeral {n : Numeral} (read : Numeral.ofChars? cs = some n) : Spells cs [.number n] := by
  intro before
  obtain ⟨chars, first, rest, rfl, begins⟩ := Numeral.chars_of_ofChars? read
  rw [List.forall_mem_cons] at chars
  refine ⟨⟨.numeral (rest.reverse ++ [first]), before⟩, ?_, ?_⟩
  · rw [List.foldlM_cons, step?, begin?_of_numeral before begins]
    exact foldlM_numeral chars.2
  · rw [close?]
    simp only [List.reverse_append, List.reverse_reverse, List.reverse_singleton,
      List.singleton_append, read]
    rfl

end Spells

end Token.Reader

/-! ## Documents of values -/

namespace Json

/-- A number that is denoted by the text that it is printed as. -/
def Number.ReadsBack (n : Number) : Prop :=
  (Numeral.ofChars? n.text.toList).bind Numeral.toNumber? = some n

/-- A whole number of 64 bits is read as it was printed. -/
theorem Number.readsBack_whole {k : Nat} (fits : k < wordLimit) :
    (Number.whole k).ReadsBack := by
  have value : digitsValue (Nat.toDigits 10 k) = k := Nat.ofDigitChars_ten_toDigits
  have printed : (Number.whole k).text.toList = Nat.toDigits 10 k := by
    change (Nat.repr k).toList = _
    rw [Nat.repr_eq_ofList_toDigits, String.toList_ofList]
  rw [ReadsBack, printed, Numeral.ofChars?_toDigits, Option.bind_some, Numeral.toNumber?]
  simp only [value, fits]
  rfl

mutual

/-- The numbers in a value. -/
def numbers : Json → List Number
  | number n => [n]
  | array items => numbersOfItems items
  | object members => numbersOfMembers members
  | null | bool _ | string _ => []

def numbersOfItems : List Json → List Number
  | [] => []
  | item :: rest => numbers item ++ numbersOfItems rest

def numbersOfMembers : List Member → List Number
  | [] => []
  | (_, value) :: rest => numbers value ++ numbersOfMembers rest

end

mutual

/-- The document that a value is printed as. -/
def draft : Json → Draft
  | null => .null
  | bool value => .bool value
  | number n => ((Numeral.ofChars? n.text.toList).map .number).getD .null
  | string text => .string (text.toList.map TextUnit.ofPrinted)
  | array items => .array (draftItems items)
  | object members => .object (draftMembers members)

def draftItems : List Json → List Draft
  | [] => []
  | item :: rest => draft item :: draftItems rest

def draftMembers : List Member → List (List TextUnit × Draft)
  | [] => []
  | (name, value) :: rest => (name.toList.map TextUnit.ofPrinted, draft value) :: draftMembers rest

end

/-! ## Printed values -/

/-- A layout that puts nothing but gaps between tokens. -/
structure Spacing.IsGap (spacing : Spacing) : Prop where
  gap : ∀ level, ∀ c ∈ (spacing.gap level).toList, Token.Reader.IsGap c
  beforeValue : ∀ c ∈ spacing.beforeValue.toList, Token.Reader.IsGap c

theorem Spacing.isGap_none : Spacing.none.IsGap where
  gap _ := List.forall_mem_nil _
  beforeValue := List.forall_mem_nil _

theorem Spacing.isGap_lines : Spacing.lines.IsGap where
  gap level := by
    intro c inside
    rw [lines, String.toList_ofList] at inside
    rcases List.mem_cons.mp inside with rfl | inBlanks
    · exact Token.Reader.newline
    · rw [List.eq_of_mem_replicate inBlanks]
      exact Token.Reader.blank
  beforeValue := by
    intro c inside
    rw [List.mem_singleton.mp inside]
    exact Token.Reader.blank

section

variable (spacing : Spacing) (level : Nat)

/-- The text of an item, after its gap. -/
def itemText (item : Json) : List Char :=
  (spacing.gap level).toList ++ (print spacing level item).toList

/-- The text of a member, after its gap. -/
def memberText (member : Member) : List Char :=
  (spacing.gap level).toList ++ ((quote member.1).toList ++
    ':' :: (spacing.beforeValue.toList ++ (print spacing level member.2).toList))

/-- The text of items that come after others. -/
def laterItems (items : List Json) : List Char :=
  items.flatMap fun item => ',' :: itemText spacing level item

/-- The text of members that come after others. -/
def laterMembers (members : List Member) : List Char :=
  members.flatMap fun member => ',' :: memberText spacing level member

theorem toList_printItems (first : Json) (rest : List Json) :
    (printItems spacing level (first :: rest)).toList =
      itemText spacing level first ++ laterItems spacing level rest := by
  induction rest generalizing first with
  | nil => simp [printItems, itemText, laterItems]
  | cons next rest ih =>
    rw [printItems]
    · simp [ih, itemText, laterItems]
    · exact List.cons_ne_nil next rest

theorem toList_printMembers (first : Member) (rest : List Member) :
    (printMembers spacing level (first :: rest)).toList =
      memberText spacing level first ++ laterMembers spacing level rest := by
  obtain ⟨name, value⟩ := first
  induction rest generalizing name value with
  | nil => simp [printMembers, memberText, laterMembers]
  | cons next rest ih =>
    rw [printMembers]
    · simp [ih, memberText, laterMembers]
    · exact List.cons_ne_nil _ rest

end

section

open Token.Reader

variable {spacing : Spacing} (gaps : spacing.IsGap)

include gaps

theorem spells_itemText {level : Nat} {item : Json} {tokens : List Token}
    (spells : Spells (print spacing level item).toList tokens) :
    Spells (itemText spacing level item) tokens :=
  spells.afterGaps (gaps.gap level)

theorem spells_memberText {level : Nat} (name : String) {value : Json} {tokens : List Token}
    (spells : Spells (print spacing level value).toList tokens) :
    Spells (memberText spacing level (name, value))
      (.string (name.toList.map TextUnit.ofPrinted) :: .colon :: tokens) :=
  ((Spells.quote name).mark colon (spells.afterGaps gaps.beforeValue)).afterGaps (gaps.gap level)

mutual

theorem spells_print (level : Nat) : (j : Json) → (∀ n ∈ j.numbers, n.ReadsBack) →
    Spells (print spacing level j).toList j.draft.tokens
  | null, _ => Spells.null
  | bool value, _ => Spells.bool value
  | number n, numbers => by
    obtain ⟨numeral, read, _⟩ := Option.bind_eq_some_iff.mp (numbers n (List.mem_singleton_self n))
    rw [draft, read]
    exact Spells.numeral read
  | string text, _ => Spells.quote text
  | array [], _ => by
    rw [print, List.isEmpty_nil, if_pos rfl]
    exact Spells.nil.mark openArray (Spells.nil.mark closeArray .nil)
  | array (first :: rest), numbers => by
    rw [Json.numbers, numbersOfItems, List.forall_mem_append] at numbers
    have items := spells_laterItems (level + 1)
      (spells_itemText gaps (spells_print (level + 1) first numbers.1)) rest numbers.2
    have spelt := Spells.nil.mark openArray
      ((items.beforeGaps (gaps.gap level)).mark closeArray .nil)
    rw [print, List.isEmpty_cons, if_neg Bool.false_ne_true]
    simpa [toList_printItems, draft, draftItems, Draft.tokens] using spelt
  | object [], _ => by
    rw [print, List.isEmpty_nil, if_pos rfl]
    exact Spells.nil.mark openObject (Spells.nil.mark closeObject .nil)
  | object ((name, first) :: rest), numbers => by
    rw [Json.numbers, numbersOfMembers, List.forall_mem_append] at numbers
    have members := spells_laterMembers (level + 1)
      (spells_memberText gaps name (spells_print (level + 1) first numbers.1)) rest numbers.2
    have spelt := Spells.nil.mark openObject
      ((members.beforeGaps (gaps.gap level)).mark closeObject .nil)
    rw [print, List.isEmpty_cons, if_neg Bool.false_ne_true]
    simpa [toList_printMembers, draft, draftMembers, Draft.tokens] using spelt

theorem spells_laterItems (level : Nat) {cs : List Char} {tokens : List Token}
    (first : Spells cs tokens) :
    (items : List Json) → (∀ n ∈ numbersOfItems items, n.ReadsBack) →
      Spells (cs ++ laterItems spacing level items)
        (tokens ++ Draft.laterItems (draftItems items))
  | [], _ => by
    rw [draftItems, Draft.laterItems, laterItems, List.flatMap_nil, List.append_nil,
      List.append_nil]
    exact first
  | item :: rest, numbers => by
    rw [numbersOfItems, List.forall_mem_append] at numbers
    have next := first.mark comma (spells_itemText gaps (spells_print level item numbers.1))
    have spelt := spells_laterItems level next rest numbers.2
    simpa [draftItems, Draft.laterItems, laterItems] using spelt

theorem spells_laterMembers (level : Nat) {cs : List Char} {tokens : List Token}
    (first : Spells cs tokens) :
    (members : List Member) → (∀ n ∈ numbersOfMembers members, n.ReadsBack) →
      Spells (cs ++ laterMembers spacing level members)
        (tokens ++ Draft.laterMembers (draftMembers members))
  | [], _ => by
    rw [draftMembers, Draft.laterMembers, laterMembers, List.flatMap_nil, List.append_nil,
      List.append_nil]
    exact first
  | (name, value) :: rest, numbers => by
    rw [numbersOfMembers, List.forall_mem_append] at numbers
    have next := first.mark comma (spells_memberText gaps name (spells_print level value numbers.1))
    have spelt := spells_laterMembers level next rest numbers.2
    simpa [draftMembers, Draft.laterMembers, laterMembers] using spelt

end

/-- A printed value is taken apart into its document. -/
theorem ofText?_print (j : Json) (numbers : ∀ n ∈ j.numbers, n.ReadsBack) :
    Draft.ofText? (print spacing 0 j) = some j.draft := by
  obtain ⟨r, run, closed⟩ := spells_print gaps 0 j numbers []
  have cut : Token.ofChars? (print spacing 0 j).toList = some j.draft.tokens := by
    unfold Token.ofChars? Token.Reader.start
    rw [run, Option.bind_eq_bind, Option.bind_some, closed, Option.bind_some, List.append_nil]
    exact congrArg some (List.reverse_reverse _)
  unfold Draft.ofText? Draft.Builder.start
  rw [cut, Option.bind_eq_bind, Option.bind_some, Draft.Builder.foldlM_tokens]
  rfl

end

/-- A text is the same document with a new line at its end. -/
theorem ofText?_line (text : String) : Draft.ofText? (text ++ "\n") = Draft.ofText? text := by
  have sameTokens : Token.ofChars? (text ++ "\n").toList = Token.ofChars? text.toList := by
    unfold Token.ofChars?
    have oneLine : "\n".toList = ['\n'] := rfl
    rw [String.toList_append, List.foldlM_append, oneLine]
    cases text.toList.foldlM Token.Reader.step? Token.Reader.start with
    | none => rfl
    | some r =>
      have sameEnd := Token.Reader.close?_step?_newline r
      have oneStep : ['\n'].foldlM Token.Reader.step? r = r.step? '\n' := by
        cases stepped : r.step? '\n' <;> simp [stepped]
      simp only [Option.bind_eq_bind, Option.bind_some]
      rw [oneStep, ← Option.bind_assoc, sameEnd]
  rw [Draft.ofText?, Draft.ofText?, sameTokens]

/-! ## Values of documents -/

/-- A reader who knows each member of an object, and leaves each of them as it is, leaves the object
as it is. -/
theorem record_draft {names : List String} {change : String → Draft → Draft} {members : List Member}
    (known : ∀ member ∈ members, names.contains member.1 = true ∧
      change member.1 member.2.draft = member.2.draft) :
    Draft.record names change (object members).draft = (object members).draft := by
  rw [draft, Draft.record]
  congr 1
  induction members with
  | nil => rfl
  | cons first rest ih =>
    obtain ⟨name, value⟩ := first
    rw [List.forall_mem_cons] at known
    rw [draftMembers, List.filterMap_cons, ih known.2]
    simp only [TextUnit.text?_ofPrinted, known.1.1, known.1.2, if_true]

mutual

/-- The document of a value has that value, where there is room for it. -/
theorem toJson?_draft {room : Nat} : (j : Json) → j.depth ≤ room →
    (∀ n ∈ j.numbers, n.ReadsBack) → j.draft.toJson? room = some j
  | null, _, _ => rfl
  | bool value, _, _ => rfl
  | number n, _, numbers => by
    obtain ⟨numeral, read, denotes⟩ :=
      Option.bind_eq_some_iff.mp (numbers n (List.mem_singleton_self n))
    rw [draft, read, Option.map_some, Option.getD_some, Draft.toJson?, denotes]
    rfl
  | string text, _, _ => by
    rw [draft, Draft.toJson?, TextUnit.text?_ofPrinted]
    rfl
  | array items, deep, numbers => by
    cases room with
    | zero => cases deep
    | succ room =>
      rw [draft, Draft.toJson?, itemsToJson?_draft items (Nat.le_of_succ_le_succ deep) numbers]
      rfl
  | object members, deep, numbers => by
    cases room with
    | zero => cases deep
    | succ room =>
      rw [draft, Draft.toJson?, membersToJson?_draft members (Nat.le_of_succ_le_succ deep) numbers]
      rfl

theorem itemsToJson?_draft {room : Nat} : (items : List Json) → depthOfItems items ≤ room →
    (∀ n ∈ numbersOfItems items, n.ReadsBack) →
      Draft.itemsToJson? room (draftItems items) = some items
  | [], _, _ => rfl
  | item :: rest, deep, numbers => by
    rw [numbersOfItems, List.forall_mem_append] at numbers
    rw [depthOfItems, Nat.max_le] at deep
    rw [draftItems, Draft.itemsToJson?, toJson?_draft item deep.1 numbers.1,
      itemsToJson?_draft rest deep.2 numbers.2]
    rfl

theorem membersToJson?_draft {room : Nat} : (members : List Member) →
    depthOfMembers members ≤ room → (∀ n ∈ numbersOfMembers members, n.ReadsBack) →
      Draft.membersToJson? room (draftMembers members) = some members
  | [], _, _ => rfl
  | (name, value) :: rest, deep, numbers => by
    rw [numbersOfMembers, List.forall_mem_append] at numbers
    rw [depthOfMembers, Nat.max_le] at deep
    rw [draftMembers, Draft.membersToJson?, TextUnit.text?_ofPrinted,
      toJson?_draft value deep.1 numbers.1, membersToJson?_draft rest deep.2 numbers.2]
    rfl

end

/-- What is printed of a value is read as that value by a reader who looks at all of it, if its
numbers are and it nests no deeper than what is read may. -/
theorem ofTextKnowing?_compact {known : Draft → Draft} {j : Json} (kept : known j.draft = j.draft)
    (deep : j.depth ≤ Draft.maxDepth) (numbers : ∀ n ∈ j.numbers, n.ReadsBack) :
    Json.ofTextKnowing? known j.compact = some j := by
  rw [Json.ofTextKnowing?, compact, ofText?_print Spacing.isGap_none j numbers, Option.bind_some,
    kept, toJson?_draft j deep numbers]

/-! ## Values that are read as they are printed -/

theorem forall_mem_numbersOfItems {p : Number → Prop} {items : List Json}
    (each : ∀ item ∈ items, ∀ n ∈ item.numbers, p n) : ∀ n ∈ numbersOfItems items, p n := by
  induction items with
  | nil => exact List.forall_mem_nil _
  | cons first rest ih =>
    rw [List.forall_mem_cons] at each
    rw [numbersOfItems, List.forall_mem_append]
    exact ⟨each.1, ih each.2⟩

theorem forall_mem_numbersOfMembers {p : Number → Prop} {members : List Member}
    (each : ∀ member ∈ members, ∀ n ∈ member.2.numbers, p n) :
    ∀ n ∈ numbersOfMembers members, p n := by
  induction members with
  | nil => exact List.forall_mem_nil _
  | cons first rest ih =>
    rw [List.forall_mem_cons] at each
    rw [numbersOfMembers, List.forall_mem_append]
    exact ⟨each.1, ih each.2⟩

/-- A value that can be printed inside others and read again: it is in order, nests no deeper than
there is room for, and its numbers are read as they are printed. -/
structure Legible (room : Nat) (j : Json) : Prop where
  sorted : j.canonical = j
  shallow : j.depth ≤ room
  numbers : ∀ n ∈ j.numbers, n.ReadsBack

theorem legible_bool (room : Nat) (value : Bool) : (bool value).Legible room :=
  ⟨rfl, Nat.zero_le room, List.forall_mem_nil _⟩

theorem legible_string (room : Nat) (text : String) : (string text).Legible room :=
  ⟨rfl, Nat.zero_le room, List.forall_mem_nil _⟩

theorem legible_ofNat (room : Nat) {n : Nat} (few : n < 2 ^ 64) : (ofNat n).Legible room :=
  ⟨rfl, Nat.zero_le room, List.forall_mem_singleton.mpr (Number.readsBack_whole few)⟩

theorem legible_array {room : Nat} {items : List Json} (each : ∀ item ∈ items, item.Legible room) :
    (array items).Legible (room + 1) where
  sorted := canonical_array fun item member => (each item member).sorted
  shallow := Nat.succ_le_succ
    (depthOfItems_le_iff.mpr fun item member => (each item member).shallow)
  numbers := forall_mem_numbersOfItems fun item member => (each item member).numbers

theorem legible_object {room : Nat} {members : List Member}
    (sorted : (members.map Prod.fst).Pairwise (· < ·))
    (each : ∀ member ∈ members, member.2.Legible room) : (object members).Legible (room + 1) where
  sorted := canonical_object sorted fun member inside => (each member inside).sorted
  shallow := Nat.succ_le_succ
    (depthOfMembers_le_iff.mpr fun member inside => (each member inside).shallow)
  numbers := forall_mem_numbersOfMembers fun member inside => (each member inside).numbers

theorem legible_ofStrings (room : Nat) (texts : List String) :
    (ofStrings texts).Legible (room + 1) := by
  apply legible_array
  rw [List.forall_mem_map]
  exact fun text _ => legible_string room text

/-- A legible value is read as it was printed, in any layout. -/
theorem Legible.valueOfText?_print {j : Json} (legible : j.Legible Draft.maxDepth)
    {spacing : Spacing} (gaps : spacing.IsGap) : valueOfText? (print spacing 0 j) = some j := by
  rw [valueOfText?, ofText?, ofTextKnowing?, ofText?_print gaps j legible.numbers,
    Option.bind_some, id_eq, toJson?_draft j legible.shallow legible.numbers, Option.map_some,
    legible.sorted]

theorem Legible.valueOfText?_compact {j : Json} (legible : j.Legible Draft.maxDepth) :
    valueOfText? j.compact = some j :=
  legible.valueOfText?_print Spacing.isGap_none

theorem Legible.valueOfText?_pretty {j : Json} (legible : j.Legible Draft.maxDepth) :
    valueOfText? j.pretty = some j :=
  legible.valueOfText?_print Spacing.isGap_lines

theorem valueOfText?_line (text : String) : valueOfText? (text ++ "\n") = valueOfText? text := by
  rw [valueOfText?, ofText?, ofTextKnowing?, ofText?_line]
  rfl

/-- What has been read from a text is read again from its print, if its numbers are. -/
theorem legible_of_valueOfText? {text : String} {j : Json} (read : valueOfText? text = some j)
    (numbers : ∀ n ∈ j.numbers, n.ReadsBack) : j.Legible Draft.maxDepth :=
  ⟨(of_valueOfText? read).1, (of_valueOfText? read).2, numbers⟩

end Json

end FormLogic
