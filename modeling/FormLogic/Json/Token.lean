import FormLogic.Json.Numeral

/-!
# JSON tokens

A text is cut into tokens one character at a time. What a string or a number denotes is decided
later, since a document may hold parts that nobody reads: a string token keeps its escapes, and a
number token its digits.
-/

namespace FormLogic

/-- A piece of a JSON string: a character as it stands, or an escaped 16-bit unit. -/
inductive TextUnit where
  | char (c : Char)
  | code (unit : Nat)

namespace TextUnit

/-- The characters that units denote; two escaped halves of a surrogate pair make one, and a half
    alone denotes nothing. -/
def chars? : List TextUnit → Option (List Char)
  | [] => some []
  | char c :: rest => (chars? rest).map (c :: ·)
  | code unit :: rest =>
    if 0xD800 ≤ unit ∧ unit < 0xDC00 then
      match rest with
      | code low :: rest =>
        if 0xDC00 ≤ low ∧ low < 0xE000 then
          (chars? rest).map
            (Char.ofNat (0x10000 + (unit - 0xD800) * 0x400 + (low - 0xDC00)) :: ·)
        else none
      | _ => none
    else if 0xDC00 ≤ unit ∧ unit < 0xE000 then none
    else (chars? rest).map (Char.ofNat unit :: ·)

def text? (units : List TextUnit) : Option String :=
  (chars? units).map String.ofList

end TextUnit

/-- The tokens of JSON. -/
inductive Token where
  | openArray
  | closeArray
  | openObject
  | closeObject
  | comma
  | colon
  | null
  | bool (value : Bool)
  | number (numeral : Numeral)
  | string (units : List TextUnit)

namespace Token

/-- What a reader is in the middle of; what it has read so far is kept in reverse. -/
inductive Mode where
  | between
  | word (read : List Char)
  | numeral (read : List Char)
  | string (units : List TextUnit)
  | escape (units : List TextUnit)
  /-- An escaped unit with some hexadecimal digits still to come. -/
  | code (units : List TextUnit) (value left : Nat)

/-- A reader of tokens, with the tokens so far in reverse. -/
structure Reader where
  mode : Mode
  tokens : List Token

namespace Reader

def start : Reader :=
  ⟨.between, []⟩

def push (r : Reader) (token : Token) : Reader :=
  ⟨.between, token :: r.tokens⟩

def word? (read : List Char) : Option Token :=
  match String.ofList read.reverse with
  | "null" => some .null
  | "true" => some (.bool true)
  | "false" => some (.bool false)
  | _ => none

/-- Ends a word or a number that the next character does not continue. -/
def close? (r : Reader) : Option Reader :=
  match r.mode with
  | .between => some r
  | .word read => (word? read).map r.push
  | .numeral read => (Numeral.ofChars? read.reverse).map fun n => r.push (.number n)
  | .string _ | .escape _ | .code _ _ _ => none

def isWordChar (c : Char) : Bool :=
  'a' ≤ c && c ≤ 'z'

def isNumeralChar (c : Char) : Bool :=
  isDigit c || c == '+' || c == '-' || c == '.' || c == 'e' || c == 'E'

/-- A character between tokens. -/
def begin? (r : Reader) (c : Char) : Option Reader :=
  match c with
  | ' ' | '\t' | '\n' | '\r' => some r
  | '[' => some (r.push .openArray)
  | ']' => some (r.push .closeArray)
  | '{' => some (r.push .openObject)
  | '}' => some (r.push .closeObject)
  | ',' => some (r.push .comma)
  | ':' => some (r.push .colon)
  | '"' => some ⟨.string [], r.tokens⟩
  | _ =>
    if isWordChar c then some ⟨.word [c], r.tokens⟩
    else if isDigit c || c == '-' then some ⟨.numeral [c], r.tokens⟩
    else none

/-- The character that a backslash and another character stand for. -/
def escaped? : Char → Option Char
  | '"' => some '"'
  | '\\' => some '\\'
  | '/' => some '/'
  | 'b' => some '\x08'
  | 'f' => some '\x0C'
  | 'n' => some '\n'
  | 'r' => some '\r'
  | 't' => some '\t'
  | _ => none

def hexValue? (c : Char) : Option Nat :=
  if isDigit c then some (digitValue c)
  else if 'a' ≤ c ∧ c ≤ 'f' then some (c.toNat - 'a'.toNat + 10)
  else if 'A' ≤ c ∧ c ≤ 'F' then some (c.toNat - 'A'.toNat + 10)
  else none

/-- One more character. -/
def step? (r : Reader) (c : Char) : Option Reader :=
  match r.mode with
  | .between => r.begin? c
  | .word read =>
    if isWordChar c then some ⟨.word (c :: read), r.tokens⟩
    else r.close?.bind (·.begin? c)
  | .numeral read =>
    if isNumeralChar c then some ⟨.numeral (c :: read), r.tokens⟩
    else r.close?.bind (·.begin? c)
  | .string units =>
    if c = '"' then some (r.push (.string units.reverse))
    else if c = '\\' then some ⟨.escape units, r.tokens⟩
    else if c.toNat < 0x20 then none
    else some ⟨.string (.char c :: units), r.tokens⟩
  | .escape units =>
    if c = 'u' then some ⟨.code units 0 4, r.tokens⟩
    else (escaped? c).map fun d => ⟨.string (.char d :: units), r.tokens⟩
  | .code units value left =>
    (hexValue? c).map fun digit =>
      let value := 16 * value + digit
      if left ≤ 1 then ⟨.string (.code value :: units), r.tokens⟩
      else ⟨.code units value (left - 1), r.tokens⟩

end Reader

/-- The tokens of a text. -/
def ofChars? (cs : List Char) : Option (List Token) := do
  let r ← cs.foldlM Reader.step? Reader.start
  return (← r.close?).tokens.reverse

end Token

end FormLogic
