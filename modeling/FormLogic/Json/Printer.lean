import FormLogic.Json.Basic
import FormLogic.Number.Notation

/-!
# Printed JSON

Two layouts: everything on one line without a blank, and one member or item a line, indented by
two blanks a level. They differ in their blanks alone (`Json.Spacing`). Members are printed in the
order in which the value lists them.
-/

namespace FormLogic

namespace Json

def hexDigit (n : Nat) : Char :=
  Nat.digitChar n

/-- A character inside a string. -/
def escape (c : Char) : List Char :=
  match c with
  | '"' => ['\\', '"']
  | '\\' => ['\\', '\\']
  | '\x08' => ['\\', 'b']
  | '\x0C' => ['\\', 'f']
  | '\n' => ['\\', 'n']
  | '\r' => ['\\', 'r']
  | '\t' => ['\\', 't']
  | _ =>
    if c.toNat < 0x20 then
      ['\\', 'u', '0', '0', hexDigit (c.toNat / 16), hexDigit (c.toNat % 16)]
    else [c]

def quote (text : String) : String :=
  String.ofList ('"' :: text.toList.flatMap escape ++ ['"'])

/-- The text of a number: whole numbers as they are, others in the notation of JSON. -/
def Number.text : Number → String
  | .whole value => toString value
  | .floating value => value.jsonText

/-- The blanks of a layout. -/
structure Spacing where
  /-- In front of what stands inside so many containers: an item, a member, or the end of a further
      container. -/
  gap : Nat → String
  /-- Between a name and its value, after the colon. -/
  beforeValue : String

mutual

/-- The text of a value inside `level` containers. -/
def print (spacing : Spacing) (level : Nat) : Json → String
  | null => "null"
  | bool value => if value then "true" else "false"
  | number value => value.text
  | string value => quote value
  | array items =>
    if items.isEmpty then "[]"
    else "[" ++ printItems spacing (level + 1) items ++ spacing.gap level ++ "]"
  | object members =>
    if members.isEmpty then "\x7b\x7d"
    else "\x7b" ++ printMembers spacing (level + 1) members ++ spacing.gap level ++ "\x7d"

def printItems (spacing : Spacing) (level : Nat) : List Json → String
  | [] => ""
  | [item] => spacing.gap level ++ print spacing level item
  | item :: rest =>
    spacing.gap level ++ print spacing level item ++ "," ++ printItems spacing level rest

def printMembers (spacing : Spacing) (level : Nat) : List Member → String
  | [] => ""
  | [(name, value)] =>
    spacing.gap level ++ quote name ++ ":" ++ spacing.beforeValue ++ print spacing level value
  | (name, value) :: rest =>
    spacing.gap level ++ quote name ++ ":" ++ spacing.beforeValue ++ print spacing level value
      ++ "," ++ printMembers spacing level rest

end

/-- No blanks at all. -/
def Spacing.none : Spacing where
  gap _ := ""
  beforeValue := ""

/-- A new line for everything, with two blanks a level. -/
def Spacing.lines : Spacing where
  gap level := String.ofList ('\n' :: List.replicate (2 * level) ' ')
  beforeValue := " "

/-- The value on one line. -/
def compact (j : Json) : String :=
  print .none 0 j

/-- The value over several lines. -/
def pretty (j : Json) : String :=
  print .lines 0 j

end Json

end FormLogic
