import FormLogic.Json.Basic

/-!
# JSON pointers

The place of a part of a JSON value: the names and positions on the way to it. None of the names
used here holds a slash or a tilde, so nothing has to be escaped in the text of a pointer.
-/

namespace FormLogic

namespace Json

/-- One step into a value. -/
inductive Key where
  | name (text : String)
  | index (position : Nat)
  deriving DecidableEq

abbrev Pointer := List Key

def Key.text : Key → String
  | .name text => text
  | .index position => String.ofList (Nat.toDigits 10 position)

/-- The text of a pointer, with a slash before every step. -/
def Pointer.text (p : Pointer) : String :=
  String.join (p.map fun key => "/" ++ key.text)

/-- The part of a value one step away. -/
def child? : Json → Key → Option Json
  | object members, .name text => (object members).member? text
  | array items, .index position => items[position]?
  | _, _ => none

/-- The part of a value that a pointer leads to. -/
def follow? (j : Json) (p : Pointer) : Option Json :=
  p.foldlM child? j

@[simp] theorem follow?_nil (j : Json) : j.follow? [] = some j :=
  rfl

@[simp] theorem follow?_cons (j : Json) (key : Key) (p : Pointer) :
    j.follow? (key :: p) = (j.child? key).bind (·.follow? p) :=
  rfl

theorem follow?_append (j : Json) (p q : Pointer) :
    j.follow? (p ++ q) = (j.follow? p).bind (·.follow? q) :=
  List.foldlM_append

end Json

end FormLogic
