import FormLogic.Json.Token

/-!
# JSON documents

A document that has been taken apart but not yet read. A reader that knows only some members of
an object skips the others: `Draft.record` drops them, and what is dropped may hold numbers out of
range, half surrogate pairs and any depth of nesting. The rest has to be a JSON value, nested less
than 128 deep.
-/

namespace FormLogic

/-- A JSON document whose numbers and strings are still as written. -/
inductive Draft where
  | null
  | bool (value : Bool)
  | number (numeral : Numeral)
  | string (units : List TextUnit)
  | array (items : List Draft)
  | object (members : List (List TextUnit × Draft))
  deriving Inhabited

namespace Draft

/-- A container that is still open; what it holds so far is kept in reverse. -/
inductive Frame where
  | array (items : List Draft)
  /-- An object and the name of the member whose value comes next. -/
  | object (members : List (List TextUnit × Draft)) (name : List TextUnit)

/-- What may come next in a document. -/
inductive Expected where
  | value
  | valueOrClose
  | name
  | nameOrClose
  | colon
  | commaOrClose
  | nothing

/-- A builder of documents. -/
structure Builder where
  frames : List Frame
  expected : Expected
  result : Draft

namespace Builder

def start : Builder :=
  ⟨[], .value, .null⟩

/-- Puts a finished value into the innermost open container. -/
def complete (frames : List Frame) (d : Draft) : Builder :=
  match frames with
  | [] => ⟨[], .nothing, d⟩
  | .array items :: rest => ⟨.array (d :: items) :: rest, .commaOrClose, .null⟩
  | .object members name :: rest =>
    ⟨.object ((name, d) :: members) name :: rest, .commaOrClose, .null⟩

/-- A token where a value may begin. -/
def value? (frames : List Frame) : Token → Option Builder
  | .null => some (complete frames .null)
  | .bool value => some (complete frames (.bool value))
  | .number numeral => some (complete frames (.number numeral))
  | .string units => some (complete frames (.string units))
  | .openArray => some ⟨.array [] :: frames, .valueOrClose, .null⟩
  | .openObject => some ⟨.object [] [] :: frames, .nameOrClose, .null⟩
  | .closeArray | .closeObject | .comma | .colon => none

/-- A token where the name of a member may stand. -/
def name? (frames : List Frame) : Token → Option Builder
  | .string units =>
    match frames with
    | .object members _ :: rest => some ⟨.object members units :: rest, .colon, .null⟩
    | _ => none
  | _ => none

/-- A token that ends the innermost open container. -/
def close? (frames : List Frame) : Token → Option Builder
  | .closeArray =>
    match frames with
    | .array items :: rest => some (complete rest (.array items.reverse))
    | _ => none
  | .closeObject =>
    match frames with
    | .object members _ :: rest => some (complete rest (.object members.reverse))
    | _ => none
  | _ => none

/-- A comma in the innermost open container. -/
def comma? : List Frame → Option Builder
  | frames@(.array _ :: _) => some ⟨frames, .value, .null⟩
  | frames@(.object _ _ :: _) => some ⟨frames, .name, .null⟩
  | [] => none

/-- One more token. -/
def step? (b : Builder) (token : Token) : Option Builder :=
  match b.expected, token with
  | .value, token => value? b.frames token
  | .valueOrClose, .closeArray => close? b.frames .closeArray
  | .valueOrClose, token => value? b.frames token
  | .name, token => name? b.frames token
  | .nameOrClose, .closeObject => close? b.frames .closeObject
  | .nameOrClose, token => name? b.frames token
  | .colon, .colon => some ⟨b.frames, .value, .null⟩
  | .commaOrClose, .comma => comma? b.frames
  | .commaOrClose, token => close? b.frames token
  | _, _ => none

/-- The document, once nothing is missing. -/
def finish? (b : Builder) : Option Draft :=
  match b.expected with
  | .nothing => some b.result
  | _ => none

end Builder

/-- The document that a text is. -/
def ofText? (text : String) : Option Draft := do
  let tokens ← Token.ofChars? text.toList
  (← tokens.foldlM Builder.step? Builder.start).finish?

/-- A record read by someone who knows the members `names`: members of other names are dropped,
    and a known one is changed as `change` says. A record may also be written as an array of its
    values in the order of the names. -/
def record (names : List String) (change : String → Draft → Draft) : Draft → Draft
  | object members =>
    object <| members.filterMap fun (units, d) =>
      match TextUnit.text? units with
      | none => some (units, d)
      | some name => if names.contains name then some (units, change name d) else none
  | array items =>
    array (List.zipWith change names items ++ items.drop names.length)
  | other => other

/-- An array with all its items changed. -/
def eachItem (d : Draft) (change : Draft → Draft) : Draft :=
  match d with
  | array items => array (items.map change)
  | other => other

mutual

/-- The value of a document, if everything in it denotes something and it nests no deeper than
    `room`. -/
def toJson? (room : Nat) : Draft → Option Json
  | null => some .null
  | bool value => some (.bool value)
  | number numeral => numeral.toNumber?.map .number
  | string units => (TextUnit.text? units).map .string
  | array items =>
    match room with
    | 0 => none
    | room + 1 => (itemsToJson? room items).map .array
  | object members =>
    match room with
    | 0 => none
    | room + 1 => (membersToJson? room members).map .object

def itemsToJson? (room : Nat) : List Draft → Option (List Json)
  | [] => some []
  | item :: rest => do
    let item ← toJson? room item
    return item :: (← itemsToJson? room rest)

def membersToJson? (room : Nat) : List (List TextUnit × Draft) → Option (List Json.Member)
  | [] => some []
  | (units, d) :: rest => do
    let name ← TextUnit.text? units
    let value ← toJson? room d
    return (name, value) :: (← membersToJson? room rest)

end

/-- How many containers a document may have around a value. -/
def maxDepth : Nat := 127

end Draft

namespace Json

/-- The value that a text is, read by someone who looks at the parts that `known` keeps. -/
def ofTextKnowing? (known : Draft → Draft) (text : String) : Option Json :=
  (Draft.ofText? text).bind fun d => (known d).toJson? Draft.maxDepth

/-- The value that a text is, members as written. -/
def ofText? (text : String) : Option Json :=
  ofTextKnowing? id text

/-- The value of a text, order and repetition of members left aside. -/
def valueOfText? (text : String) : Option Json :=
  (ofText? text).map canonical

end Json

end FormLogic
