import FormLogic.Number.Format

/-!
# JSON values

Objects are kept as they are written, as a list of members in order, so that a decoder can refuse
a repeated name. `Json.canonical` gives the value that a document denotes where order and
repetition have no meaning: members sorted by name, the last of several with one name.
-/

namespace FormLogic

/-- A JSON number: a whole number, or a double. -/
inductive Json.Number where
  | whole (value : Int)
  | floating (value : FiniteScalar)
  deriving DecidableEq

namespace Json.Number

/-- The number as a double. -/
def toDouble : Json.Number → Scalar
  | whole value => .ofInt value
  | floating value => .finite value

/-- The number in single precision, rounded in one step from what is written. -/
def toSingle : Json.Number → Scalar
  | whole value => Format.single.round value
  | floating value => Format.single.convert (.finite value)

end Json.Number

inductive Json where
  | null
  | bool (value : Bool)
  | number (value : Json.Number)
  | string (value : String)
  | array (items : List Json)
  | object (members : List (String × Json))
  deriving Inhabited

namespace Json

/-- A member of an object. -/
abbrev Member := String × Json

/-- Sorted members with one more; a member of that name that is already there stays. -/
def insertIfNew (name : String) (value : Json) : List Member → List Member
  | [] => [(name, value)]
  | (name', value') :: rest =>
    if name < name' then (name, value) :: (name', value') :: rest
    else if name = name' then (name', value') :: rest
    else (name', value') :: insertIfNew name value rest

/-- Sorted members with one more; a member of that name is replaced. -/
def insert (name : String) (value : Json) : List Member → List Member
  | [] => [(name, value)]
  | (name', value') :: rest =>
    if name < name' then (name, value) :: (name', value') :: rest
    else if name = name' then (name, value) :: rest
    else (name', value') :: insert name value rest

/-- Members sorted by name, in the order of their UTF-8 text; the last of each name. -/
def sortMembers : List Member → List Member
  | [] => []
  | (name, value) :: rest => insertIfNew name value (sortMembers rest)

/-- The members of an object, sorted; nothing for any other value. -/
def entries : Json → List Member
  | object members => sortMembers members
  | _ => []

mutual

/-- The value with the members of every object sorted, the last of each name. -/
def canonical : Json → Json
  | array items => array (canonicalItems items)
  | object members => object (canonicalMembers members)
  | other => other

def canonicalItems : List Json → List Json
  | [] => []
  | item :: rest => canonical item :: canonicalItems rest

def canonicalMembers : List Member → List Member
  | [] => []
  | (name, value) :: rest => insertIfNew name (canonical value) (canonicalMembers rest)

end

/-- The value of the member with a name, in an object that has it. -/
def member? (name : String) : Json → Option Json
  | object members => (members.find? (·.1 == name)).map (·.2)
  | _ => none

/-- A number of a floating format; JSON has no word for what is not finite. -/
def ofScalar : Scalar → Json
  | .finite x => number (.floating x)
  | .nan | .infinite _ => null

def ofNat (n : Nat) : Json :=
  number (.whole n)

def ofStrings (texts : List String) : Json :=
  array (texts.map string)

def bool? : Json → Option Bool
  | bool value => some value
  | _ => none

def string? : Json → Option String
  | string value => some value
  | _ => none

def array? : Json → Option (List Json)
  | array items => some items
  | _ => none

/-- A list of texts, all of them. -/
def strings? (j : Json) : Option (List String) := do
  (← j.array?).mapM string?

/-- A whole number from zero on. -/
def natural? : Json → Option Nat
  | number (.whole value) => if 0 ≤ value then some value.toNat else none
  | _ => none

/-- A number as a double. -/
def double? : Json → Option Scalar
  | number value => some value.toDouble
  | _ => none

/-- A number in single precision. -/
def single? : Json → Option Scalar
  | number value => some value.toSingle
  | _ => none

end Json

end FormLogic
