import FormLogic.Json.Record

/-!
# Widgets

What a field is filled in with, and the kind of value that comes out.
-/

namespace FormLogic

/-- The kind of value that a widget produces. -/
inductive ValueKind where
  | text
  | numeric
  | boolean
  | date
  | singleChoice
  | multiChoice
  deriving DecidableEq

namespace ValueKind

def all : List ValueKind :=
  [text, numeric, boolean, date, singleChoice, multiChoice]

def name : ValueKind → String
  | text => "text"
  | numeric => "numeric"
  | boolean => "boolean"
  | date => "date"
  | singleChoice => "single_choice"
  | multiChoice => "multi_choice"

def ofName? (name : String) : Option ValueKind :=
  all.find? (·.name == name)

/-- Whether the value is picked from a list of options. -/
def isChoice : ValueKind → Bool
  | singleChoice | multiChoice => true
  | text | numeric | boolean | date => false

end ValueKind

/-- The widget of a field. -/
inductive Widget where
  | singleline
  | multiline
  | email
  | url
  | hidden
  | number
  | date
  | time
  | datetime
  | checkbox
  | checkboxes
  | radio
  | dropdown
  | multiselect
  deriving DecidableEq

namespace Widget

def all : List Widget :=
  [singleline, multiline, email, url, hidden, number, date, time, datetime, checkbox, checkboxes,
    radio, dropdown, multiselect]

def name : Widget → String
  | singleline => "singleline"
  | multiline => "multiline"
  | email => "email"
  | url => "url"
  | hidden => "hidden"
  | number => "number"
  | date => "date"
  | time => "time"
  | datetime => "datetime"
  | checkbox => "checkbox"
  | checkboxes => "checkboxes"
  | radio => "radio"
  | dropdown => "dropdown"
  | multiselect => "multiselect"

def kind : Widget → ValueKind
  | singleline | multiline | email | url | hidden => .text
  | number => .numeric
  | date | time | datetime => .date
  | checkbox => .boolean
  | radio | dropdown => .singleChoice
  | checkboxes | multiselect => .multiChoice

/-- Whether the widget offers a list of options. -/
def hasChoices (w : Widget) : Bool :=
  w.kind.isChoice

/-- Whether the widget stands without a block around it, and is itself shown and hidden. -/
def isOwnBlock : Widget → Bool
  | hidden => true
  | _ => false

def ofName? (name : String) : Option Widget :=
  all.find? (·.name == name)

theorem ofName?_name (w : Widget) : ofName? w.name = some w := by
  cases w <;> decide

def toJson (w : Widget) : Json :=
  .string w.name

def ofJson? (j : Json) : Option Widget :=
  j.choice?.bind ofName?

/-- The widget that a JSON text names. -/
def ofText? (text : String) : Option Widget :=
  (Json.ofText? text).bind ofJson?

end Widget

/-- The key of the option at a position, by which rules and answers refer to it. -/
def choiceKey (index : Nat) : String :=
  String.ofList ('c' :: Nat.toDigits 10 (index + 1))

end FormLogic
