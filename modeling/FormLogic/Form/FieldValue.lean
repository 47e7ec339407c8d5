import FormLogic.Form.Answer
import FormLogic.Text.KeySet
import FormLogic.Time.Timestamp

/-!
# Field values

The typed value of a widget's contents. Contents that cannot be read as the widget's kind, or that
do not have its shape, give a value that compares with nothing.
-/

namespace FormLogic

inductive FieldValue where
  | text (value : String)
  | number (value : Scalar)
  /-- Seconds since the start of 1970. -/
  | timestamp (seconds : Int)
  | checked (value : Bool)
  /-- The key of the option picked, if one is. -/
  | choice (key : Option String)
  /-- The keys of the options picked. -/
  | choices (keys : KeySet)
  | notComparable
  deriving DecidableEq

/-- The keys of the options picked, in the order of the options; `first` is the position of the
    first flag. -/
def pickedKeys (first : Nat) : List Bool → List String
  | [] => []
  | picked :: rest =>
    if picked then choiceKey first :: pickedKeys (first + 1) rest
    else pickedKeys (first + 1) rest

namespace FieldValue

/-- The value in words. -/
def display : FieldValue → String
  | text value => value
  | number value => value.text
  | timestamp seconds => toString seconds
  | checked value => if value then "true" else "false"
  | choice key => key.getD ""
  | choices keys => ",".intercalate keys.toList
  | notComparable => "NaN"

/-- The moment typed into a date widget, which has one layout of its own. -/
def timestamp? (w : Widget) (typed : String) : Option Int :=
  let cs := Text.trim typed.toList
  match w with
  | .date => Timestamp.date? cs
  | .time => Timestamp.time? cs
  | _ => Timestamp.dateTime? cs

/-- The value of a widget's contents. -/
def ofAnswer (w : Widget) (answer : Answer) : FieldValue :=
  match w.kind, answer with
  | .text, .text typed => text typed
  | .numeric, .text typed => ((numberOfText? typed).map number).getD notComparable
  | .date, .text typed => ((timestamp? w typed).map timestamp).getD notComparable
  | .boolean, .checked value => checked value
  | .singleChoice, .options flags => choice (pickedKeys 0 flags).head?
  | .multiChoice, .options flags => choices (KeySet.ofList (pickedKeys 0 flags))
  | _, _ => notComparable

end FieldValue

end FormLogic
