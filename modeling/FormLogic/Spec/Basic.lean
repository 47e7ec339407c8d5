import FormLogic.Rule.Basic
import FormLogic.Widget

/-!
# Form definitions

A form is a list of fields in the order in which they are declared. A rule of a field may refer to
fields declared before it.
-/

namespace FormLogic

/-- The declaration of a field. -/
structure Field where
  id : String
  label : String
  widget : Widget
  required : Bool
  /-- The labels of the options, for a widget that has options. -/
  choices : List String
  default? : Option Json
  rule : Rule

namespace Field

def kind (f : Field) : ValueKind :=
  f.widget.kind

def hasRule (f : Field) : Bool :=
  !f.rule.isEmpty

end Field

/-- How changes of visibility are timed and laid out. -/
structure Policy where
  /-- How many milliseconds of quiet end a burst of inputs. -/
  debounce : Nat
  /-- The padding of one level of indentation, in `em`, in single precision. -/
  indentStep : Scalar
  deriving DecidableEq

namespace Policy

/-- The policy of a form that declares none. -/
def standard : Policy :=
  ⟨300, .ofRat 2⟩

/-- The left padding of a level, computed in single precision. -/
def padding (p : Policy) (level : Nat) : Scalar :=
  Format.single.convert ((Format.single.round level).mul p.indentStep)

/-- The left padding of a level as text. -/
def paddingText (p : Policy) (level : Nat) : String :=
  Format.single.plain (p.padding level)

end Policy

/-- The definition of a form. -/
structure FormSpec where
  id : String
  title : String
  version : String
  description? : Option String
  policy? : Option Policy
  fields : List Field

namespace FormSpec

def policy (s : FormSpec) : Policy :=
  s.policy?.getD Policy.standard

/-- The first field with an id. -/
def field? (s : FormSpec) (id : String) : Option Field :=
  s.fields.find? (·.id == id)

/-- The position of the first field with an id. -/
def position? (s : FormSpec) (id : String) : Option Nat :=
  s.fields.findIdx? (·.id == id)

end FormSpec

end FormLogic
