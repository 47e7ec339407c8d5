import FormLogic.Check.Issue

/-!
# Checking form definitions

The checker looks for ids that are declared twice, and goes through the rule of every field from
left to right. A condition may have several faults; all of them are reported.
-/

namespace FormLogic

namespace Literal

/-- The texts of a literal, which name options where the target has options. -/
def keys : Literal → List String
  | text key => [key]
  | list keys => keys
  | bool _ | number _ => []

end Literal

namespace Field

/-- Whether a text is the key of an option. -/
def hasOption (f : Field) (key : String) : Bool :=
  (List.range f.choices.length).any fun index => choiceKey index == key

end Field

namespace Check

/-- What is odd about an operator and a literal for a target. -/
def targetFaults (op : Operator) (literal? : Option Literal) (target : Field) : List Fault :=
  (if op.appliesTo target.kind then [] else [.kindMismatch op target.kind target.id])
    ++ (if literal?.isNone && !op.standsAlone then [.missingValue op] else [])
    ++ (if target.widget.hasChoices then
          ((literal?.map Literal.keys).getD []).filterMap fun key =>
            if target.hasOption key then none else some (.unknownChoice key target.id)
        else [])

/-- What is wrong with a condition in the rule of the field at a position. -/
def conditionFaults (s : FormSpec) (index : Nat) (c : Condition) : List Fault :=
  let op? := Operator.ofId? c.operator
  (if op?.isNone then [.unknownOperator c.operator] else [])
    ++ match s.position? c.target with
      | none => [.unresolvedTarget c.target]
      | some position =>
        (if index ≤ position then [.forwardReference c.target] else [])
          ++ match op?, s.fields[position]? with
            | some op, some target => targetFaults op c.literal? target
            | _, _ => []

mutual

/-- The faults of a rule, each with its place below the rule. -/
def ruleFaults (s : FormSpec) (index : Nat) : Rule → List (Json.Pointer × Fault)
  | .empty => []
  | .leaf condition =>
    (conditionFaults s index condition).map fun fault => ([.name "entry"], fault)
  | .group connective operands =>
    (if operands.isEmpty then [([], .emptyGroup connective)] else [])
      ++ (operandFaults s index 0 operands).map fun (path, fault) =>
        (.name connective.name :: path, fault)

/-- The faults of operands, of which the first stands at `position`. -/
def operandFaults (s : FormSpec) (index position : Nat) :
    List Rule → List (Json.Pointer × Fault)
  | [] => []
  | rule :: rest =>
    (ruleFaults s index rule).map (fun (path, fault) => (.index position :: path, fault))
      ++ operandFaults s index (position + 1) rest

end

/-- The place of the field at a position in the written definition. -/
def fieldPath (index : Nat) : Json.Pointer :=
  [.name "fields", .index index]

/-- The issue of a field whose id a field before it has too. -/
def duplicateIssues (s : FormSpec) (f : Field) (index : Nat) : List Issue :=
  if s.position? f.id = some index then [] else [⟨f.id, fieldPath index, .duplicateField⟩]

/-- The issues of the rule of a field. -/
def ruleIssues (s : FormSpec) (f : Field) (index : Nat) : List Issue :=
  (ruleFaults s index f.rule).map fun (path, fault) =>
    ⟨f.id, fieldPath index ++ .name "rule" :: path, fault⟩

end Check

/-- The issues of a form definition: first repeated ids, then the rules of the fields in order. -/
def FormSpec.issues (s : FormSpec) : List Issue :=
  s.fields.zipIdx.flatMap (fun (f, index) => Check.duplicateIssues s f index)
    ++ s.fields.zipIdx.flatMap (fun (f, index) => Check.ruleIssues s f index)

namespace Check

def errors (issues : List Issue) : List Issue :=
  issues.filter (·.severity == .error)

/-- Whether there are no errors; warnings do no harm. -/
def isValid (issues : List Issue) : Bool :=
  (errors issues).isEmpty

/-- The report on a definition. -/
def toJson (issues : List Issue) : Json :=
  .object [("issues", .array (issues.map Issue.toJson)), ("valid", .bool (isValid issues))]

end Check

end FormLogic
