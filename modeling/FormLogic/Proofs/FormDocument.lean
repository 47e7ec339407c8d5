import FormLogic.Proofs.CanonicalJson
import FormLogic.Proofs.Exactness
import FormLogic.Proofs.RuleDocument
import FormLogic.Spec.Document

/-!
# Form definitions and their documents

A form definition is read from any of several layouts and written in one. What is written of a
definition that has been read is read as the definition again, unless the step of its indentation is
no finite number: JSON has no word for that one, and the definition is not read again at all.
-/

namespace FormLogic

theorem Widget.ofJson?_toJson (w : Widget) : ofJson? w.toJson = some w :=
  ofName?_name w

/-! ## Fields -/

namespace Field

/-- A field with a default that is not null and has its members in order, and with a rule that
compares with finite numbers. -/
structure Storable (f : Field) : Prop where
  default : ∀ value, f.default? = some value → value ≠ .null ∧ value.canonical = value
  rule : f.rule.Finite

theorem record?_toJson (f : Field) :
    f.toJson.record? members =
      some [some (.string f.id), some (.string f.label), some f.widget.toJson,
        some (.bool f.required), if f.choices.isEmpty then none else some (.ofStrings f.choices),
        f.default?, if f.rule.isEmpty then none else some f.rule.toJson] := by
  unfold toJson
  cases f.choices.isEmpty <;> cases f.default? <;> cases f.rule.isEmpty <;> rfl

/-- Choices are read again; none need be written. -/
theorem choices_again (choices : List String) :
    Json.withDefault [] Json.strings?
        (if choices.isEmpty then none else some (.ofStrings choices)) = some choices := by
  cases choices with
  | nil => rfl
  | cons first rest => exact Literal.mapM_string? (first :: rest)

theorem default_again {default? : Option Json}
    (storable : ∀ value, default? = some value → value ≠ .null ∧ value.canonical = value) :
    Json.optional (fun value => some value.canonical) default? = some default? := by
  cases default? with
  | none => rfl
  | some value =>
    obtain ⟨present, sorted⟩ := storable value rfl
    rw [Json.optional_of_ne_null present, Option.map_some, sorted]

theorem rule_again {rule : Rule} (finite : rule.Finite) :
    Json.withDefault .empty Rule.ofJson? (if rule.isEmpty then none else some rule.toJson) =
      some rule := by
  cases rule with
  | empty => rfl
  | leaf condition => exact Rule.ofJson?_toJson.mpr finite
  | group connective operands => exact Rule.ofJson?_toJson.mpr finite

theorem ofJson?_toJson {f : Field} (storable : f.Storable) : ofJson? f.toJson = some f := by
  have required : Json.withDefault false Json.bool? (some (.bool f.required)) = some f.required :=
    rfl
  rw [ofJson?, record?_toJson]
  simp only [Option.bind_eq_bind, Option.bind_some, Json.required, Json.string?,
    Widget.ofJson?_toJson, required, choices_again, default_again storable.default,
    rule_again storable.rule]
  rfl

/-- The parts of a value that the default and the rule of a field are read from. -/
structure ReadFrom (j : Json) (f : Field) : Prop where
  default : ∀ value, f.default? = some value →
    ∃ written, Json.Inside written j ∧ written ≠ .null ∧ written.canonical = value
  rule : f.rule = .empty ∨ ∃ written, Json.Inside written j ∧ Rule.ofJson? written = some f.rule

theorem readFrom_of_ofJson? {j : Json} {f : Field} (read : ofJson? j = some f) : ReadFrom j f := by
  rw [ofJson?] at read
  obtain ⟨parts, record, read⟩ := Option.bind_eq_some_iff.mp read
  split at read
  · next _ id label widget required choices default rule =>
    obtain ⟨_, _, read⟩ := Option.bind_eq_some_iff.mp read
    obtain ⟨_, _, read⟩ := Option.bind_eq_some_iff.mp read
    obtain ⟨_, _, read⟩ := Option.bind_eq_some_iff.mp read
    obtain ⟨_, _, read⟩ := Option.bind_eq_some_iff.mp read
    obtain ⟨_, _, read⟩ := Option.bind_eq_some_iff.mp read
    obtain ⟨default?, readDefault, read⟩ := Option.bind_eq_some_iff.mp read
    obtain ⟨rule', readRule, read⟩ := Option.bind_eq_some_iff.mp read
    cases read
    constructor
    · rintro value rfl
      obtain ⟨written, rfl, present, same⟩ := Json.exists_of_optional readDefault
      exact ⟨written, Json.inside_of_record? record (by simp), present, Option.some.inj same⟩
    · cases rule with
      | none =>
        cases readRule
        exact .inl rfl
      | some written => exact .inr ⟨written, Json.inside_of_record? record (by simp), readRule⟩
  · cases read

/-- A field that has been read can be written and read again. -/
theorem ReadFrom.storable {j : Json} {f : Field} (parts : ReadFrom j f) (fits : j.Fits) :
    f.Storable := by
  constructor
  · intro value given
    obtain ⟨written, _, present, rfl⟩ := parts.default value given
    refine ⟨?_, Json.canonical_canonical written⟩
    cases written with
    | null => exact absurd rfl present
    | _ => rintro ⟨⟩
  · rcases parts.rule with empty | ⟨written, inside, read⟩
    · rw [empty]
      exact Rule.finite_empty
    · exact Rule.finite_of_ofJson? written (fits.inside inside) read

end Field

/-! ## Policies -/

namespace Policy

/-- A policy whose step is a number in single precision. -/
def Storable (p : Policy) : Prop :=
  Format.single.convert p.indentStep = p.indentStep

/-- A policy is read again from what it is written as, unless its step is no finite number. -/
theorem ofJson?_toJson {p : Policy} (storable : p.Storable) :
    ofJson? p.toJson = if p.indentStep.isFinite then some p else none := by
  obtain ⟨debounce, indentStep⟩ := p
  cases indentStep with
  | finite x =>
    have step : Json.withDefault standard.indentStep Json.single? (some (.ofScalar (.finite x))) =
        some (.finite x) := congrArg some storable
    have record : (Policy.toJson ⟨debounce, .finite x⟩).record? members =
        some [some (.ofNat debounce), some (.ofScalar (.finite x))] := rfl
    have milliseconds : Json.withDefault standard.debounce Json.natural? (some (.ofNat debounce)) =
        some debounce := rfl
    rw [ofJson?, record]
    simp only [Option.bind_eq_bind, Option.bind_some, milliseconds, step]
    rfl
  | nan => rfl
  | infinite negative => rfl

theorem storable_of_ofJson? {j : Json} {p : Policy} (read : ofJson? j = some p) : p.Storable := by
  rw [ofJson?] at read
  obtain ⟨parts, _, read⟩ := Option.bind_eq_some_iff.mp read
  split at read
  · next step _ =>
    obtain ⟨_, _, read⟩ := Option.bind_eq_some_iff.mp read
    obtain ⟨indentStep, readStep, read⟩ := Option.bind_eq_some_iff.mp read
    cases read
    cases step with
    | none =>
      cases readStep
      show Format.single.convert (.ofRat 2) = .ofRat 2
      decide +kernel
    | some value =>
      cases value with
      | number n =>
        cases readStep
        exact n.convert_toSingle
      | _ => cases readStep
  · cases read

end Policy

/-! ## Forms -/

namespace FormSpec

/-- A form definition of which each part can be written and read again. -/
structure Storable (s : FormSpec) : Prop where
  policy : ∀ p, s.policy? = some p → p.Storable
  fields : ∀ f ∈ s.fields, f.Storable

theorem record?_toJson (s : FormSpec) :
    s.toJson.record? members =
      some [some (.string s.id), some (.string s.title), some (.string s.version),
        s.description?.map .string, s.policy?.map Policy.toJson,
        some (.array (s.fields.map Field.toJson))] := by
  unfold toJson
  cases s.description? <;> cases s.policy? <;> rfl

theorem fields_again {fields : List Field} (storable : ∀ f ∈ fields, f.Storable) :
    (fields.map Field.toJson).mapM Field.ofJson? = some fields := by
  induction fields with
  | nil => rfl
  | cons first rest ih =>
    rw [List.forall_mem_cons] at storable
    rw [List.map_cons, List.mapM_cons, Field.ofJson?_toJson storable.1, ih storable.2]
    rfl

theorem description_again (description? : Option String) :
    Json.optional Json.string? (description?.map .string) = some description? := by
  cases description? <;> rfl

theorem policy_again {policy? : Option Policy} (storable : ∀ p, policy? = some p → p.Storable) :
    Json.optional Policy.ofJson? (policy?.map Policy.toJson) =
      if policy?.all (·.indentStep.isFinite) then some policy? else none := by
  cases policy? with
  | none => rfl
  | some p =>
    have written : p.toJson ≠ .null := by rintro ⟨⟩
    rw [Option.map_some, Json.optional_of_ne_null written, Policy.ofJson?_toJson (storable p rfl),
      Option.all_some]
    split <;> rfl

/-- A form definition is read again from what it is written as, unless the step of its indentation
is no finite number. -/
theorem ofJson?_toJson {s : FormSpec} (storable : s.Storable) :
    ofJson? s.toJson = if s.policy?.all (·.indentStep.isFinite) then some s else none := by
  rw [ofJson?, record?_toJson]
  simp only [Option.bind_eq_bind, Option.bind_some, Json.required, Json.string?, Json.array?,
    description_again, policy_again storable.policy]
  split
  · rw [Option.bind_some, fields_again storable.fields]
    rfl
  · rfl

/-- The parts of a value that the policy and the fields of a form are read from. -/
structure ReadFrom (j : Json) (s : FormSpec) : Prop where
  policy : ∀ p, s.policy? = some p → ∃ written, Policy.ofJson? written = some p
  fields : ∀ f ∈ s.fields, ∃ written list, Json.Inside written list ∧ Json.Inside list j ∧
    Field.ofJson? written = some f

theorem readFrom_of_ofJson? {j : Json} {s : FormSpec} (read : ofJson? j = some s) :
    ReadFrom j s := by
  rw [ofJson?] at read
  obtain ⟨parts, record, read⟩ := Option.bind_eq_some_iff.mp read
  split at read
  · next _ id title version description policy fields =>
    obtain ⟨_, _, read⟩ := Option.bind_eq_some_iff.mp read
    obtain ⟨_, _, read⟩ := Option.bind_eq_some_iff.mp read
    obtain ⟨_, _, read⟩ := Option.bind_eq_some_iff.mp read
    obtain ⟨_, _, read⟩ := Option.bind_eq_some_iff.mp read
    obtain ⟨policy?, readPolicy, read⟩ := Option.bind_eq_some_iff.mp read
    obtain ⟨items, listed, read⟩ := Option.bind_eq_some_iff.mp read
    obtain ⟨fields', readFields, read⟩ := Option.bind_eq_some_iff.mp read
    cases read
    constructor
    · rintro p rfl
      obtain ⟨written, _, _, decoded⟩ := Json.exists_of_optional readPolicy
      exact ⟨written, decoded⟩
    · obtain ⟨list, rfl, array⟩ := Option.bind_eq_some_iff.mp listed
      intro f member
      obtain ⟨item, inside, decoded⟩ := Json.exists_of_mapM readFields f member
      refine ⟨item, list, ?_, Json.inside_of_record? record (by simp), decoded⟩
      cases list with
      | array values =>
        cases array
        exact .item inside
      | _ => cases array
  · cases read

/-- A form definition that has been read can be written and read again. -/
theorem ReadFrom.storable {j : Json} {s : FormSpec} (parts : ReadFrom j s) (fits : j.Fits) :
    s.Storable := by
  constructor
  · intro p declared
    obtain ⟨written, read⟩ := parts.policy p declared
    exact Policy.storable_of_ofJson? read
  · intro f member
    obtain ⟨written, list, inside, listInside, read⟩ := parts.fields f member
    have listFits := fits.inside listInside
    exact (Field.readFrom_of_ofJson? read).storable (listFits.inside inside)

end FormSpec

end FormLogic
