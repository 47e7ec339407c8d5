import FormLogic.Proofs.Places
import FormLogic.Proofs.Reachable

/-!
# What the checker foretells

The errors that the checker reports in the rule of a field, and the failures of that rule in
visibility passes, come from the same conditions: a condition has an error if and only if it fails
(`failure?_eq_none_iff`). The checker reports on all conditions of a rule and a pass on the first
that fails. That a form cannot be set up because of a repeated id is foretold as well.
-/

namespace FormLogic

/-! ## Errors and failures of a condition -/

theorem FormSpec.position?_eq_findIdx? (s : FormSpec) (id : String) :
    s.position? id = (s.fields.map Field.id).findIdx? (· == id) := by
  rw [List.findIdx?_map]
  rfl

namespace Check

variable {s : FormSpec}

theorem failure?_eq_none_iff {index : Nat} {c : Condition} :
    c.failure? (s.fields.map Field.id) index = none ↔ conditionErrors s index c = [] := by
  rw [conditionErrors_eq, Condition.failure?, ← FormSpec.position?_eq_findIdx?]
  cases s.position? c.target with
  | none => simp
  | some position =>
    by_cases late : index ≤ position
    · simp [late]
    · by_cases unknown : (Operator.ofId? c.operator).isNone = true
      · simp [late, unknown]
      · simp [late, unknown]

/-- The error with which a condition fails is reported; a missing target comes before a late one,
and a late one before an unknown operator. -/
theorem failure?_code {index : Nat} {c : Condition} {e : EvalError}
    (failed : c.failure? (s.fields.map Field.id) index = some e) :
    (∃ fault ∈ conditionErrors s index c, fault.code = e.code) ∧
      e.code = match s.position? c.target with
        | none => "unresolved_target"
        | some position =>
          if index ≤ position then "forward_reference" else "unknown_operator" := by
  rw [conditionErrors_eq]
  rw [Condition.failure?, ← FormSpec.position?_eq_findIdx?] at failed
  cases found : s.position? c.target with
  | none =>
    rw [found] at failed
    cases failed
    exact ⟨⟨.unresolvedTarget c.target, by simp, rfl⟩, rfl⟩
  | some position =>
    rw [found] at failed
    by_cases late : index ≤ position
    · simp only [late, if_true] at failed ⊢
      cases failed
      exact ⟨⟨.forwardReference c.target, by simp, rfl⟩, rfl⟩
    · simp only [late, if_false] at failed ⊢
      split at failed
      · next unknown =>
        cases failed
        exact ⟨⟨.unknownOperator c.operator, by simp [unknown], rfl⟩, rfl⟩
      · cases failed

/-! ## Places of errors -/

/-- The place of the rule of the field at a position. -/
def rulePath (index : Nat) : Json.Pointer :=
  fieldPath index ++ [.name "rule"]

theorem plain_name_fields : (Json.Key.name "fields").Plain :=
  ⟨by decide, 'f', by decide, by decide⟩

theorem plain_rulePath (index : Nat) : ∀ key ∈ rulePath index, key.Plain := by
  intro key member
  simp only [rulePath, fieldPath, List.cons_append, List.nil_append, List.mem_cons,
    List.not_mem_nil, or_false] at member
  rcases member with rfl | rfl | rfl
  · exact plain_name_fields
  · trivial
  · exact ⟨by decide, 'r', by decide, by decide⟩

theorem plain_place {index : Nat} {rule : Rule} {path : Json.Pointer} {c : Condition}
    (placed : (path, c) ∈ rule.located) : ∀ key ∈ rulePath index ++ path, key.Plain := by
  intro key member
  rcases List.mem_append.mp member with member | member
  · exact plain_rulePath index key member
  · exact Rule.plain_of_located placed key member

/-- Texts of places in two fields begin alike only if it is one field. -/
theorem text_fieldPath_append {i j : Nat} {p q : Json.Pointer} {rest : String} (goesOn : p ≠ [])
    (same : Json.Pointer.text (fieldPath i ++ p) ++ rest = Json.Pointer.text (fieldPath j ++ q)) :
    i = j ∧ p.text ++ rest = q.text := by
  have pastFields : Json.Pointer.text (.index i :: p) ++ rest = Json.Pointer.text (.index j :: q) :=
    (Json.Pointer.text_cons_append plain_name_fields plain_name_fields (List.cons_ne_nil _ _)
      same).2
  have plainIndex : ∀ k, (Json.Key.index k).Plain := fun _ => trivial
  obtain ⟨sameIndex, pastIndex⟩ :=
    Json.Pointer.text_cons_append (plainIndex i) (plainIndex j) goesOn pastFields
  cases sameIndex
  exact ⟨rfl, pastIndex⟩

/-- The issues that are errors. -/
inductive ErrorIssue (s : FormSpec) : Issue → Prop where
  | repeated {index : Nat} {f : Field} (found : s.fields[index]? = some f)
      (again : s.position? f.id ≠ some index) :
      ErrorIssue s ⟨f.id, fieldPath index, .duplicateField⟩
  | condition {index : Nat} {f : Field} {path : Json.Pointer} {c : Condition} {fault : Fault}
      (found : s.fields[index]? = some f) (placed : (path, c) ∈ f.rule.located)
      (faulty : fault ∈ conditionErrors s index c) :
      ErrorIssue s ⟨f.id, rulePath index ++ path, fault⟩

theorem severity_of_conditionErrors {index : Nat} {c : Condition} {fault : Fault}
    (faulty : fault ∈ conditionErrors s index c) : fault.severity = .error := by
  have isError := (List.mem_filter.mp faulty).2
  exact eq_of_beq isError

theorem errorIssue_iff {issue : Issue} :
    ErrorIssue s issue ↔ issue ∈ s.issues ∧ issue.severity = .error := by
  rw [FormSpec.issues, List.mem_append, List.mem_flatMap, List.mem_flatMap]
  constructor
  · intro error
    cases error with
    | @repeated index f found again =>
      refine ⟨.inl ⟨(f, index), List.mem_zipIdx_iff_getElem?.mpr found, ?_⟩, rfl⟩
      simp only [duplicateIssues, again, if_false, List.mem_singleton]
    | @condition index f path c fault found placed faulty =>
      have severity := severity_of_conditionErrors faulty
      refine ⟨.inr ⟨(f, index), List.mem_zipIdx_iff_getElem?.mpr found, ?_⟩, severity⟩
      refine List.mem_map.mpr ⟨(path, fault), (mem_ruleFaults severity).mpr ⟨c, placed, faulty⟩, ?_⟩
      simp [rulePath]
  · rintro ⟨⟨⟨f, index⟩, found, member⟩ | ⟨⟨f, index⟩, found, member⟩, severity⟩
    · rw [List.mem_zipIdx_iff_getElem?] at found
      simp only [duplicateIssues] at member
      split at member
      · cases member
      · next again =>
        rw [List.mem_singleton.mp member]
        exact .repeated found again
    · rw [List.mem_zipIdx_iff_getElem?] at found
      obtain ⟨⟨path, fault⟩, inRule, rfl⟩ := List.mem_map.mp member
      obtain ⟨c, placed, faulty⟩ := (mem_ruleFaults severity).mp inRule
      have error := ErrorIssue.condition found placed faulty
      rw [rulePath, List.append_assoc] at error
      exact error

end Check

theorem Rule.failure?_eq_located (ids : List String) (n : Nat) (rule : Rule) :
    rule.failure? ids n = rule.located.findSome? fun x => x.2.failure? ids n := by
  rw [failure?, ← map_snd_located, List.findSome?_map]
  rfl

namespace FormSpec

/-- An error is reported at a place. -/
def ErrorAt (s : FormSpec) (place : Json.Pointer) : Prop :=
  ∃ issue ∈ s.issues, issue.severity = .error ∧ issue.path.text = place.text

/-- An error is reported at a place whose text begins as that of the given one. -/
def ErrorBelow (s : FormSpec) (place : Json.Pointer) : Prop :=
  ∃ issue ∈ s.issues, issue.severity = .error ∧ ∃ rest, place.text ++ rest = issue.path.text

variable {s : FormSpec} {index : Nat} {f : Field}

/-- Places with one text are in the rule of one field, and one condition stands there. -/
theorem condition_unique {i j : Nat} {f g : Field} {p q : Json.Pointer} {c d : Condition}
    (foundF : s.fields[i]? = some f) (placedC : (p, c) ∈ f.rule.located)
    (foundG : s.fields[j]? = some g) (placedD : (q, d) ∈ g.rule.located)
    (sameText : (Check.rulePath i ++ p : Json.Pointer).text =
      (Check.rulePath j ++ q : Json.Pointer).text) : i = j ∧ c = d := by
  have same := Json.Pointer.text_inj (Check.plain_place placedC) (Check.plain_place placedD)
    sameText
  simp only [Check.rulePath, Check.fieldPath, List.cons_append, List.nil_append,
    List.cons.injEq, Json.Key.index.injEq, true_and] at same
  obtain ⟨rfl, rfl⟩ := same
  rw [foundF] at foundG
  cases foundG
  exact ⟨rfl, Rule.located_unique placedC placedD⟩

/-- The errors at the place of a condition are its own. -/
theorem errorAt_iff {path : Json.Pointer} {c : Condition} (found : s.fields[index]? = some f)
    (placed : (path, c) ∈ f.rule.located) :
    s.ErrorAt (Check.rulePath index ++ path) ↔ Check.conditionErrors s index c ≠ [] := by
  constructor
  · rintro ⟨issue, reported, severity, samePlace⟩
    cases Check.errorIssue_iff.mpr ⟨reported, severity⟩ with
    | @repeated j g foundG again =>
      have plainField : ∀ key ∈ Check.fieldPath j, key.Plain := fun key member =>
        Check.plain_rulePath j key (List.mem_append_left _ member)
      have same := Json.Pointer.text_inj plainField (Check.plain_place placed) samePlace
      have lengths := congrArg List.length same
      simp [Check.fieldPath, Check.rulePath] at lengths
    | @condition j g path' d fault foundG placed' faulty =>
      obtain ⟨rfl, rfl⟩ := condition_unique foundG placed' found placed samePlace
      exact List.ne_nil_of_mem faulty
  · intro errors
    obtain ⟨fault, faulty⟩ := List.exists_mem_of_ne_nil _ errors
    obtain ⟨reported, severity⟩ :=
      Check.errorIssue_iff.mp (.condition found placed faulty)
    exact ⟨_, reported, severity, rfl⟩

/-- The errors at places below the rule of a field are those of its conditions. -/
theorem errorBelow_iff (found : s.fields[index]? = some f) :
    s.ErrorBelow (Check.rulePath index) ↔
      ∃ x ∈ f.rule.located, Check.conditionErrors s index x.2 ≠ [] := by
  constructor
  · rintro ⟨issue, reported, severity, rest, begins⟩
    cases Check.errorIssue_iff.mpr ⟨reported, severity⟩ with
    | @repeated j g foundG again =>
      rw [← List.append_nil (Check.fieldPath j)] at begins
      obtain ⟨_, noRule⟩ := Check.text_fieldPath_append (List.cons_ne_nil _ _) begins
      have chars := congrArg String.toList noRule
      rw [String.toList_append, Json.Pointer.toList_text_cons] at chars
      cases chars
    | @condition j g path d fault foundG placed faulty =>
      simp only [Check.rulePath, List.append_assoc] at begins
      obtain ⟨rfl, _⟩ := Check.text_fieldPath_append (List.cons_ne_nil _ _) begins
      rw [found] at foundG
      cases foundG
      exact ⟨(path, d), placed, List.ne_nil_of_mem faulty⟩
  · rintro ⟨⟨path, c⟩, placed, errors⟩
    obtain ⟨issue, reported, severity, samePlace⟩ := (errorAt_iff found placed).mpr errors
    refine ⟨issue, reported, severity, path.text, ?_⟩
    rw [samePlace, Json.Pointer.text_append]

/-! ## Failures of a rule -/

theorem failure?_isSome_iff (found : s.fields[index]? = some f) :
    (f.rule.failure? (s.fields.map Field.id) index).isSome ↔
      s.ErrorBelow (Check.rulePath index) := by
  rw [errorBelow_iff found, Rule.failure?_eq_located, List.findSome?_isSome_iff]
  constructor
  · rintro ⟨x, placed, fails⟩
    refine ⟨x, placed, ?_⟩
    rw [ne_eq, ← Check.failure?_eq_none_iff]
    exact Option.isSome_iff_ne_none.mp fails
  · rintro ⟨x, placed, errors⟩
    refine ⟨x, placed, ?_⟩
    rw [Option.isSome_iff_ne_none, ne_eq, Check.failure?_eq_none_iff]
    exact errors

/-- A rule fails as its first condition with a reported error. -/
theorem first_failure (found : s.fields[index]? = some f) {e : EvalError}
    (failed : f.rule.failure? (s.fields.map Field.id) index = some e) :
    ∃ before path c after, f.rule.located = before ++ (path, c) :: after ∧
      (∀ earlier ∈ before, ¬ s.ErrorAt (Check.rulePath index ++ earlier.1)) ∧
      c.failure? (s.fields.map Field.id) index = some e := by
  rw [Rule.failure?_eq_located, List.findSome?_eq_some_iff] at failed
  obtain ⟨before, ⟨path, c⟩, after, split, fails, noneBefore⟩ := failed
  refine ⟨before, path, c, after, split, ?_, fails⟩
  rintro ⟨path', d⟩ inBefore errorAt
  have placed : (path', d) ∈ f.rule.located := by
    rw [split]
    exact List.mem_append_left _ inBefore
  exact (errorAt_iff found placed).mp errorAt
    (Check.failure?_eq_none_iff.mp (noneBefore (path', d) inBefore))

/-! ## Repeated ids -/

theorem reported_of_repeated (found : s.fields[index]? = some f)
    (again : s.position? f.id ≠ some index) :
    ∃ issue ∈ s.issues, issue.fault = .duplicateField ∧ issue.fieldId = f.id := by
  obtain ⟨reported, _⟩ := Check.errorIssue_iff.mp (.repeated found again)
  exact ⟨_, reported, rfl, rfl⟩

/-- Where a repeated id is reported, ids are not distinct. -/
theorem not_nodup_of_reported {issue : Issue} (reported : issue ∈ s.issues)
    (duplicate : issue.fault = .duplicateField) : ¬ (s.fields.map Field.id).Nodup := by
  intro distinct
  have severity : issue.severity = .error := by
    rw [Issue.severity, duplicate]
    rfl
  cases Check.errorIssue_iff.mpr ⟨reported, severity⟩ with
  | @repeated i f found again =>
    apply again
    rw [position?_eq_findIdx?]
    apply findIdx?_of_nodup distinct
    rw [List.getElem?_map, found, Option.map_some]
  | @condition i f path c fault found placed faulty =>
    simp only at duplicate
    subst duplicate
    rw [Check.conditionErrors_eq, List.mem_append] at faulty
    rcases faulty with inOperator | inTarget
    · split at inOperator
      · simp at inOperator
      · cases inOperator
    · split at inTarget
      · simp at inTarget
      · split at inTarget
        · simp at inTarget
        · cases inTarget

end FormSpec

namespace Control

theorem ofField_not_duplicate {f : Field} {id : String} :
    ofField f ≠ .error (.duplicateField id) := by
  intro failed
  simp only [ofField] at failed
  split at failed
  · next value _ =>
    cases decoded : Answer.ofJson f.widget f.choices value with
    | ok answer =>
      rw [answerOf, decoded] at failed
      cases failed
    | error rejection =>
      rw [answerOf, decoded] at failed
      cases failed
  · cases failed

/-- The id that is refused has been there before. -/
theorem ofFields_duplicate {before : List String} {fields : List Field} {id : String}
    (refused : ofFields before fields = .error (.duplicateField id)) :
    ∃ earlier f later, fields = earlier ++ f :: later ∧ f.id = id ∧
      (id ∈ before ∨ id ∈ earlier.map Field.id) := by
  induction fields generalizing before with
  | nil => cases refused
  | cons f rest ih =>
    simp only [ofFields] at refused
    by_cases repeated : before.contains f.id = true
    · rw [if_pos repeated] at refused
      cases refused
      exact ⟨[], f, rest, rfl, rfl, .inl (by simpa using repeated)⟩
    · rw [if_neg repeated] at refused
      cases first : ofField f with
      | error e =>
        rw [first] at refused
        cases refused
        exact absurd first ofField_not_duplicate
      | ok c =>
        cases others : ofFields (f.id :: before) rest with
        | ok cs =>
          rw [first, others] at refused
          cases refused
        | error e =>
          rw [first, others] at refused
          cases refused
          obtain ⟨earlier, g, later, split, sameId, known⟩ := ih others
          refine ⟨f :: earlier, g, later, by rw [split]; rfl, sameId, ?_⟩
          rcases known with known | known
          · rcases List.mem_cons.mp known with same | known
            · exact .inr (same ▸ List.mem_cons_self)
            · exact .inl known
          · exact .inr (List.mem_cons_of_mem _ known)

end Control

namespace FormSpec

/-- A form that is refused for a repeated id has been reported for it. -/
theorem reported_of_refused {s : FormSpec} {id : String}
    (refused : FormState.ofSpec s = .error (.duplicateField id)) :
    ∃ issue ∈ s.issues, issue.fault = .duplicateField ∧ issue.fieldId = id := by
  have refusedFields : Control.ofFields [] s.fields = .error (.duplicateField id) := by
    simp only [FormState.ofSpec] at refused
    cases opened : Control.ofFields [] s.fields with
    | ok controls =>
      rw [opened] at refused
      cases refused
    | error e =>
      rw [opened] at refused
      cases refused
      rfl
  obtain ⟨earlier, f, later, split, sameId, known⟩ := Control.ofFields_duplicate refusedFields
  have inEarlier : id ∈ earlier.map Field.id := known.resolve_left List.not_mem_nil
  have found : s.fields[earlier.length]? = some f := by
    rw [split, List.getElem?_append_right (Nat.le_refl _), Nat.sub_self]
    rfl
  rw [← sameId]
  apply reported_of_repeated found
  intro first
  rw [position?_eq_findIdx?, List.findIdx?_eq_some_iff_getElem] at first
  obtain ⟨_, _, notBefore⟩ := first
  obtain ⟨j, bound, atJ⟩ := List.getElem_of_mem inEarlier
  rw [List.length_map] at bound
  have sameAtJ : (s.fields.map Field.id)[j]? = some id := by
    rw [split, List.map_append, List.getElem?_append_left (by simpa using bound),
      List.getElem?_eq_getElem (by simpa using bound), atJ]
  have notThere := notBefore j bound
  rw [(List.getElem?_eq_some_iff.mp sameAtJ).2, sameId] at notThere
  simp at notThere

end FormSpec

/-! ## Passes over a form -/

namespace FormState

variable {spec : FormSpec} {s : FormState} {index : Nat} {f : Field}

/-- A rule fails in a pass if and only if an error is reported below its place. -/
theorem Kept.fails_iff (kept : Kept spec s) (found : spec.fields[index]? = some f) :
    (∃ e, f.rule.evaluate s.refreshed.controls (some index) = .error e) ↔
      spec.ErrorBelow (Check.rulePath index) := by
  rw [← FormSpec.failure?_isSome_iff found, ← kept.refreshed_ids, ← Rule.errorOf?_evaluate_some,
    Option.isSome_iff_exists]
  simp only [errorOf?_eq_some_iff]

theorem Kept.no_failures (kept : Kept spec s) (valid : Check.isValid spec.issues = true) :
    s.refresh.2.failures = [] := by
  rw [Check.isValid, List.isEmpty_iff, Check.errors, List.filter_eq_nil_iff] at valid
  rw [failures_refresh, kept.fields, Field.failures, List.reduceOption, List.filterMap_eq_nil_iff]
  intro failure member
  obtain ⟨index, bound, rfl⟩ := List.mem_mapIdx.mp member
  have found := List.getElem?_eq_getElem bound
  have noFailure :
      ¬ (spec.fields[index].rule.failure? (spec.fields.map Field.id) index).isSome := by
    rw [FormSpec.failure?_isSome_iff found]
    rintro ⟨issue, reported, severity, _⟩
    exact valid issue reported (by rw [severity]; rfl)
  rw [Option.not_isSome_iff_eq_none.mp noFailure]
  rfl

end FormState

/-- What the checker reports is what goes wrong. A repeated id is reported if a form is refused for
it, and a form with a reported one cannot be set up. In every state of a form, a pass finds the rule
of a field failing if and only if an error is reported below the place of that rule; it fails as its
first condition with a reported error does, and that error is reported there. -/
theorem FormSpec.issues_foretell_failures (spec : FormSpec) :
    ((∃ issue ∈ spec.issues, issue.fault = .duplicateField) →
      ∃ e, FormState.ofSpec spec = .error e) ∧
    (∀ id, FormState.ofSpec spec = .error (.duplicateField id) →
      ∃ issue ∈ spec.issues, issue.fault = .duplicateField ∧ issue.fieldId = id) ∧
    ∀ s, FormState.Reachable spec s →
      (∀ index f, spec.fields[index]? = some f →
        ∃ found, s.refresh.2.fields[index]? = some found ∧ found.id = f.id ∧
          ((∃ e, found.outcome = .error e) ↔ spec.ErrorBelow (Check.rulePath index)) ∧
          ∀ e, found.outcome = .error e →
            ∃ before path c after, f.rule.located = before ++ (path, c) :: after ∧
              (∀ earlier ∈ before, ¬ spec.ErrorAt (Check.rulePath index ++ earlier.1)) ∧
              c.evaluate s.refreshed.controls (some index) = .error e ∧
              (e.code = match spec.position? c.target with
                | none => "unresolved_target"
                | some position =>
                  if index ≤ position then "forward_reference" else "unknown_operator") ∧
              ∃ issue ∈ spec.issues, issue.severity = .error ∧
                issue.path.text = (Check.rulePath index ++ path).text ∧
                issue.fault.code = e.code) ∧
      (Check.isValid spec.issues = true → s.refresh.2.failures = []) := by
  refine ⟨?_, fun id => reported_of_refused, ?_⟩
  · rintro ⟨issue, reported, duplicate⟩
    cases opened : FormState.ofSpec spec with
    | error e => exact ⟨e, rfl⟩
    | ok first =>
      have distinct := (Control.ofFields_ok (FormState.ofSpec_ok.mp opened).1).2.2.1
      exact absurd distinct (not_nodup_of_reported reported duplicate)
  · intro s reached
    have kept := reached.kept
    refine ⟨?_, kept.no_failures⟩
    intro index f found
    refine ⟨_, kept.found_field found, rfl, kept.fails_iff found, ?_⟩
    intro e failed
    have fails : f.rule.failure? (spec.fields.map Field.id) index = some e := by
      rw [← kept.refreshed_ids, ← Rule.errorOf?_evaluate_some]
      exact errorOf?_eq_some_iff.mpr failed
    obtain ⟨before, path, c, after, split, noneBefore, failsC⟩ := first_failure found fails
    obtain ⟨⟨fault, faulty, sameCode⟩, code⟩ := Check.failure?_code failsC
    have placed : (path, c) ∈ f.rule.located := by
      rw [split]
      exact List.mem_append_right _ List.mem_cons_self
    obtain ⟨reported, severity⟩ := Check.errorIssue_iff.mp (.condition found placed faulty)
    refine ⟨before, path, c, after, split, noneBefore, ?_, code, _, reported, severity, rfl,
      sameCode⟩
    apply errorOf?_eq_some_iff.mp
    rw [Condition.errorOf?_evaluate, kept.refreshed_ids]
    exact failsC

/-- The fee of a journey depends on a field that is not there, and fails whatever one answers. -/
theorem FormSpec.travel_foretells_failure :
    (∃ s, FormState.Reachable FormSpec.travel s) ∧
    ∀ s, FormState.Reachable FormSpec.travel s →
      ∃ found e, s.refresh.2.fields[3]? = some found ∧ found.outcome = .error e ∧
        e.code = "unresolved_target" := by
  refine ⟨⟨_, .ofSpec rfl⟩, ?_⟩
  intro s reached
  obtain ⟨found, there, _, fails, first⟩ :=
    (FormSpec.issues_foretell_failures FormSpec.travel |>.2.2 s reached).1 3 _ rfl
  obtain ⟨e, failed⟩ := fails.mpr
    ⟨⟨"fee", Check.rulePath 3 ++ [.name "entry"], .unresolvedTarget "price"⟩,
      List.mem_singleton.mpr rfl, rfl, "/entry", by decide⟩
  obtain ⟨before, path, c, after, split, _, _, code, _⟩ := first e failed
  have onlyOne : [([.name "entry"], ⟨"price", "c", none⟩)] = before ++ (path, c) :: after := split
  cases before with
  | nil =>
    cases onlyOne
    exact ⟨found, e, there, failed, code⟩
  | cons earlier before => simp at onlyOne

end FormLogic
