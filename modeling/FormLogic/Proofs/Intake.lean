import FormLogic.Form.Submission
import FormLogic.Proofs.Answers

/-!
# Answers that cannot be taken

A submission notes the answers that it cannot take and goes on with the others, where a form that is
filled in gives up at the first. Each entry goes to one of three places (`Intake.Sorted`), and the
entries that are taken leave the state that the form has when it is filled in with these alone; the
submission is a pass over that state.
-/

namespace FormLogic

/-! ## What a form makes of an entry -/

namespace FormSpec

/-- Whether an entry names a field of the form and the field takes its value. -/
def takes (spec : FormSpec) (entry : Json.Member) : Bool :=
  (spec.field? entry.1).any fun f => (Control.answerOf f entry.2).isOk

/-- The error with which the field that an entry names rejects its value. -/
def rejection? (spec : FormSpec) (entry : Json.Member) : Option FormError :=
  (spec.field? entry.1).bind fun f =>
    match Control.answerOf f entry.2 with
    | .ok _ => none
    | .error error => some error

/-- The answers without those that the form does not take. -/
def acceptable (spec : FormSpec) (answers : Json) : Json :=
  .object (answers.entries.filter spec.takes)

/-- The names among those of some entries that are not declared in the form. -/
def undeclared (spec : FormSpec) (entries : List Json.Member) : List String :=
  (entries.map Prod.fst).filter fun name => (spec.field? name).isNone

/-- The entries that name a field which rejects their value, each with the error. -/
def rejected (spec : FormSpec) (entries : List Json.Member) : List (String × FormError) :=
  entries.filterMap fun entry => (spec.rejection? entry).map (entry.1, ·)

theorem takes_iff {spec : FormSpec} {entry : Json.Member} :
    spec.takes entry = true ↔
      (spec.field? entry.1).isNone = false ∧ spec.rejection? entry = none := by
  rw [takes, rejection?]
  cases spec.field? entry.1 with
  | none => simp
  | some f =>
    rw [Option.any_some, Option.bind_some]
    cases Control.answerOf f entry.2 with
    | ok answer => simp [Except.isOk, Except.toBool]
    | error e => simp [Except.isOk, Except.toBool]

theorem declared_of_takes {spec : FormSpec} {entry : Json.Member}
    (takes : spec.takes entry = true) :
    ∃ g, spec.field? entry.1 = some g ∧ (Control.answerOf g entry.2).isOk = true := by
  rw [FormSpec.takes] at takes
  cases declared : spec.field? entry.1 with
  | none =>
    rw [declared] at takes
    cases takes
  | some g =>
    rw [declared, Option.any_some] at takes
    exact ⟨g, rfl, takes⟩

/-- All entries are taken if and only if none is undeclared and none is rejected. -/
theorem takes_all_iff {spec : FormSpec} {entries : List Json.Member} :
    (∀ entry ∈ entries, spec.takes entry = true) ↔
      spec.undeclared entries = [] ∧ spec.rejected entries = [] := by
  rw [undeclared, rejected, List.filter_eq_nil_iff, List.filterMap_eq_nil_iff, List.forall_mem_map,
    ← forall₂_and]
  apply forall₂_congr
  intro entry _
  rw [takes_iff, Bool.not_eq_true, Option.map_eq_none_iff]

end FormSpec

theorem Control.answerOf_error {f : Field} {j : Json} {error : FormError}
    (rejects : answerOf f j = .error error) : ∃ reason, error = .invalidValue f.id reason := by
  rw [answerOf] at rejects
  cases decoded : Answer.ofJson f.widget f.choices j with
  | ok answer =>
    rw [decoded] at rejects
    cases rejects
  | error reason =>
    rw [decoded] at rejects
    cases rejects
    exact ⟨reason, rfl⟩

namespace FormState

variable {spec : FormSpec} {s t : FormState}

theorem map_field_control? (sameFields : s.controls.map Control.field = spec.fields) (id : String) :
    (s.control? id).map Control.field = spec.field? id := by
  rw [FormSpec.field?, ← sameFields, List.find?_map]
  rfl

/-- Entries that are taken one after the other are each of them taken by the form. -/
theorem takes_of_setValues {entries : List Json.Member}
    (sameFields : s.controls.map Control.field = spec.fields)
    (taken : s.setValues entries = .ok t) : ∀ entry ∈ entries, spec.takes entry = true := by
  induction entries generalizing s with
  | nil =>
    intro entry member
    cases member
  | cons entry rest ih =>
    obtain ⟨next, first, others⟩ := setValues_cons_ok.mp taken
    rw [List.forall_mem_cons]
    refine ⟨?_, ih ((setValue_fields first).trans sameFields) others⟩
    obtain ⟨c, answer, found, decoded, _⟩ := setValue_ok.mp first
    have declared := map_field_control? sameFields entry.1
    rw [found, Option.map_some] at declared
    rw [FormSpec.takes, ← declared, Option.any_some, decoded]
    rfl

end FormState

/-! ## The three places of an entry -/

namespace Submission

/-- The places to which an entry may go: it is put into the form, or its name is noted as unknown,
or the error with which its field rejects it is. -/
inductive Intake.Sorted (spec : FormSpec) (i : Intake) (entry : Json.Member) : Intake → Prop where
  | taken {state : FormState} (takes : spec.takes entry = true)
      (put : i.state.setValue entry.1 entry.2 = .ok state) :
      Sorted spec i entry { i with state }
  | unknown (undeclared : spec.field? entry.1 = none) :
      Sorted spec i entry { i with unknown := i.unknown ++ [entry.1] }
  | rejected {error : FormError} (rejects : spec.rejection? entry = some error) :
      Sorted spec i entry { i with rejected := i.rejected ++ [(entry.1, .answer error)] }

variable {spec : FormSpec}

theorem Intake.take_sorted {i : Intake}
    (sameFields : i.state.controls.map Control.field = spec.fields) (entry : Json.Member) :
    Sorted spec i entry (i.take entry) := by
  have declared := FormState.map_field_control? sameFields entry.1
  cases found : i.state.control? entry.1 with
  | none =>
    rw [found, Option.map_none] at declared
    have refused : i.state.setValue entry.1 entry.2 = .error (.unknownField entry.1) := by
      rw [FormState.setValue_eq, found]
    rw [Intake.take, FormState.putValue_eq, refused]
    exact .unknown declared.symm
  | some c =>
    rw [found, Option.map_some] at declared
    cases decoded : Control.answerOf c.field entry.2 with
    | ok answer =>
      obtain ⟨state, put⟩ := FormState.setAnswer_total found answer
      have put : i.state.setValue entry.1 entry.2 = .ok state :=
        FormState.setValue_ok.mpr ⟨c, answer, found, decoded, put⟩
      rw [Intake.take, FormState.putValue_eq, put]
      refine .taken ?_ put
      rw [FormSpec.takes, ← declared, Option.any_some, decoded]
      rfl
    | error error =>
      obtain ⟨reason, rfl⟩ := Control.answerOf_error decoded
      have refused : i.state.setValue entry.1 entry.2 =
          .error (.invalidValue c.field.id reason) := by
        rw [FormState.setValue_eq, found]
        simp only [decoded]
        rfl
      rw [Intake.take, FormState.putValue_eq, refused]
      refine .rejected ?_
      rw [FormSpec.rejection?, ← declared, Option.bind_some, decoded]

/-- All entries sorted: the form is filled in with those that it takes, and the others are noted in
order. -/
theorem foldl_take_sorted (entries : List Json.Member) (i : Intake)
    (sameFields : i.state.controls.map Control.field = spec.fields) :
    ∃ s, i.state.setValues (entries.filter spec.takes) = .ok s ∧
      entries.foldl Intake.take i =
        ⟨s, i.unknown ++ spec.undeclared entries,
          i.rejected ++ (spec.rejected entries).map fun (id, e) => (id, .answer e)⟩ := by
  induction entries generalizing i with
  | nil => exact ⟨i.state, rfl, by simp [FormSpec.undeclared, FormSpec.rejected]⟩
  | cons entry rest ih =>
    have sorted := Intake.take_sorted sameFields entry
    rw [List.foldl_cons]
    generalize i.take entry = next at sorted
    cases sorted with
    | @taken state takes put =>
      have sameFields' := (FormState.setValue_fields put).trans sameFields
      obtain ⟨s, others, folded⟩ := ih { i with state } sameFields'
      obtain ⟨declared, accepted⟩ := FormSpec.takes_iff.mp takes
      refine ⟨s, ?_, ?_⟩
      · rw [List.filter_cons_of_pos takes]
        exact FormState.setValues_cons_ok.mpr ⟨_, put, others⟩
      · rw [folded]
        simp [FormSpec.undeclared, FormSpec.rejected, declared, accepted]
    | unknown undeclared =>
      obtain ⟨s, others, folded⟩ := ih { i with unknown := i.unknown ++ [entry.1] } sameFields
      have notTaken : spec.takes entry ≠ true := by
        simp [FormSpec.takes, undeclared]
      have accepted : spec.rejection? entry = none := by
        rw [FormSpec.rejection?, undeclared, Option.bind_none]
      refine ⟨s, ?_, ?_⟩
      · rw [List.filter_cons_of_neg notTaken]
        exact others
      · rw [folded]
        simp [FormSpec.undeclared, FormSpec.rejected, undeclared, accepted]
    | @rejected error rejects =>
      obtain ⟨s, others, folded⟩ :=
        ih { i with rejected := i.rejected ++ [(entry.1, .answer error)] } sameFields
      have notTaken : spec.takes entry ≠ true := by
        simp [FormSpec.takes_iff, rejects]
      have declared : spec.field? entry.1 ≠ none := by
        intro undeclared
        rw [FormSpec.rejection?, undeclared] at rejects
        cases rejects
      refine ⟨s, ?_, ?_⟩
      · rw [List.filter_cons_of_neg notTaken]
        exact others
      · rw [folded]
        simp [FormSpec.undeclared, FormSpec.rejected, declared, rejects]

/-- A form can be filled in with some answers if and only if it takes each of them. -/
theorem accepted_iff {first : FormState} (opened : FormState.ofSpec spec = .ok first)
    (answers : Json) :
    (∃ s, FormState.ofAnswers spec answers = .ok s) ↔
      ∀ entry ∈ answers.entries, spec.takes entry = true := by
  have sameFields := (FormState.Kept.ofSpec opened).fields
  constructor
  · rintro ⟨s, accepted⟩
    obtain ⟨first', opened', taken⟩ := FormState.ofAnswers_ok.mp accepted
    cases opened.symm.trans opened'
    exact FormState.takes_of_setValues sameFields taken
  · intro takes
    obtain ⟨s, taken, _⟩ := foldl_take_sorted answers.entries ⟨first, [], []⟩ sameFields
    rw [List.filter_eq_self.mpr takes] at taken
    exact ⟨s, FormState.ofAnswers_ok.mpr ⟨first, opened, taken⟩⟩

/-- Some of the answers that a form takes can be taken without the others. -/
theorem accepted_without {answers : Json} {s : FormState} (names : List String)
    (accepted : FormState.ofAnswers spec answers = .ok s) :
    ∃ t, FormState.ofAnswers spec (answers.without names) = .ok t := by
  obtain ⟨first, opened, _⟩ := FormState.ofAnswers_ok.mp accepted
  rw [accepted_iff opened, Json.entries_without]
  intro entry member
  exact (accepted_iff opened answers).mp ⟨s, accepted⟩ entry (List.mem_of_mem_filter member)

/-! ## Submissions -/

theorem isValid_iff (submission : Submission) :
    submission.isValid = true ↔
      submission.errors = [] ∧ submission.missingRequired = [] ∧
        submission.unknownFields = [] := by
  simp only [isValid, Bool.and_eq_true, List.isEmpty_iff, and_assoc]

/-- The submission of a form whose answers have all been taken. -/
def ofState (s : FormState) : Submission :=
  let active := s.refreshed.controls.filter (·.active)
  { enabled := active.map Control.id
    disabled := (s.refreshed.controls.filter (!·.active)).map Control.id
    missingRequired := (active.filter fun c => c.required && c.answer.isBlank).map Control.id
    unknownFields := []
    errors := s.refresh.2.failures.map fun (id, error) => (id, .rule error) }

/-- A submission is the one of the form filled in with the answers that it takes, but for the other
answers, which it notes. -/
theorem check_eq {first : FormState} (opened : FormState.ofSpec spec = .ok first) (answers : Json) :
    ∃ s, FormState.ofAnswers spec (spec.acceptable answers) = .ok s ∧
      check spec answers = .ok { ofState s with
        unknownFields := spec.undeclared answers.entries
        errors := (spec.rejected answers.entries).map (fun (id, e) => (id, .answer e))
          ++ (ofState s).errors } := by
  have kept := FormState.Kept.ofSpec opened
  obtain ⟨s, taken, folded⟩ := foldl_take_sorted answers.entries ⟨first, [], []⟩ kept.fields
  refine ⟨s, FormState.ofAnswers_ok.mpr ⟨first, opened, ?_⟩, ?_⟩
  · rw [FormSpec.acceptable, Json.entries_object_filter]
    exact taken
  · simp only [check, intake, Outcome.bind_eq_ok_iff]
    refine ⟨first, opened, ?_⟩
    rw [folded]
    rfl

/-- A submission whose answers can all be taken is the one of the form filled in. -/
theorem check_of_accepted {answers : Json} {s : FormState}
    (accepted : FormState.ofAnswers spec answers = .ok s) :
    check spec answers = .ok (ofState s) := by
  obtain ⟨first, opened, _⟩ := FormState.ofAnswers_ok.mp accepted
  have takes := (accepted_iff opened answers).mp ⟨s, accepted⟩
  obtain ⟨undeclared, rejected⟩ := FormSpec.takes_all_iff.mp takes
  have sameEntries : (spec.acceptable answers).entries = answers.entries := by
    rw [FormSpec.acceptable, Json.entries_object_filter, List.filter_eq_self.mpr takes]
  obtain ⟨t, accepted', checked⟩ := check_eq opened answers
  have same : t = s := by
    rw [FormState.ofAnswers, sameEntries] at accepted'
    exact Except.ok.inj (accepted'.symm.trans accepted)
  rw [checked, undeclared, rejected, same]
  rfl

/-- The fields of which an answer is missing, said without the flag that asks for one. -/
theorem missingRequired_ofState {s : FormState} (reached : FormState.Reachable spec s) :
    (ofState s).missingRequired = (s.refreshed.controls.filter fun c =>
      c.active && c.field.required && c.answer.isBlank).map Control.id := by
  simp only [ofState, List.filter_filter]
  congr 1
  apply List.filter_congr
  intro c member
  rw [(reached.refresh.consistent c member).required]
  cases c.active <;> simp

/-- A submission goes on where filling in the form would give up. The form can be filled in with the
answers that it takes, and a pass over that state says which fields are enabled, disabled or lack an
answer; every other answer is noted, as unknown or with the error of its field, and with any of them
the submission is not valid. -/
theorem check_sorts_answers {first : FormState} (opened : FormState.ofSpec spec = .ok first)
    (answers : Json) :
    ∃ s submission, FormState.ofAnswers spec (spec.acceptable answers) = .ok s ∧
      check spec answers = .ok submission ∧
      submission.enabled = (s.refreshed.controls.filter (·.active)).map Control.id ∧
      submission.disabled = (s.refreshed.controls.filter (!·.active)).map Control.id ∧
      s.refreshed.controls.map Control.id = spec.fields.map Field.id ∧
      (submission.enabled ++ submission.disabled).Perm (spec.fields.map Field.id) ∧
      (spec.fields.map Field.id).Nodup ∧
      submission.missingRequired = (s.refreshed.controls.filter fun c =>
        c.active && c.field.required && c.answer.isBlank).map Control.id ∧
      submission.unknownFields = spec.undeclared answers.entries ∧
      submission.errors =
        (spec.rejected answers.entries).map (fun (id, e) => (id, .answer e)) ++
          s.refresh.2.failures.map (fun (id, e) => (id, .rule e)) ∧
      (submission.isValid = true ↔
        (∃ t, FormState.ofAnswers spec answers = .ok t) ∧
          s.refresh.2.failures = [] ∧ submission.missingRequired = []) ∧
      ((∀ members, answers ≠ .object members) →
        check spec answers = check spec (.object []) ∧
          FormState.ofAnswers spec answers = FormState.ofAnswers spec (.object [])) := by
  obtain ⟨s, accepted, checked⟩ := check_eq opened answers
  have reached : FormState.Reachable spec s := .ofAnswers accepted
  have sameIds := reached.refresh.kept.ids
  refine ⟨s, _, accepted, checked, rfl, rfl, sameIds, ?_, ?_, missingRequired_ofState reached, rfl,
    rfl, ?_, ?_⟩
  · rw [← sameIds, ofState, ← List.map_append]
    exact (List.filter_append_perm _ _).map _
  · rw [← sameIds]
    exact reached.refresh.kept.distinct
  · rw [isValid_iff, accepted_iff opened, FormSpec.takes_all_iff]
    simp only [ofState, List.append_eq_nil_iff, List.map_eq_nil_iff]
    tauto
  · intro noObject
    have noEntries : answers.entries = [] := by
      cases answers with
      | object members => exact absurd rfl (noObject members)
      | _ => rfl
    constructor
    · simp only [check, intake, noEntries]
      rfl
    · simp only [FormState.ofAnswers, noEntries]
      rfl

/-- One who goes abroad gives no text for the country, and answers for a field that the form lacks. -/
theorem travel_sorts_answers :
    ∃ submission, check FormSpec.travel (.object [("visit", .null), ("country", .array []),
        ("abroad", .bool true)]) = .ok submission ∧
      submission.enabled = ["abroad", "country", "visa", "fee"] ∧ submission.disabled = [] ∧
      submission.missingRequired = ["country"] ∧ submission.unknownFields = ["visit"] ∧
      submission.errors.map (fun (id, fault) => (id, fault.code)) =
        [("country", "invalid_value"), ("fee", "unresolved_target")] ∧
      submission.isValid = false := by
  obtain ⟨s, submission, _, checked, _, _, _, _, _, _, unknown, _, valid, _⟩ :=
    @check_sorts_answers FormSpec.travel _ rfl (.object [("visit", .null), ("country", .array []),
      ("abroad", .bool true)])
  cases checked
  refine ⟨_, rfl, by decide, by decide, by decide, unknown, by decide, ?_⟩
  rw [Bool.eq_false_iff, ne_eq, valid]
  rintro ⟨_, _, noneMissing⟩
  exact absurd noneMissing (by decide)

end Submission

end FormLogic
