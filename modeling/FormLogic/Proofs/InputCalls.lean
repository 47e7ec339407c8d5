import FormLogic.Proofs.Overwriting
import FormLogic.Proofs.Surfaces

/-!
# Answers handed on between calls

The service takes one more answer with each call and keeps nothing: whoever calls hands in the
answers that came back from the call before. A run of such calls comes to the same as one view of
the form with the last value of each field (`inputs_replace_answers`).
-/

namespace FormLogic

/-! ## Answers that can be handed on -/

namespace Json

theorem pairwise_insert {name : String} {value : Json} {members : List Member}
    (sorted : (members.map Prod.fst).Pairwise (· < ·)) :
    ((insert name value members).map Prod.fst).Pairwise (· < ·) := by
  rw [map_fst_insert]
  exact pairwise_insertKey sorted

theorem mem_of_mem_insert {name : String} {value : Json} {members : List Member} {member : Member}
    (inside : member ∈ insert name value members) : member = (name, value) ∨ member ∈ members := by
  induction members with
  | nil => exact .inl (List.mem_singleton.mp inside)
  | cons first rest ih =>
    rw [insert] at inside
    split at inside
    · exact List.mem_cons.mp inside
    · split at inside
      · exact (List.mem_cons.mp inside).imp_right (List.mem_cons_of_mem _)
      · rcases List.mem_cons.mp inside with rfl | inRest
        · exact .inr List.mem_cons_self
        · exact (ih inRest).imp_right (List.mem_cons_of_mem _)

theorem mem_of_mem_sortMembers {members : List Member} {member : Member}
    (inside : member ∈ sortMembers members) : member ∈ members := by
  induction members with
  | nil => exact inside
  | cons first rest ih =>
    obtain ⟨name, value⟩ := first
    rcases mem_of_mem_insertIfNew inside with rfl | inRest
    · exact List.mem_cons_self
    · exact List.mem_cons_of_mem _ (ih inRest)

/-- The entries of a value in order are in order. -/
theorem canonical_of_mem_entries {j : Json} (sorted : j.canonical = j) :
    ∀ entry ∈ j.entries, entry.2.canonical = entry.2 := by
  intro entry inside
  cases j with
  | object members =>
    rw [canonical, object.injEq] at sorted
    have member := mem_of_mem_sortMembers inside
    rw [← sorted] at member
    exact canonical_of_mem_members members entry member
  | _ => cases inside

end Json

namespace Answer

/-- Only texts pick options. -/
theorem string_of_picks {choices : List String} {items : List Json} {flags picked : List Bool}
    (decoded : items.foldlM (pick choices) flags = .ok picked) :
    ∀ item ∈ items, ∃ name, item = .string name := by
  induction items generalizing flags with
  | nil => exact List.forall_mem_nil _
  | cons first rest ih =>
    rw [List.foldlM_cons] at decoded
    obtain ⟨next, here, later⟩ := Outcome.bind_eq_ok_iff.mp decoded
    rw [List.forall_mem_cons]
    refine ⟨?_, ih later⟩
    cases first with
    | string name => exact ⟨name, rfl⟩
    | _ => cases here

theorem depth_le_of_picks {j : Json} (texts : ∀ item ∈ picks j, ∃ name, item = .string name) :
    j.depth ≤ 1 := by
  cases j with
  | array items =>
    apply Nat.succ_le_succ
    rw [Json.depthOfItems_le_iff]
    intro item member
    obtain ⟨name, rfl⟩ := texts item member
    exact Nat.le_refl 0
  | object members =>
    obtain ⟨_, impossible⟩ := texts (.object members) (List.mem_singleton_self _)
    cases impossible
  | _ => exact Nat.zero_le 1

/-- A value that a field takes nests no deeper than a list of options does. -/
theorem depth_le_of_ofJson {w : Widget} {choices : List String} {j : Json} {answer : Answer}
    (decoded : ofJson w choices j = .ok answer) : j.depth ≤ 1 := by
  delta ofJson at decoded
  split at decoded
  case h_2 | h_3 =>
    split at decoded
    · cases decoded
    · obtain ⟨flags, picked, _⟩ := Outcome.map_eq_ok_iff.mp decoded
      exact depth_le_of_picks (string_of_picks picked)
  all_goals
    cases j with
    | array items => cases decoded
    | object members => cases decoded
    | _ => exact Nat.zero_le 1

end Answer

namespace Service

theorem entries_withAnswer (answers : Json) (field : String) (value : Json) :
    (withAnswer answers field value).entries = Json.insert field value answers.entries :=
  Json.sortMembers_eq_self (Json.pairwise_insert answers.pairwise_entries)

/-- One more answer counts for its field, and nothing changes for the other fields. -/
theorem lookup_withAnswer (answers : Json) (field : String) (value : Json) (name : String) :
    (withAnswer answers field value).entries.lookup name =
      if name = field then some value else answers.entries.lookup name := by
  rw [entries_withAnswer, Json.lookup_insert]

theorem canonical_withAnswer {answers value : Json} (field : String)
    (sorted : answers.canonical = answers) (sortedValue : value.canonical = value) :
    (withAnswer answers field value).canonical = withAnswer answers field value := by
  apply Json.canonical_object (Json.pairwise_insert answers.pairwise_entries)
  intro member inside
  rcases Json.mem_of_mem_insert inside with rfl | old
  · exact sortedValue
  · exact Json.canonical_of_mem_entries sorted member old

theorem canonical_answersOfText (text : String) :
    (answersOfText text).canonical = answersOfText text := by
  rw [answersOfText]
  cases read : Json.valueOfText? text with
  | none => rfl
  | some answers => exact (Json.of_valueOfText? read).1

/-- Answers that a form takes nest no deeper than a list of options does. -/
theorem depth_withAnswer_le {spec : FormSpec} {answers value : Json} {field : String}
    {s : FormState} (accepted : FormState.ofAnswers spec (withAnswer answers field value) = .ok s) :
    (withAnswer answers field value).depth ≤ 2 := by
  obtain ⟨first, opened, _⟩ := FormState.ofAnswers_ok.mp accepted
  have takes := (Submission.accepted_iff opened _).mp ⟨s, accepted⟩
  rw [entries_withAnswer] at takes
  apply Nat.succ_le_succ
  rw [Json.depthOfMembers_le_iff]
  intro entry inside
  obtain ⟨f, _, decodes⟩ := FormSpec.declared_of_takes (takes entry inside)
  obtain ⟨answer, decoded⟩ := Outcome.isOk_iff.mp decodes
  exact Nat.le_trans (Answer.depth_le_of_ofJson (Outcome.mapError_eq_ok_iff.mp decoded)) (by decide)

/-- Answers that a form takes are read as they are printed, if their numbers are. -/
theorem legible_withAnswer {spec : FormSpec} {answers value : Json} {field : String}
    {s : FormState} (sorted : answers.canonical = answers) (sortedValue : value.canonical = value)
    (accepted : FormState.ofAnswers spec (withAnswer answers field value) = .ok s)
    (numbers : ∀ n ∈ (withAnswer answers field value).numbers, n.ReadsBack) (room : Nat) :
    (withAnswer answers field value).Legible (room + 2) :=
  ⟨canonical_withAnswer field sorted sortedValue,
    Nat.le_trans (depth_withAnswer_le accepted) (Nat.le_add_left 2 room), numbers⟩

/-! ## Calls -/

/-- What a caller hands in for a field, as JSON text. -/
structure Input where
  field : String
  value : String

/-- Whether a response, read as a value, has a message under `error`. -/
def ReportsError (response : String) : Prop :=
  ∃ value message, Json.valueOfText? response = some value ∧
    value.member? "error" = some (.string message)

/-- The answers that a response, read as a value, gives back. -/
def answersIn (response : String) : Json :=
  ((Json.valueOfText? response).bind (·.member? "answers")).getD (.object [])

/-- An input for which, if the form takes the answers with it, their numbers are read as they are
printed and 64 bits are enough to count the fields of the form. -/
def Legible (id config text : String) (input : Input) : Prop :=
  ∀ spec value s, form id config = .ok spec → Json.valueOfText? input.value = some value →
    FormState.ofAnswers spec (withAnswer (answersOfText text) input.field value) = .ok s →
      spec.fields.length < 2 ^ 64 ∧
        ∀ n ∈ (withAnswer (answersOfText text) input.field value).numbers, n.ReadsBack

/-- The responses to legible inputs that are handed in one after the other, each with the answers of
the response before it as they are printed, while no response reports an error. -/
inductive Runs (id config : String) : String → List Input → List String → Prop where
  | nil (text : String) : Runs id config text [] []
  | cons {text response : String} {input : Input} {inputs : List Input} {responses : List String}
      (call : Endpoint.applyInput id config text input.field input.value = response)
      (succeeds : ¬ ReportsError response) (legible : Legible id config text input)
      (rest : Runs id config (answersIn response).compact inputs responses) :
      Runs id config text (input :: inputs) (response :: responses)

/-- The last value that is handed in for a field. -/
def lastValue? : List Input → String → Option Json
  | [], _ => none
  | input :: rest, field =>
    (lastValue? rest field).or (if field = input.field then Json.valueOfText? input.value else none)

/-- The responses to inputs, if each of them, read as a value, gives back the answers with a change for
its own field alone and shows the form as the service shows it with these answers. -/
inductive Threads (id config : String) : Json → List Input → List String → Prop where
  | nil (answers : Json) : Threads id config answers [] []
  | cons {previous value answers view : Json} {input : Input} {inputs : List Input}
      {response : String} {responses : List String}
      (read : Json.valueOfText? input.value = some value)
      (sorted : answers = .object answers.entries)
      (replaced : ∀ name, answers.entries.lookup name =
        if name = input.field then some value else previous.entries.lookup name)
      (printed : response = (Json.object [("answers", answers), ("form", view)]).compact)
      (answered : Json.valueOfText? response =
        some (.object [("answers", answers), ("form", view)]))
      (refreshed : Json.valueOfText? (Endpoint.refresh id config answers.compact) = some view)
      (rest : Threads id config answers inputs responses) :
      Threads id config previous (input :: inputs) (response :: responses)

theorem readable_eq_ok_iff {α : Type} {part : Option α} {a : α} :
    readable part = .ok a ↔ part = some a := by
  cases part <;> simp [readable]

theorem readable_eq_error_iff {α : Type} {part : Option α} {e : ServiceError} :
    readable part = .error e ↔ part = none ∧ e = .unreadable := by
  cases part <;> simp [readable, eq_comm]

theorem applyInput_eq_ok_iff {id config text field value : String} {response : Json} :
    applyInput id config text field value = .ok response ↔
      ∃ spec j v, form id config = .ok spec ∧ Json.valueOfText? value = some j ∧
        view spec (withAnswer (answersOfText text) field j) = .ok v ∧
        response =
          .object [("answers", withAnswer (answersOfText text) field j), ("form", v)] := by
  simp only [applyInput, Outcome.bind_eq_ok_iff, readable_eq_ok_iff]
  constructor
  · rintro ⟨spec, formed, j, read, v, shown, same⟩
    cases same
    exact ⟨spec, j, v, formed, read, shown, rfl⟩
  · rintro ⟨spec, j, v, formed, read, shown, rfl⟩
    exact ⟨spec, formed, j, read, v, shown, rfl⟩

/-- There is a view of a form if and only if the form can be filled in. -/
theorem exists_view_iff {spec : FormSpec} {answers : Json} :
    (∃ v, view spec answers = .ok v) ↔ ∃ s, FormState.ofAnswers spec answers = .ok s := by
  simp only [view_eq, Outcome.map_eq_ok_iff, Outcome.mapError_eq_ok_iff]
  simp

theorem exists_view_error_iff {spec : FormSpec} {answers : Json} :
    (∃ e, view spec answers = .error e) ↔ ∃ e, FormState.ofAnswers spec answers = .error e := by
  simp only [view_eq, Outcome.map_eq_error_iff, Outcome.mapError_eq_error_iff]
  simp

/-! ### Texts of responses -/

theorem reportsError_respond_error (e : ServiceError) : ReportsError (respond (.error e)) :=
  ⟨_, e.message, valueOfText?_respond_error e, rfl⟩

/-- The response to an input that the form takes: what is in it is read as it was printed, and so are
the answers when they are handed on. -/
structure Responds (id config text : String) (input : Input) (value view : Json) : Prop where
  read : Json.valueOfText? input.value = some value
  printed : Endpoint.applyInput id config text input.field input.value =
    (Json.object [("answers", withAnswer (answersOfText text) input.field value),
      ("form", view)]).compact
  answered : Json.valueOfText? (Endpoint.applyInput id config text input.field input.value) =
    some (.object [("answers", withAnswer (answersOfText text) input.field value), ("form", view)])
  back : answersOfText (withAnswer (answersOfText text) input.field value).compact =
    withAnswer (answersOfText text) input.field value
  refreshed : Json.valueOfText? (Endpoint.refresh id config
    (withAnswer (answersOfText text) input.field value).compact) = some view

theorem responds_of_accepted {id config text : String} {input : Input} {spec : FormSpec}
    {value : Json} {s : FormState} (legible : Legible id config text input)
    (formed : form id config = .ok spec) (read : Json.valueOfText? input.value = some value)
    (accepted : FormState.ofAnswers spec (withAnswer (answersOfText text) input.field value) =
      .ok s) :
    Responds id config text input value
      (FormView.ofState spec s.refreshed s.refresh.2).toJson := by
  obtain ⟨few, numbers⟩ := legible spec value s formed read accepted
  have answersLegible (room : Nat) := legible_withAnswer (canonical_answersOfText text)
    (Json.of_valueOfText? read).1 accepted numbers room
  have viewLegible (room : Nat) := @FormView.legible_ofState spec spec _
    (.refresh (.ofAnswers accepted)) s.refresh.2 few room
  have sorted : ["answers", "form"].Pairwise (· < ·) := by decide
  have shown := view_of_filled accepted
  have call : applyInput id config text input.field input.value = .ok (.object
      [("answers", withAnswer (answersOfText text) input.field value),
        ("form", (FormView.ofState spec s.refreshed s.refresh.2).toJson)]) :=
    applyInput_eq_ok_iff.mpr ⟨spec, value, _, formed, read, shown, rfl⟩
  have back : answersOfText (withAnswer (answersOfText text) input.field value).compact =
      withAnswer (answersOfText text) input.field value := by
    rw [answersOfText, (answersLegible _).valueOfText?_compact, Option.getD_some]
  refine ⟨read, ?_, ?_, back, ?_⟩
  · rw [Endpoint.applyInput, call]
    rfl
  · rw [Endpoint.applyInput, call, respond]
    apply Json.Legible.valueOfText?_compact
    apply Json.legible_object
    · exact sorted
    · simp only [List.forall_mem_cons]
      exact ⟨answersLegible _, viewLegible _, List.forall_mem_nil _⟩
  · rw [Endpoint.refresh, Service.refresh, formed, Outcome.ok_bind, back, shown, respond]
    exact (viewLegible _).valueOfText?_compact

namespace Responds

variable {id config text : String} {input : Input} {value view : Json}

theorem answersIn_eq (responds : Responds id config text input value view) :
    answersIn (Endpoint.applyInput id config text input.field input.value) =
      withAnswer (answersOfText text) input.field value := by
  rw [answersIn, responds.answered]
  rfl

theorem succeeds (responds : Responds id config text input value view) :
    ¬ ReportsError (Endpoint.applyInput id config text input.field input.value) := by
  rintro ⟨response, message, answered, reported⟩
  cases responds.answered.symm.trans answered
  cases reported

end Responds

/-- A run of inputs threads the answers through. -/
theorem Runs.threads {id config text : String} {inputs : List Input} {responses : List String}
    (runs : Runs id config text inputs responses) :
    Threads id config (answersOfText text) inputs responses := by
  induction runs with
  | nil text => exact .nil _
  | @cons text response input inputs responses call succeeds legible _ ih =>
    subst call
    cases called : applyInput id config text input.field input.value with
    | error e =>
      rw [Endpoint.applyInput, called] at succeeds
      exact absurd (reportsError_respond_error e) succeeds
    | ok response =>
      obtain ⟨spec, value, v, formed, read, shown, _⟩ := applyInput_eq_ok_iff.mp called
      obtain ⟨s, accepted⟩ := exists_view_iff.mp ⟨v, shown⟩
      have responds := responds_of_accepted legible formed read accepted
      -- what the next call reads are the answers that came back
      rw [responds.answersIn_eq, responds.back] at ih
      refine .cons read ?_ (lookup_withAnswer _ _ _) responds.printed responds.answered
        responds.refreshed ih
      rw [entries_withAnswer]
      rfl

theorem lastValue?_cons_or {input : Input} {rest : List Input} {value : Json}
    (read : Json.valueOfText? input.value = some value) (name : String) (before : Option Json) :
    (lastValue? (input :: rest) name).or before =
      (lastValue? rest name).or (if name = input.field then some value else before) := by
  rw [lastValue?, read, Option.or_assoc]
  split <;> rfl

namespace Threads

variable {id config : String} {previous : Json} {inputs : List Input} {responses : List String}

/-- The last response gives back the last value of each field that has one, and else the value
from before. -/
theorem exists_last (threads : Threads id config previous inputs responses)
    (given : inputs ≠ []) :
    ∃ response answers view, responses.getLast? = some response ∧
      response = (Json.object [("answers", answers), ("form", view)]).compact ∧
      Json.valueOfText? response = some (.object [("answers", answers), ("form", view)]) ∧
      answers = .object answers.entries ∧
      Json.valueOfText? (Endpoint.refresh id config answers.compact) = some view ∧
      ∀ name, answers.entries.lookup name =
        (lastValue? inputs name).or (previous.entries.lookup name) := by
  induction threads with
  | nil => exact absurd rfl given
  | @cons previous value answers view input inputs _ _ read sorted replaced printed answered
      refreshed rest ih =>
    have after : ∀ name, (lastValue? (input :: inputs) name).or (previous.entries.lookup name) =
        (lastValue? inputs name).or (answers.entries.lookup name) := by
      intro name
      rw [lastValue?_cons_or read, replaced]
    simp only [after]
    cases rest with
    | nil => exact ⟨_, answers, view, rfl, printed, answered, sorted, refreshed, fun _ => rfl⟩
    | cons =>
      obtain ⟨response, answers', view', last, rest⟩ := ih (List.cons_ne_nil _ _)
      refine ⟨response, answers', view', ?_, rest⟩
      rw [List.getLast?_cons, last, Option.getD_some]

theorem nil_of_lastValue? (threads : Threads id config previous inputs responses)
    (nothing : ∀ name, lastValue? inputs name = none) : inputs = [] ∧ responses = [] := by
  cases threads with
  | nil => exact ⟨rfl, rfl⟩
  | @cons _ value _ _ input inputs _ _ read =>
    have found : (lastValue? (input :: inputs) input.field).or none = _ :=
      lastValue?_cons_or read input.field none
    rw [nothing, if_pos rfl] at found
    simp at found

/-- Only the last value of each field counts for the last response. -/
theorem getLast?_eq {previous' : Json} {inputs' : List Input} {responses' : List String}
    (threads : Threads id config previous inputs responses)
    (threads' : Threads id config previous' inputs' responses')
    (sameBefore : ∀ name, previous.entries.lookup name = previous'.entries.lookup name)
    (same : ∀ name, lastValue? inputs name = lastValue? inputs' name) :
    responses.getLast? = responses'.getLast? := by
  by_cases nothing : inputs = []
  · subst nothing
    cases threads
    rw [(threads'.nil_of_lastValue? fun name => (same name).symm).2]
  · have nothing' : inputs' ≠ [] := by
      rintro rfl
      exact nothing (threads.nil_of_lastValue? same).1
    obtain ⟨response, answers, view, last, printed, _, object, refreshed, values⟩ :=
      threads.exists_last nothing
    obtain ⟨response', answers', view', last', printed', _, object', refreshed', values'⟩ :=
      threads'.exists_last nothing'
    have sameEntries : answers.entries = answers'.entries := by
      apply Json.eq_of_lookup_eq answers.pairwise_entries answers'.pairwise_entries
      intro name
      rw [values, values', same, sameBefore]
    have sameAnswers : answers = answers' := by
      rw [object, object', sameEntries]
    subst sameAnswers
    cases refreshed.symm.trans refreshed'
    rw [last, last', printed, printed']

end Threads

/-! ## Errors -/

/-- A configuration serves no form if and only if the definition in it cannot be read. -/
theorem spec?_eq_none_iff {c : ServiceConfig} :
    c.spec? = none ↔ ∃ text, c.specText? = some text ∧ FormSpec.ofText? text = none := by
  obtain ⟨specText?, policy?⟩ := c
  cases specText? with
  | none => cases policy? <;> simp [ServiceConfig.spec?]
  | some text =>
    rw [ServiceConfig.spec?]
    cases read : FormSpec.ofText? text <;> simp [read]

theorem form_error_iff {id config : String} :
    (∃ e, form id config = .error e) ↔ ServiceConfig.ofText? config = none ∨
      ∃ c, ServiceConfig.ofText? config = some c ∧
        ((∃ text, c.specText? = some text ∧ FormSpec.ofText? text = none) ∨
          ∃ spec, c.spec? = some spec ∧ spec.id ≠ id) := by
  rw [form]
  cases ServiceConfig.ofText? config with
  | none => simp
  | some c =>
    rw [Option.bind_some]
    simp only [← spec?_eq_none_iff]
    cases served : c.spec? with
    | none => simp [served]
    | some spec => by_cases same : spec.id = id <;> simp [served, same]

/-- A call is answered with an error if and only if the form is not served, the value cannot be read
or the form does not take the answers. -/
theorem applyInput_error_iff {id config text field value : String} :
    (∃ e, applyInput id config text field value = .error e) ↔
      (∃ e, form id config = .error e) ∨ Json.valueOfText? value = none ∨
      ∃ spec j e, form id config = .ok spec ∧ Json.valueOfText? value = some j ∧
        FormState.ofAnswers spec (withAnswer (answersOfText text) field j) = .error e := by
  simp only [applyInput, Outcome.bind_eq_error_iff, readable_eq_error_iff, readable_eq_ok_iff]
  constructor
  · rintro ⟨e, unserved | ⟨spec, formed, ⟨unread, _⟩ | ⟨j, read, refused | ⟨_, _, impossible⟩⟩⟩⟩
    · exact .inl ⟨e, unserved⟩
    · exact .inr (.inl unread)
    · obtain ⟨e, refused⟩ := exists_view_error_iff.mp ⟨e, refused⟩
      exact .inr (.inr ⟨spec, j, e, formed, read, refused⟩)
    · cases impossible
  · rintro (⟨e, unserved⟩ | unread | ⟨spec, j, e, formed, read, refused⟩)
    · exact ⟨e, .inl unserved⟩
    · cases formed : form id config with
      | error e => exact ⟨e, .inl rfl⟩
      | ok spec => exact ⟨.unreadable, .inr ⟨spec, rfl, .inl ⟨unread, rfl⟩⟩⟩
    · obtain ⟨e, refused⟩ := exists_view_error_iff.mpr ⟨e, refused⟩
      exact ⟨e, .inr ⟨spec, formed, .inr ⟨j, read, .inl refused⟩⟩⟩

/-- A response reports an error if and only if the call comes to nothing. -/
theorem reportsError_iff {id config text : String} {input : Input}
    (legible : Legible id config text input) :
    ReportsError (Endpoint.applyInput id config text input.field input.value) ↔
      ∃ e, applyInput id config text input.field input.value = .error e := by
  constructor
  · intro reports
    cases called : applyInput id config text input.field input.value with
    | error e => exact ⟨e, rfl⟩
    | ok response =>
      obtain ⟨spec, value, v, formed, read, shown, _⟩ := applyInput_eq_ok_iff.mp called
      obtain ⟨s, accepted⟩ := exists_view_iff.mp ⟨v, shown⟩
      exact absurd reports (responds_of_accepted legible formed read accepted).succeeds
  · rintro ⟨e, called⟩
    rw [Endpoint.applyInput, called]
    exact reportsError_respond_error e

/-- Answers that are handed on from call to call come to the same as all of them at once, as the
responses are read.

A response reports an error if and only if the configuration or the definition in it cannot be read,
another form is served, the value cannot be read, or the form does not take the answers with the new
one. While none does, each response gives back the answers from before, of which there are none in a
text that is no object, with the value of its field in place of another one, and shows the form as the
service shows it for these answers (`Threads`). In the end a field has the last value that was given
for it, and nothing else counts for the last response, nor does the order of the fields. The numbers
in answers that are taken are assumed to be read as they are printed (`Legible`). -/
theorem inputs_replace_answers (id config text : String) :
    (∀ input, Legible id config text input →
      (ReportsError (Endpoint.applyInput id config text input.field input.value) ↔
        (ServiceConfig.ofText? config = none ∨ ∃ c, ServiceConfig.ofText? config = some c ∧
          ((∃ specText, c.specText? = some specText ∧ FormSpec.ofText? specText = none) ∨
            ∃ spec, c.spec? = some spec ∧ spec.id ≠ id)) ∨
        Json.valueOfText? input.value = none ∨
        ∃ spec j e, form id config = .ok spec ∧ Json.valueOfText? input.value = some j ∧
          FormState.ofAnswers spec (withAnswer (answersOfText text) input.field j) = .error e)) ∧
    ((∀ members, Json.valueOfText? text ≠ some (.object members)) →
      (answersOfText text).entries = []) ∧
    (∀ inputs responses, Runs id config text inputs responses →
      Threads id config (answersOfText text) inputs responses ∧
      (inputs ≠ [] → ∃ response answers view, responses.getLast? = some response ∧
        response = (Json.object [("answers", answers), ("form", view)]).compact ∧
        Json.valueOfText? response = some (.object [("answers", answers), ("form", view)]) ∧
        answers = .object answers.entries ∧
        Json.valueOfText? (Endpoint.refresh id config answers.compact) = some view ∧
        ∀ name, answers.entries.lookup name =
          (lastValue? inputs name).or ((answersOfText text).entries.lookup name))) ∧
    ∀ inputs responses inputs' responses', Runs id config text inputs responses →
      Runs id config text inputs' responses' →
      (∀ field, lastValue? inputs field = lastValue? inputs' field) →
        responses.getLast? = responses'.getLast? := by
  refine ⟨?_, ?_, ?_, ?_⟩
  · intro input legible
    rw [reportsError_iff legible, applyInput_error_iff, form_error_iff]
  · intro noObject
    rw [answersOfText]
    cases read : Json.valueOfText? text with
    | none => rfl
    | some j =>
      cases j with
      | object members => exact absurd read (noObject members)
      | _ => rfl
  · intro inputs responses runs
    exact ⟨runs.threads, runs.threads.exists_last⟩
  · intro inputs responses inputs' responses' runs runs' same
    exact runs.threads.getLast?_eq runs'.threads (fun _ => rfl) same

/-- Whether a form takes some answers with inputs added one after the other, and all numbers in them
are read as they are printed. -/
def takesAll (spec : FormSpec) : Json → List Input → Bool
  | _, [] => true
  | answers, input :: rest =>
    match Json.valueOfText? input.value with
    | none => false
    | some value =>
      let answers := withAnswer answers input.field value
      (FormState.ofAnswers spec answers).isOk &&
        (answers.numbers.all fun n =>
          (Numeral.ofChars? n.text.toList).bind Numeral.toNumber? == some n) &&
        takesAll spec answers rest

theorem exists_runs {id config text : String} {inputs : List Input} {spec : FormSpec}
    (formed : form id config = .ok spec) (few : spec.fields.length < 2 ^ 64)
    (takes : takesAll spec (answersOfText text) inputs = true) :
    ∃ responses, Runs id config text inputs responses := by
  induction inputs generalizing text with
  | nil => exact ⟨[], .nil text⟩
  | cons input rest ih =>
    rw [takesAll] at takes
    cases read : Json.valueOfText? input.value with
    | none =>
      rw [read] at takes
      cases takes
    | some value =>
      simp only [read, Bool.and_eq_true] at takes
      obtain ⟨⟨accepted, numbers⟩, takesRest⟩ := takes
      obtain ⟨s, accepted⟩ := Outcome.isOk_iff.mp accepted
      have legible : Legible id config text input := by
        intro spec' value' s' formed' read' _
        cases formed.symm.trans formed'
        cases read.symm.trans read'
        exact ⟨few, by simpa [Json.Number.ReadsBack] using numbers⟩
      have responds := responds_of_accepted legible formed read accepted
      rw [← responds.back] at takesRest
      obtain ⟨responses, runs⟩ := ih takesRest
      rw [← responds.answersIn_eq] at runs
      exact ⟨_, .cons rfl responds.succeeds legible runs⟩

/-- An age that is corrected afterwards, in a text that is no object to begin with, and two ages in
one text. -/
theorem corrected_age_counts :
    ∃ responses responses',
      Runs "membership" "" "[]" [⟨"age", "16"⟩, ⟨"guardian", "\"Ann\""⟩, ⟨"age", "17"⟩] responses ∧
      Runs "membership" "" "[]" [⟨"age", "17"⟩, ⟨"guardian", "\"Ann\""⟩] responses' ∧
      responses.getLast? = responses'.getLast? ∧
      (∃ response value, responses.getLast? = some response ∧ Json.valueOfText? response = some value ∧
        ∃ answers, value.member? "answers" = some answers ∧
          answers.entries.lookup "age" = Json.valueOfText? "17") ∧
      ReportsError (Endpoint.applyInput "membership" "" "[]" "age" "16 17") := by
  obtain ⟨fails, _, last, alike⟩ := inputs_replace_answers "membership" "" "[]"
  have formed : form "membership" "" = .ok FormSpec.membership := rfl
  obtain ⟨responses, runs⟩ := exists_runs formed (by decide) (by decide +kernel :
    takesAll FormSpec.membership (answersOfText "[]")
      [⟨"age", "16"⟩, ⟨"guardian", "\"Ann\""⟩, ⟨"age", "17"⟩] = true)
  obtain ⟨responses', runs'⟩ := exists_runs formed (by decide) (by decide +kernel :
    takesAll FormSpec.membership (answersOfText "[]")
      [⟨"age", "17"⟩, ⟨"guardian", "\"Ann\""⟩] = true)
  obtain ⟨age, read⟩ := Option.isSome_iff_exists.mp
    (by decide +kernel : (Json.valueOfText? "17").isSome = true)
  refine ⟨responses, responses', runs, runs', alike _ _ _ _ runs runs' ?_, ?_, ?_⟩
  · intro field
    by_cases isAge : field = "age" <;> simp [lastValue?, read, isAge]
  · obtain ⟨response, answers, view, given, _, answered, _, _, values⟩ :=
      (last _ _ runs).2 (List.cons_ne_nil _ _)
    refine ⟨response, _, given, answered, answers, rfl, ?_⟩
    rw [values]
    simp [lastValue?, read]
  · have unread : Json.valueOfText? "16 17" = none :=
      Option.isNone_iff_eq_none.mp (by decide +kernel : (Json.valueOfText? "16 17").isNone = true)
    have legible : Legible "membership" "" "[]" ⟨"age", "16 17"⟩ := by
      intro _ value _ _ read
      rw [unread] at read
      cases read
    exact (fails ⟨"age", "16 17"⟩ legible).mpr (.inr (.inl unread))

end Service

end FormLogic
