import FormLogic.CommandLine.Run
import FormLogic.Proofs.Intake
import FormLogic.Proofs.Responses

/-!
# One form on all surfaces

A form that is filled in can be printed as text, printed as JSON by way of the service, asked for
from the service itself, or checked as a submission. Each of these builds its own state from what it
reads; all of them come to one pass over one state (`Command.surfaces_agree`).
-/

namespace FormLogic

/-! ## Views -/

/-- The ids of the fields that a written view tells to be visible. -/
def Json.visibleIds (view : Json) : List String :=
  (((view.member? "fields").bind Json.array?).getD []).filterMap fun field =>
    if (field.member? "visible").bind Json.bool? = some true then
      (field.member? "id").bind Json.string?
    else none

theorem FieldView.member?_visible (v : FieldView) :
    v.toJson.member? "visible" = some (.bool v.visible) := by
  unfold FieldView.toJson Json.member? Json.optionalMember
  cases v.error? <;> cases v.evaluation? <;> rfl

theorem FieldView.member?_id (v : FieldView) : v.toJson.member? "id" = some (.string v.id) := by
  unfold FieldView.toJson Json.member? Json.optionalMember
  cases v.error? <;> cases v.evaluation? <;> rfl

theorem FormView.visibleIds_toJson (v : FormView) :
    v.toJson.visibleIds = (v.fields.filter (·.visible)).map (·.id) := by
  have listed : v.toJson.member? "fields" = some (.array (v.fields.map FieldView.toJson)) := rfl
  rw [Json.visibleIds, listed, Option.bind_some, Json.array?, Option.getD_some]
  induction v.fields with
  | nil => rfl
  | cons first rest ih =>
    rw [List.map_cons, List.filterMap_cons, first.member?_visible, first.member?_id, ih]
    by_cases visible : first.visible = true
    · simp [Json.bool?, Json.string?, visible]
    · simp [Json.bool?, visible]

/-- The fields that a view of a form that has been filled in shows are those that count for a
submission. -/
theorem FormView.visibleIds_of_filled {spec : FormSpec} {answers : Json} {s : FormState}
    (filled : FormState.ofAnswers spec answers = .ok s) :
    (ofState spec s.refreshed s.refresh.2).toJson.visibleIds = (Submission.ofState s).enabled := by
  rw [visibleIds_toJson, visible_ofState (.refresh (.ofAnswers filled))]
  rfl

theorem FormState.map_fst_visibility (s : FormState) :
    s.visibility.map Prod.fst = s.controls.map Control.id := by
  rw [visibility, List.map_map]
  rfl

/-- The fields that are active after a pass, as a map. -/
theorem FormState.mem_visibility_iff {s : FormState} {id : String} :
    (id, true) ∈ s.visibility ↔ id ∈ (s.controls.filter (·.active)).map Control.id := by
  simp only [visibility, List.mem_map, List.mem_filter, Prod.mk.injEq, and_assoc]
  apply exists_congr
  intro c
  rw [and_comm (a := c.id = id)]

/-- Resolving visibility gives each field once, and as visible those that count for a submission. -/
theorem FormSpec.resolveVisibility_of_filled {spec : FormSpec} {answers : Json} {s : FormState}
    (filled : FormState.ofAnswers spec answers = .ok s) :
    ∃ visibility, spec.resolveVisibility answers = .ok visibility ∧
      visibility.map Prod.fst = spec.fields.map Field.id ∧ (visibility.map Prod.fst).Nodup ∧
      ∀ id, (id, true) ∈ visibility ↔ id ∈ (Submission.ofState s).enabled := by
  have kept := FormState.Kept.ofAnswers filled
  refine ⟨s.refreshed.visibility, ?_, ?_, ?_, fun _ => FormState.mem_visibility_iff⟩
  · rw [resolveVisibility, filled]
    rfl
  · rw [FormState.map_fst_visibility, kept.refreshed_ids]
  · rw [FormState.map_fst_visibility]
    exact kept.refreshed.distinct

/-! ## Calls of the service -/

/-- A configuration of a form definition alone is read as it was printed. -/
theorem ServiceConfig.ofText?_specText (text : String) :
    ServiceConfig.ofText? (ServiceConfig.mk (some text) none).toJson.compact =
      some ⟨some text, none⟩ := by
  have printed : (ServiceConfig.mk (some text) none).toJson = Json.labelled "form_spec_json" text :=
    rfl
  have kept : known (Json.labelled "form_spec_json" text).draft =
      (Json.labelled "form_spec_json" text).draft := by
    apply Json.record_draft
    rw [List.forall_mem_singleton]
    exact ⟨rfl, rfl⟩
  have read := Json.ofTextKnowing?_compact kept (by decide : 1 ≤ Draft.maxDepth)
    (List.forall_mem_nil _)
  rw [ServiceConfig.ofText?, printed, Json.allBlank_labelled, read]
  rfl

namespace Service

/-- A configuration and a text of answers for what another text defines and for given answers. -/
structure Asks (config answersText specText : String) (answers : Json) : Prop where
  config : ServiceConfig.ofText? config = some ⟨some specText, none⟩
  answers : Json.valueOfText? answersText = some answers

variable {config answersText specText : String} {spec : FormSpec} {answers : Json}

/-- A configuration and answers as they are printed. -/
theorem Asks.printed (specText : String)
    (back : Json.valueOfText? answers.compact = some answers) :
    Asks (ServiceConfig.mk (some specText) none).toJson.compact answers.compact specText answers :=
  ⟨ServiceConfig.ofText?_specText specText, back⟩

theorem Asks.form_eq (asks : Asks config answersText specText answers)
    (decoded : FormSpec.ofText? specText = some spec) :
    Service.form spec.id config = .ok spec := by
  have served : (ServiceConfig.mk (some specText) none).spec? = some spec := by
    rw [ServiceConfig.spec?]
    simp only [decoded]
    rfl
  rw [Service.form, asks.config, Option.bind_some, served]
  simp only [if_true]

theorem Asks.refresh_eq (asks : Asks config answersText specText answers)
    (decoded : FormSpec.ofText? specText = some spec) :
    Service.refresh spec.id config answersText = view spec answers := by
  have sameAnswers : answersOfText answersText = answers := by
    rw [answersOfText, asks.answers, Option.getD_some]
  rw [Service.refresh, asks.form_eq decoded, sameAnswers]
  rfl

/-- The service answers with the view of the form that is asked for, -/
theorem Asks.refresh_of_filled (asks : Asks config answersText specText answers)
    (decoded : FormSpec.ofText? specText = some spec) {s : FormState}
    (filled : FormState.ofAnswers spec answers = .ok s) (few : spec.fields.length < 2 ^ 64) :
    Json.valueOfText? (Endpoint.refresh spec.id config answersText) =
      some (FormView.ofState spec s.refreshed s.refresh.2).toJson := by
  rw [Endpoint.refresh, asks.refresh_eq decoded, view_of_filled filled]
  have legible := @FormView.legible_ofState spec spec _ (.refresh (.ofAnswers filled)) s.refresh.2
    few
  exact (legible _).valueOfText?_compact

/-- or with the message that tells why the form cannot be filled in. -/
theorem Asks.refresh_of_error (asks : Asks config answersText specText answers)
    (decoded : FormSpec.ofText? specText = some spec) {e : FormError}
    (refused : FormState.ofAnswers spec answers = .error e) :
    Endpoint.refresh spec.id config answersText = respond (.error (.form e)) := by
  rw [Endpoint.refresh, asks.refresh_eq decoded, view_eq, refused]
  rfl

/-- It answers with the fields that count for a submission. -/
theorem Asks.enabledFields_of_filled (asks : Asks config answersText specText answers)
    (decoded : FormSpec.ofText? specText = some spec) {s : FormState}
    (filled : FormState.ofAnswers spec answers = .ok s) :
    ∃ submission,
      Json.valueOfText? (Endpoint.enabledFields spec.id config answersText) = some submission ∧
      (submission.member? "enabled").bind Json.strings? = some (Submission.ofState s).enabled := by
  have answered : Service.enabledFields spec.id config answersText =
      .ok (Submission.ofState s).toJson := by
    rw [Service.enabledFields, asks.form_eq decoded, asks.answers]
    simp only [Outcome.ok_bind, readable, Submission.check_of_accepted filled]
    rfl
  refine ⟨(Submission.ofState s).toJson, ?_, Submission.enabled_toJson _⟩
  rw [Endpoint.enabledFields, answered]
  exact (Submission.legible_toJson _ _).valueOfText?_compact

end Service

namespace Command

theorem unlines_singleton (line : String) : unlines [line] = line ++ "\n" := by
  rw [unlines, List.map_singleton, String.join, List.foldl_cons, List.foldl_nil,
    String.empty_append]

theorem readResponse_of_ok {response : String} {view : Json}
    (read : Json.valueOfText? response = some view) (noError : view.member? "error" = none) :
    readResponse response = .ok view := by
  rw [readResponse, read]
  simp only [noError, Option.bind_none]

/-- The message with which the service refuses a call is taken for one. -/
theorem readResponse_of_error (e : ServiceError) :
    readResponse (Service.respond (.error e)) = .error (.refused e.message) := by
  rw [readResponse, Service.valueOfText?_respond_error]
  rfl

section

variable {s : Sources} {path text : String} {state? : Option String} {spec : FormSpec}
  {answers : Json}

/-- The form and the answers that a command reads. -/
structure Reads (s : Sources) (path : String) (state? : Option String) (text : String)
    (spec : FormSpec) (answers : Json) : Prop where
  found : s.spec? = some text
  decoded : FormSpec.ofText? text = some spec
  answered : readAnswers s state? = .ok answers

theorem Reads.readText_eq (reads : Reads s path state? text spec answers) :
    readText path s.spec? (fun text => (FormSpec.ofText? text).map (text, ·)) =
      .ok (text, spec) := by
  unfold readText
  simp only [reads.found, reads.decoded, Option.map_some]

/-- A form is printed as text after one pass. -/
theorem Reads.run_text (reads : Reads s path state? text spec answers) :
    run s (.refresh path state? .text) =
      match FormView.ofAnswers spec answers with
      | .ok view => ⟨view.toText ++ "\n", none⟩
      | .error e => ⟨"", some (.form e)⟩ := by
  rw [run, refreshForm, reads.readText_eq]
  simp only [Outcome.ok_bind, reads.answered, unlines_singleton]
  cases FormView.ofAnswers spec answers with
  | ok view => rfl
  | error e => rfl

/-- The answers that are read are read again from their print. -/
theorem Reads.answers_again (reads : Reads s path state? text spec answers)
    (numbers : ∀ n ∈ answers.numbers, n.ReadsBack) :
    Json.valueOfText? answers.compact = some answers := by
  have answered := reads.answered
  unfold readAnswers readText at answered
  split at answered
  · split at answered
    · cases answered
    · next answersText _ =>
      split at answered
      · cases answered
      · next read =>
        cases answered
        exact (Json.legible_of_valueOfText? read numbers).valueOfText?_compact
  · cases answered
    have empty : (Json.object []).Legible Draft.maxDepth :=
      Json.legible_object List.Pairwise.nil (List.forall_mem_nil _)
    exact empty.valueOfText?_compact

/-- The configuration and the answers with which a command asks the service. -/
theorem Reads.asks (reads : Reads s path state? text spec answers)
    (numbers : ∀ n ∈ answers.numbers, n.ReadsBack) :
    Service.Asks (ServiceConfig.mk (some text) none).toJson.compact answers.compact text answers :=
  .printed text (reads.answers_again numbers)

theorem Reads.run_json (reads : Reads s path state? text spec answers) :
    run s (.refresh path state? .json) =
      match readResponse (Endpoint.refresh spec.id
        (ServiceConfig.mk (some text) none).toJson.compact answers.compact) with
      | .ok view => ⟨view.pretty ++ "\n", none⟩
      | .error e => ⟨"", some e⟩ := by
  rw [run, refreshForm, reads.readText_eq]
  simp only [Outcome.ok_bind, reads.answered, unlines_singleton]
  generalize readResponse _ = response
  cases response with
  | ok view => rfl
  | error e => rfl

end

/-- All surfaces show the same form. What is printed as text and, as a value, what is printed as JSON
and what the service answers is one view, that of the state filled in with the answers after one pass;
or all of them fail for one reason. The fields that the view shows are those that count for a
submission, and those that are active when visibility is resolved.

The numbers in the answers are assumed to be read as they are printed, and 64 bits to be enough to
count the fields. -/
theorem surfaces_agree {s : Sources} {path text : String} {state? : Option String} {spec : FormSpec}
    {answers : Json} (reads : Reads s path state? text spec answers)
    (numbers : ∀ n ∈ answers.numbers, n.ReadsBack) (few : spec.fields.length < 2 ^ 64) :
    Service.Asks (ServiceConfig.mk (some text) none).toJson.compact answers.compact text answers ∧
    match FormState.ofAnswers spec answers with
    | .error e =>
      run s (.refresh path state? .text) = ⟨"", some (.form e)⟩ ∧
      run s (.refresh path state? .json) = ⟨"", some (.refused e.message)⟩ ∧
      (∀ config answersText, Service.Asks config answersText text answers →
        Json.valueOfText? (Endpoint.refresh spec.id config answersText) =
          some (.object [("error", .string e.message)])) ∧
      spec.resolveVisibility answers = .error e
    | .ok filled =>
      let view := FormView.ofState spec filled.refreshed filled.refresh.2
      run s (.refresh path state? .text) = ⟨view.toText ++ "\n", none⟩ ∧
      (∃ printed, run s (.refresh path state? .json) = ⟨printed, none⟩ ∧
        printed = view.toJson.pretty ++ "\n" ∧ Json.valueOfText? printed = some view.toJson) ∧
      (∀ config answersText, Service.Asks config answersText text answers →
        Json.valueOfText? (Endpoint.refresh spec.id config answersText) = some view.toJson) ∧
      spec.enabledFields answers = .ok view.toJson.visibleIds ∧
      (∀ config answersText, Service.Asks config answersText text answers →
        ∃ submission,
          Json.valueOfText? (Endpoint.enabledFields spec.id config answersText) =
            some submission ∧
          (submission.member? "enabled").bind Json.strings? = some view.toJson.visibleIds) ∧
      ∃ visibility, spec.resolveVisibility answers = .ok visibility ∧
        visibility.map Prod.fst = spec.fields.map Field.id ∧ (visibility.map Prod.fst).Nodup ∧
        ∀ id, (id, true) ∈ visibility ↔ id ∈ view.toJson.visibleIds := by
  have printed := reads.asks numbers
  refine ⟨printed, ?_⟩
  have printedText := reads.run_text
  have printedJson := reads.run_json
  rw [FormView.ofAnswers_eq] at printedText
  cases filled : FormState.ofAnswers spec answers with
  | error e =>
    rw [filled] at printedText
    rw [printed.refresh_of_error reads.decoded filled, readResponse_of_error] at printedJson
    refine ⟨printedText, printedJson, ?_, ?_⟩
    · intro config answersText asks
      rw [asks.refresh_of_error reads.decoded filled]
      exact Service.valueOfText?_respond_error (.form e)
    · rw [FormSpec.resolveVisibility, filled]
      rfl
  | ok state =>
    rw [filled] at printedText
    rw [readResponse_of_ok (printed.refresh_of_filled reads.decoded filled few) rfl]
      at printedJson
    have legible := @FormView.legible_ofState spec spec _ (.refresh (.ofAnswers filled))
      state.refresh.2 few
    have active := FormView.visibleIds_of_filled filled
    refine ⟨printedText, ⟨_, printedJson, rfl, ?_⟩, ?_, ?_, ?_, ?_⟩
    · rw [Json.valueOfText?_line]
      exact (legible _).valueOfText?_pretty
    · intro config answersText asks
      exact asks.refresh_of_filled reads.decoded filled few
    · rw [FormSpec.enabledFields, Submission.check_of_accepted filled, active]
      rfl
    · intro config answersText asks
      rw [active]
      exact asks.enabledFields_of_filled reads.decoded filled
    · rw [active]
      exact FormSpec.resolveVisibility_of_filled filled

/-- A form with three fields, of which the last is for those who stay in the country. -/
def trip : FormSpec where
  id := "trip"
  title := "Trip"
  version := "1"
  description? := none
  policy? := none
  fields := [
    ⟨"abroad", "Abroad?", .checkbox, false, [], none, .empty⟩,
    ⟨"nights", "Nights", .number, false, [], none, .empty⟩,
    ⟨"rail", "Rail pass", .singleline, false, [], none, .leaf ⟨"abroad", "nc", none⟩⟩]

def tripText : String :=
  "\x7b\"id\":\"trip\",\"title\":\"Trip\",\"version\":\"1\",\"fields\":[" ++
    "\x7b\"id\":\"abroad\",\"label\":\"Abroad?\",\"type\":\"checkbox\"\x7d," ++
    "\x7b\"id\":\"nights\",\"label\":\"Nights\",\"type\":\"number\"\x7d," ++
    "\x7b\"id\":\"rail\",\"label\":\"Rail pass\",\"type\":\"singleline\"," ++
    "\"rule\":\x7b\"entry\":[\"abroad\",\"nc\"]\x7d\x7d]\x7d"

set_option maxRecDepth 8000 in
theorem ofText?_tripText : FormSpec.ofText? tripText = some trip := by
  unfold FormSpec.ofText? Json.ofTextKnowing? Draft.ofText? tripText
  simp only [String.toList_append]
  cbv

def tripSources : Sources :=
  ⟨some tripText, some "\x7b\"abroad\":true,\"nights\":3\x7d", ""⟩

/-- One who goes abroad for three nights. -/
def tripAnswers : Json :=
  .object [("abroad", .bool true), ("nights", .ofNat 3)]

/-- The rail pass is shown on no surface to one who goes abroad. -/
theorem trip_surfaces_agree :
    Reads tripSources "trip.json" (some "answers.json") tripText trip tripAnswers ∧
    let config := (ServiceConfig.mk (some tripText) none).toJson.compact
    ∃ (view : FormView) (printed : String) (submission : Json),
      run tripSources (.refresh "trip.json" (some "answers.json") .text) =
        ⟨view.toText ++ "\n", none⟩ ∧
      run tripSources (.refresh "trip.json" (some "answers.json") .json) = ⟨printed, none⟩ ∧
      Json.valueOfText? printed = some view.toJson ∧
      Json.valueOfText? (Endpoint.refresh "trip" config tripAnswers.compact) = some view.toJson ∧
      view.toJson.visibleIds = ["abroad", "nights"] ∧
      Json.valueOfText? (Endpoint.enabledFields "trip" config tripAnswers.compact) =
        some submission ∧
      (submission.member? "enabled").bind Json.strings? = some ["abroad", "nights"] := by
  have sorted : ["abroad", "nights"].Pairwise (· < ·) := by decide
  have legible : tripAnswers.Legible Draft.maxDepth := by
    apply Json.legible_object
    · exact sorted
    · simp only [List.forall_mem_cons]
      exact ⟨Json.legible_bool _ true, Json.legible_ofNat _ (by decide), List.forall_mem_nil _⟩
  have answered : readAnswers tripSources (some "answers.json") = .ok tripAnswers := by
    have printed : "\x7b\"abroad\":true,\"nights\":3\x7d" = tripAnswers.compact := by decide +kernel
    simp only [readAnswers, readText, tripSources, printed, legible.valueOfText?_compact]
  have reads : Reads tripSources "trip.json" (some "answers.json") tripText trip tripAnswers :=
    ⟨rfl, ofText?_tripText, answered⟩
  obtain ⟨asks, agree⟩ := surfaces_agree reads legible.numbers (by decide)
  obtain ⟨state, filled⟩ : ∃ state, FormState.ofAnswers trip tripAnswers = .ok state := ⟨_, rfl⟩
  rw [filled] at agree
  obtain ⟨text, ⟨printed, json, _, value⟩, served, enabled, submitted, _⟩ := agree
  have counted : trip.enabledFields tripAnswers = .ok ["abroad", "nights"] := by decide +kernel
  have visible := Except.ok.inj (enabled.symm.trans counted)
  obtain ⟨submission, response, ids⟩ := submitted _ _ asks
  rw [visible] at ids
  exact ⟨reads, _, printed, submission, text, json, value, served _ _ asks, visible, response,
    ids⟩

end Command

end FormLogic
