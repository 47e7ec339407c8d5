import FormLogic.Proofs.PrintedView
import FormLogic.Service.Request

/-!
# Responses

The service answers every call with a text, and the text is read as one value: as what the call comes
to, or as an object with a message under `error` that tells why it comes to nothing.
-/

namespace FormLogic

namespace Json

/-- A text under a name. -/
def labelled (name text : String) : Json :=
  object [(name, string text)]

theorem legible_labelled (name text : String) (room : Nat) :
    (labelled name text).Legible (room + 1) := by
  apply legible_object
  · exact List.pairwise_singleton _ _
  · rw [List.forall_mem_singleton]
    exact legible_string room text

theorem valueOfText?_labelled (name text : String) :
    valueOfText? (labelled name text).compact = some (labelled name text) :=
  (legible_labelled name text _).valueOfText?_compact

/-- The text of an object with members begins with the name of the first. -/
theorem toList_compact_object (name : String) (value : Json) (rest : List Member) :
    ∃ more, (object ((name, value) :: rest)).compact.toList =
      '\x7b' :: ((quote name).toList ++ more) := by
  have opening : "\x7b".toList = ['\x7b'] := rfl
  have noGap : (Spacing.none.gap 1).toList = [] := rfl
  rw [compact, print, List.isEmpty_cons, if_neg Bool.false_ne_true]
  simp only [String.toList_append, toList_printMembers, memberText, List.append_assoc, opening,
    noGap, Nat.zero_add, List.nil_append, List.cons_append]
  exact ⟨_, rfl⟩

theorem allBlank_labelled (name text : String) :
    Text.allBlank (labelled name text).compact = false := by
  obtain ⟨more, printed⟩ := toList_compact_object name (string text) []
  have notBlank : Text.isBlank '\x7b' = false := by decide
  rw [Text.allBlank, labelled, printed, List.all_cons, notBlank, Bool.false_and]

theorem strings?_ofStrings (texts : List String) : (ofStrings texts).strings? = some texts := by
  rw [ofStrings, strings?, array?, Option.bind_eq_bind, Option.bind_some]
  induction texts with
  | nil => rfl
  | cons first rest ih =>
    rw [List.map_cons, List.mapM_cons, ih]
    rfl

end Json

/-! ## What calls come to -/

/-- What comes of a submission is told in texts and by one flag. -/
theorem Submission.legible_toJson (s : Submission) (room : Nat) :
    s.toJson.Legible (room + 3) := by
  have sorted : ["disabled", "enabled", "errors", "missing_required", "unknown_fields",
      "valid"].Pairwise (· < ·) := by decide
  have sortedError : ["code", "field_id", "message"].Pairwise (· < ·) := by decide
  have texts (ids : List String) := Json.legible_ofStrings (room + 1) ids
  have errors : (Json.array (s.errors.map fun error =>
      .object [("code", .string error.2.code), ("field_id", .string error.1),
        ("message", .string error.2.message)])).Legible (room + 2) := by
    apply Json.legible_array
    rw [List.forall_mem_map]
    intro error _
    apply Json.legible_object
    · exact sortedError
    · have text (t : String) := Json.legible_string room t
      simp only [List.forall_mem_cons]
      exact ⟨text _, text _, text _, List.forall_mem_nil _⟩
  apply Json.legible_object
  · exact sorted
  · simp only [List.forall_mem_cons]
    exact ⟨texts _, texts _, errors, texts _, texts _, Json.legible_bool _ _,
      List.forall_mem_nil _⟩

theorem Submission.enabled_toJson (s : Submission) :
    (s.toJson.member? "enabled").bind Json.strings? = some s.enabled :=
  Json.strings?_ofStrings s.enabled

theorem Evaluation.legible_toJson {e : Evaluation} (few : e.indent < 2 ^ 64) (room : Nat) :
    e.toJson.Legible (room + 1) := by
  have sorted : ["formula", "indent_level", "is_active", "trace"].Pairwise (· < ·) := by decide
  have text (t : String) := Json.legible_string room t
  apply Json.legible_object
  · exact sorted
  · simp only [List.forall_mem_cons]
    exact ⟨text _, Json.legible_ofNat room few, Json.legible_bool room _, text _,
      List.forall_mem_nil _⟩

namespace Service

/-- The response to a call that comes to nothing is read as the message that tells why. -/
theorem valueOfText?_respond_error (e : ServiceError) :
    Json.valueOfText? (respond (.error e)) = some (.object [("error", .string e.message)]) :=
  Json.valueOfText?_labelled "error" e.message

/-- A form is shown after one pass over the state that it is filled in to. -/
theorem view_eq (spec : FormSpec) (answers : Json) :
    view spec answers = ((FormState.ofAnswers spec answers).mapError .form).map fun s =>
      (FormView.ofState spec s.refreshed s.refresh.2).toJson := by
  rw [view, FormView.ofAnswers_eq]
  cases FormState.ofAnswers spec answers <;> rfl

theorem view_of_filled {spec : FormSpec} {answers : Json} {s : FormState}
    (filled : FormState.ofAnswers spec answers = .ok s) :
    view spec answers = .ok (FormView.ofState spec s.refreshed s.refresh.2).toJson := by
  rw [view_eq, filled]
  rfl

end Service

end FormLogic
