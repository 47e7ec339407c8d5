import FormLogic.Form.View
import FormLogic.Proofs.Levels
import FormLogic.Proofs.PrintedJson

/-!
# Printed views

A view has its members in order, and its numbers count fields or levels of indentation. So it is read
as it was printed, if 64 bits are enough for the number of fields.
-/

namespace FormLogic

namespace Json

theorem forall_mem_optionalMember {name : String} {value? : Option Json} {p : Member → Prop} :
    (∀ member ∈ optionalMember name value?, p member) ↔
      ∀ value, value? = some value → p (name, value) := by
  cases value? <;> simp [optionalMember]

theorem map_fst_optionalMember (name : String) (value? : Option Json) :
    ((optionalMember name value?).map Prod.fst).Sublist [name] := by
  cases value? with
  | none => exact List.nil_sublist [name]
  | some value => exact List.Sublist.refl [name]

end Json

/-! ## Fields -/

namespace FieldView

/-- A field is read as it was printed, if its level is. -/
theorem legible_toJson {v : FieldView} (few : v.indent < 2 ^ 64) (room : Nat) :
    v.toJson.Legible (room + 1) := by
  have sorted : (["block", "current_value"] ++ ["error"] ++ ["formula"] ++
      ["id", "indent_level", "label", "padding_left", "required"] ++ ["trace"] ++
        ["type", "visible"]).Pairwise (· < ·) := by decide
  have text (s : String) := Json.legible_string room s
  have flag (b : Bool) := Json.legible_bool room b
  apply Json.legible_object
  · apply List.Pairwise.sublist _ sorted
    simp only [List.map_append]
    apply List.Sublist.append _ (List.Sublist.refl _)
    apply List.Sublist.append _ (Json.map_fst_optionalMember "trace" _)
    apply List.Sublist.append _ (List.Sublist.refl _)
    apply List.Sublist.append _ (Json.map_fst_optionalMember "formula" _)
    exact List.Sublist.append (List.Sublist.refl _) (Json.map_fst_optionalMember "error" _)
  · have written {α : Type} (part? : Option α) (name : String) (write : α → String) :
        ∀ member ∈ Json.optionalMember name (part?.map fun part => .string (write part)),
          member.2.Legible room := by
      rw [Json.forall_mem_optionalMember]
      intro value present
      obtain ⟨part, _, rfl⟩ := Option.map_eq_some_iff.mp present
      exact text _
    simp only [List.forall_mem_append, List.forall_mem_cons]
    exact ⟨⟨⟨⟨⟨⟨text _, text _, List.forall_mem_nil _⟩, written v.error? _ _⟩,
      written v.evaluation? _ _⟩, text _, Json.legible_ofNat room few, text _, text _, flag _,
      List.forall_mem_nil _⟩, written v.evaluation? _ _⟩, text _, flag _, List.forall_mem_nil _⟩

theorem visible_ofControl {c : Control} (consistent : c.Consistent) (policy : Policy)
    (report : Report) : (ofControl policy report c).visible = c.active := by
  rw [ofControl, consistent.hidden, Bool.not_not]

end FieldView

/-! ## Forms -/

namespace FormView

/-- A view is read as it was printed, if its counts and the levels of its fields are. -/
theorem legible_toJson {v : FormView} (few : v.total < 2 ^ 64)
    (each : ∀ field ∈ v.fields, field.indent < 2 ^ 64) (room : Nat) :
    v.toJson.Legible (room + 3) := by
  have countsSorted : ["total", "visible"].Pairwise (· < ·) := by decide
  have sorted : ["fields", "form_id", "form_title", "form_version",
      "progress"].Pairwise (· < ·) := by decide
  have fewer : v.visible < 2 ^ 64 := Nat.lt_of_le_of_lt (List.length_filter_le _ _) few
  have fields : (Json.array (v.fields.map FieldView.toJson)).Legible (room + 2) := by
    apply Json.legible_array
    rw [List.forall_mem_map]
    exact fun field member => FieldView.legible_toJson (each field member) room
  have counts : (Json.object [("total", .ofNat v.total),
      ("visible", .ofNat v.visible)]).Legible (room + 2) := by
    apply Json.legible_object
    · exact countsSorted
    · simp only [List.forall_mem_cons]
      exact ⟨Json.legible_ofNat _ few, Json.legible_ofNat _ fewer, List.forall_mem_nil _⟩
  have text (s : String) := Json.legible_string (room + 2) s
  apply Json.legible_object
  · exact sorted
  · simp only [List.forall_mem_cons]
    exact ⟨fields, text _, text _, text _, counts, List.forall_mem_nil _⟩

/-- The fields that a view shows are those that are active. -/
theorem visible_ofState {spec shown : FormSpec} {s : FormState}
    (reached : FormState.Reachable spec s) (report : Report) :
    ((ofState shown s report).fields.filter (·.visible)).map (·.id) =
      (s.controls.filter (·.active)).map Control.id := by
  have kept : s.controls.filter ((·.visible) ∘ FieldView.ofControl s.policy report) =
      s.controls.filter (·.active) :=
    List.filter_congr fun c member =>
      FieldView.visible_ofControl (reached.consistent c member) s.policy report
  rw [ofState, List.filter_map, List.map_map, kept]
  rfl

theorem total_ofState {spec shown : FormSpec} {s : FormState}
    (reached : FormState.Reachable spec s) (report : Report) :
    (ofState shown s report).total = spec.fields.length := by
  rw [total, ofState, List.length_map, ← reached.kept.fields, List.length_map]

/-- No field is indented further than its position. So a view of a form in a state that can be reached
is read as it was printed, if 64 bits are enough to count its fields. -/
theorem legible_ofState {spec shown : FormSpec} {s : FormState}
    (reached : FormState.Reachable spec s) (report : Report) (few : spec.fields.length < 2 ^ 64)
    (room : Nat) : (ofState shown s report).toJson.Legible (room + 3) := by
  apply legible_toJson
  · rw [total_ofState reached]
    exact few
  · intro field member
    obtain ⟨c, inside, rfl⟩ := List.mem_map.mp member
    obtain ⟨i, bound, rfl⟩ := List.getElem_of_mem inside
    have level := reached.leveled i _ (List.getElem?_eq_getElem bound)
    rw [← reached.kept.fields, List.length_map] at few
    exact Nat.lt_of_le_of_lt level (Nat.lt_trans bound few)

/-- A form filled in is shown after one pass over its state. -/
theorem ofAnswers_eq (spec : FormSpec) (answers : Json) :
    ofAnswers spec answers =
      (FormState.ofAnswers spec answers).map fun s => ofState spec s.refreshed s.refresh.2 := by
  unfold ofAnswers
  cases FormState.ofAnswers spec answers with
  | error e => rfl
  | ok s => rfl

theorem ofAnswers_of_filled {spec : FormSpec} {answers : Json} {s : FormState}
    (filled : FormState.ofAnswers spec answers = .ok s) :
    ofAnswers spec answers = .ok (ofState spec s.refreshed s.refresh.2) := by
  rw [ofAnswers_eq, filled]
  rfl

theorem length_fields_ofAnswers {spec : FormSpec} {answers : Json} {v : FormView}
    (shown : ofAnswers spec answers = .ok v) : v.fields.length = spec.fields.length := by
  rw [ofAnswers_eq] at shown
  obtain ⟨s, filled, rfl⟩ := Outcome.map_eq_ok_iff.mp shown
  exact total_ofState (.refresh (.ofAnswers filled)) s.refresh.2

theorem legible_ofAnswers {spec : FormSpec} {answers : Json} {v : FormView}
    (shown : ofAnswers spec answers = .ok v) (few : spec.fields.length < 2 ^ 64) (room : Nat) :
    v.toJson.Legible (room + 3) := by
  rw [ofAnswers_eq] at shown
  obtain ⟨s, filled, rfl⟩ := Outcome.map_eq_ok_iff.mp shown
  exact legible_ofState (.refresh (.ofAnswers filled)) s.refresh.2 few room

end FormView

end FormLogic
