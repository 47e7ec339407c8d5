import FormLogic.Proofs.Entries
import FormLogic.Proofs.Reachable
import Mathlib.Data.List.Nodup

/-!
# Forms filled in from an object

The answers of an object are taken one after the other. As ids are distinct, and names of entries
too, this comes to looking up, for each control on its own, the answer that the object holds for it
(`Control.taking`).
-/

namespace FormLogic

namespace Control

/-- The answer that some entries hold for a control, if they hold one that it can take. -/
def given? (entries : List Json.Member) (c : Control) : Option Answer :=
  (entries.lookup c.id).bind fun j => (answerOf c.field j).toOption

/-- The control with the answer that some entries hold for it. -/
def taking (entries : List Json.Member) (c : Control) : Control :=
  { c with answer := (c.given? entries).getD c.answer }

@[simp] theorem taking_field (entries : List Json.Member) (c : Control) :
    (c.taking entries).field = c.field :=
  rfl

@[simp] theorem taking_id (entries : List Json.Member) (c : Control) :
    (c.taking entries).id = c.id :=
  rfl

@[simp] theorem taking_nil (c : Control) : c.taking [] = c :=
  rfl

theorem taking_congr {entries others : List Json.Member} {c : Control}
    (same : entries.lookup c.id = others.lookup c.id) : c.taking entries = c.taking others := by
  simp only [taking, given?, same]

theorem given?_of_absent {entries : List Json.Member} {c : Control}
    (absent : c.id ∉ entries.map Prod.fst) : c.given? entries = none := by
  have noEntry : entries.lookup c.id = none := by
    rw [List.lookup_eq_none_iff]
    intro entry member
    simp only [bne_iff_ne, ne_eq]
    intro sameName
    exact absent (sameName ▸ List.mem_map_of_mem member)
  rw [given?, noEntry]
  rfl

theorem taking_cons {rest : List Json.Member} {id : String} {j : Json}
    (absent : id ∉ rest.map Prod.fst) (c : Control) :
    (c.taking [(id, j)]).taking rest = c.taking ((id, j) :: rest) := by
  have sameGiven : (c.taking [(id, j)]).given? rest = c.given? rest := rfl
  by_cases same : c.id = id
  · have notInRest : c.given? rest = none := given?_of_absent (same ▸ absent)
    rw [taking, sameGiven, notInRest]
    simp [taking, given?, same]
  · have other : (c.id == id) = false := beq_eq_false_iff_ne.mpr same
    rw [taking, sameGiven]
    simp [taking, given?, List.lookup_cons, other]

end Control

namespace FormState

/-! ## Single answers -/

theorem setAnswer_controls {s t : FormState} {id : String} {answer : Answer}
    (distinct : (s.controls.map Control.id).Nodup) (taken : s.setAnswer id answer = .ok t) :
    t.controls = s.controls.map fun c => if c.id = id then { c with answer } else c := by
  rw [setAnswer_eq] at taken
  split at taken
  · cases taken
  · next k found =>
    cases taken
    obtain ⟨c, foundC, sameId⟩ := Control.getElem?_of_position? found
    apply List.ext_getElem?
    intro l
    rw [List.getElem?_modify, List.getElem?_map]
    cases foundD : s.controls[l]? with
    | none => rfl
    | some d =>
      by_cases same : k = l
      · subst same
        rw [foundC] at foundD
        cases foundD
        simp [sameId]
      · have otherId : d.id ≠ id := by
          intro equal
          have atD := Control.position?_of_getElem? distinct foundD
          rw [equal] at atD
          exact same (Option.some.inj (found.symm.trans atD))
        simp [same, otherId]

theorem setValue_controls {s t : FormState} {id : String} {j : Json}
    (distinct : (s.controls.map Control.id).Nodup) (taken : s.setValue id j = .ok t) :
    t.controls = s.controls.map (Control.taking [(id, j)]) := by
  obtain ⟨c, answer, found, decoded, taken⟩ := setValue_ok.mp taken
  have sameId : c.id = id := by simpa using List.find?_some found
  rw [setAnswer_controls distinct taken]
  apply List.map_congr_left
  intro d member
  by_cases same : d.id = id
  · have equal : d = c :=
      List.inj_on_of_nodup_map distinct member (List.mem_of_find?_eq_some found)
        (same.trans sameId.symm)
    subst equal
    simp [Control.taking, Control.given?, same, decoded, Except.toOption]
  · have other : (d.id == id) = false := beq_eq_false_iff_ne.mpr same
    simp [Control.taking, Control.given?, List.lookup_cons, same, other]

theorem setAnswer_total {s : FormState} {id : String} {c : Control} (found : s.control? id = some c)
    (answer : Answer) : ∃ t, s.setAnswer id answer = .ok t := by
  rw [setAnswer_eq]
  split
  · next nowhere =>
    rw [position?, Control.position?, List.findIdx?_eq_none_iff] at nowhere
    have notC := nowhere c (List.mem_of_find?_eq_some found)
    have isC := List.find?_some found
    rw [notC] at isC
    cases isC
  · exact ⟨_, rfl⟩

theorem setValue_fields {s t : FormState} {id : String} {j : Json}
    (taken : s.setValue id j = .ok t) :
    t.controls.map Control.field = s.controls.map Control.field := by
  obtain ⟨_, _, _, _, taken⟩ := setValue_ok.mp taken
  exact Control.fields_of_sameButAnswers (setAnswer_ok taken).2

/-! ## Several answers -/

theorem setValues_controls {s t : FormState} {entries : List Json.Member}
    (distinct : (s.controls.map Control.id).Nodup) (names : (entries.map Prod.fst).Nodup)
    (taken : s.setValues entries = .ok t) :
    t.controls = s.controls.map (Control.taking entries) := by
  induction entries generalizing s with
  | nil =>
    cases taken
    exact (List.map_id _).symm
  | cons entry rest ih =>
    obtain ⟨id, j⟩ := entry
    obtain ⟨next, first, others⟩ := setValues_cons_ok.mp taken
    rw [List.map_cons, List.nodup_cons] at names
    have filled := setValue_controls distinct first
    have sameIds : next.controls.map Control.id = s.controls.map Control.id := by
      rw [filled, List.map_map]
      rfl
    rw [ih (sameIds ▸ distinct) names.2 others, filled, List.map_map]
    apply List.map_congr_left
    intro c _
    exact Control.taking_cons names.1 c

/-! ## Forms with their answers -/

/-- A form filled in from an object is the form as it is opened, each control with its answer. -/
theorem ofAnswers_controls {spec : FormSpec} {answers : Json} {s first : FormState}
    (opened : FormState.ofSpec spec = .ok first)
    (accepted : FormState.ofAnswers spec answers = .ok s) :
    s.controls = first.controls.map (Control.taking answers.entries) := by
  obtain ⟨first', opened', taken⟩ := ofAnswers_ok.mp accepted
  cases opened.symm.trans opened'
  exact setValues_controls (Kept.ofSpec opened).distinct answers.nodup_entries taken

end FormState

end FormLogic
