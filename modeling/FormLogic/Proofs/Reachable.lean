import FormLogic.Proofs.Failure

/-!
# Reachable states

The states that a form can be in: it is opened, with or without answers, and then answered, given
another policy and passed over, in any order. What all these states have in common is `Kept`: their
controls are the fields of the definition, and a field whose rule is faulty is still shown as it
was at first. A pass makes of such a state what it makes of the state in which no pass has ever
been (`refreshed_eq_fresh`), so that nothing of earlier passes is left after it.
-/

namespace FormLogic

namespace Control

/-- The control with its answer, shown as before any pass. -/
def fresh (c : Control) : Control :=
  { c with active := true, hidden := false, required := c.field.required, indent := 0 }

@[simp] theorem fresh_field (c : Control) : c.fresh.field = c.field :=
  rfl

@[simp] theorem fresh_answer (c : Control) : c.fresh.answer = c.answer :=
  rfl

@[simp] theorem fresh_id (c : Control) : c.fresh.id = c.id :=
  rfl

/-- An evaluation covers up how a control was shown; only a failure lets it through. -/
theorem settle_fresh {c : Control} {result : Except EvalError Evaluation}
    (failing : (errorOf? result).isSome → c = c.fresh) :
    c.fresh.settle result = c.settle result := by
  cases result with
  | ok e => rfl
  | error e => exact (failing rfl).symm

/-- Two controls that differ at most in their answers. -/
def SameButAnswer (c d : Control) : Prop :=
  ∃ answer, d = { c with answer }

theorem SameButAnswer.refl (c : Control) : SameButAnswer c c :=
  ⟨c.answer, rfl⟩

theorem SameButAnswer.symm {c d : Control} (same : SameButAnswer c d) : SameButAnswer d c := by
  obtain ⟨answer, rfl⟩ := same
  exact ⟨c.answer, rfl⟩

theorem sameButAnswers_refl (cs : List Control) : List.Forall₂ SameButAnswer cs cs :=
  List.forall₂_same.mpr fun c _ => .refl c

theorem sameButAnswers_symm {cs ds : List Control} (same : List.Forall₂ SameButAnswer cs ds) :
    List.Forall₂ SameButAnswer ds cs :=
  (same.imp fun _ _ first => first.symm).flip

theorem sameButAnswers_trans {cs ds es : List Control}
    (first : List.Forall₂ SameButAnswer cs ds) (second : List.Forall₂ SameButAnswer ds es) :
    List.Forall₂ SameButAnswer cs es := by
  induction first generalizing es with
  | nil => exact second
  | cons same _ ih =>
    obtain ⟨_, rfl⟩ := same
    cases second with
    | cons same' rest =>
      obtain ⟨answer, rfl⟩ := same'
      exact .cons ⟨answer, rfl⟩ (ih rest)

theorem sameButAnswer_at {cs ds : List Control} (same : List.Forall₂ SameButAnswer cs ds) {k : Nat}
    {d : Control} (found : ds[k]? = some d) : ∃ c, cs[k]? = some c ∧ SameButAnswer c d := by
  obtain ⟨bound, rfl⟩ := List.getElem?_eq_some_iff.mp found
  have boundBefore : k < cs.length := same.length_eq ▸ bound
  exact ⟨_, List.getElem?_eq_getElem boundBefore, same.get boundBefore bound⟩

theorem fields_of_sameButAnswers {cs ds : List Control} (same : List.Forall₂ SameButAnswer cs ds) :
    ds.map Control.field = cs.map Control.field := by
  induction same with
  | nil => rfl
  | cons first _ ih =>
    obtain ⟨answer, rfl⟩ := first
    rw [List.map_cons, List.map_cons, ih]

theorem sameButAnswer_modify (controls : List Control) (k : Nat) (answer : Answer) :
    List.Forall₂ SameButAnswer controls (controls.modify k ({ · with answer })) := by
  induction controls generalizing k with
  | nil =>
    rw [List.modify_nil]
    exact .nil
  | cons c rest ih =>
    cases k with
    | zero =>
      rw [List.modify_zero_cons]
      exact .cons ⟨answer, rfl⟩ (sameButAnswers_refl rest)
    | succ k =>
      rw [List.modify_succ_cons]
      exact .cons (.refl c) (ih k)

/-- A control that is hidden just when it is not active, and asks for an answer just when it is
active and its field is declared to ask for one. -/
structure Consistent (c : Control) : Prop where
  hidden : c.hidden = !c.active
  required : c.required = (c.field.required && c.active)

theorem consistent_fresh (c : Control) : c.fresh.Consistent where
  hidden := rfl
  required := (Bool.and_true _).symm

theorem Consistent.settle {c : Control} (consistent : c.Consistent)
    (result : Except EvalError Evaluation) : (c.settle result).Consistent := by
  cases result with
  | ok e => exact ⟨rfl, rfl⟩
  | error e => exact consistent

theorem Consistent.sameButAnswers {cs ds : List Control}
    (same : List.Forall₂ SameButAnswer cs ds) (consistent : ∀ c ∈ cs, c.Consistent) :
    ∀ d ∈ ds, d.Consistent := by
  induction same with
  | nil => exact consistent
  | cons first _ ih =>
    obtain ⟨answer, rfl⟩ := first
    rw [List.forall_mem_cons] at consistent ⊢
    exact ⟨⟨consistent.1.hidden, consistent.1.required⟩, ih consistent.2⟩

theorem ofField_ok {f : Field} {c : Control} (opened : ofField f = .ok c) :
    c.field = f ∧ c = c.fresh := by
  simp only [ofField] at opened
  split at opened
  · obtain ⟨answer, _, opened⟩ := Outcome.bind_eq_ok_iff.mp opened
    cases opened
    exact ⟨rfl, rfl⟩
  · cases opened
    exact ⟨rfl, rfl⟩

/-- What is known of controls that have been set up for fields after some others. -/
theorem ofFields_ok {before : List String} {fields : List Field} {controls : List Control}
    (opened : ofFields before fields = .ok controls) :
    controls.map Control.field = fields ∧ (∀ c ∈ controls, c = c.fresh) ∧
      (fields.map Field.id).Nodup ∧ ∀ f ∈ fields, f.id ∉ before := by
  induction fields generalizing before controls with
  | nil =>
    cases opened
    simp
  | cons f rest ih =>
    simp only [ofFields] at opened
    by_cases repeated : before.contains f.id = true
    · rw [if_pos repeated] at opened
      cases opened
    · rw [if_neg repeated] at opened
      obtain ⟨c, first, opened⟩ := Outcome.bind_eq_ok_iff.mp opened
      obtain ⟨cs, others, opened⟩ := Outcome.bind_eq_ok_iff.mp opened
      cases opened
      obtain ⟨sameField, untouched⟩ := ofField_ok first
      obtain ⟨sameFields, allUntouched, distinct, apart⟩ := ih others
      refine ⟨?_, ?_, ?_, ?_⟩
      · rw [List.map_cons, sameField, sameFields]
      · intro d member
        rcases List.mem_cons.mp member with rfl | member
        · exact untouched
        · exact allUntouched d member
      · rw [List.map_cons, List.nodup_cons]
        refine ⟨?_, distinct⟩
        intro member
        obtain ⟨g, inRest, sameId⟩ := List.mem_map.mp member
        exact apart g inRest (sameId ▸ List.mem_cons_self)
      · intro g member
        rcases List.mem_cons.mp member with rfl | member
        · simpa using repeated
        · exact fun inBefore => apart g member (List.mem_cons_of_mem _ inBefore)

end Control

/-- A form for travellers: a country is asked for from those who go abroad, a visa from those who
do not stay at home; and a fee depends on a field that the form lacks. -/
def FormSpec.travel : FormSpec where
  id := "travel"
  title := "Travel"
  version := "1"
  description? := none
  policy? := none
  fields := [
    ⟨"abroad", "Abroad", .checkbox, false, [], none, .empty⟩,
    ⟨"country", "Country", .singleline, true, [], none, .leaf ⟨"abroad", "c", none⟩⟩,
    ⟨"visa", "Visa", .singleline, false, [], some (.string "none"),
      .leaf ⟨"country", "neq", some (.text "home")⟩⟩,
    ⟨"fee", "Fee", .number, false, [], none, .leaf ⟨"price", "c", none⟩⟩]

namespace FormState

/-- The states that a form can be in. -/
inductive Reachable (spec : FormSpec) : FormState → Prop where
  | ofSpec {s : FormState} (opened : FormState.ofSpec spec = .ok s) : Reachable spec s
  | ofAnswers {answers : Json} {s : FormState}
      (opened : FormState.ofAnswers spec answers = .ok s) : Reachable spec s
  | setAnswer {s t : FormState} {id : String} {answer : Answer} (reached : Reachable spec s)
      (taken : s.setAnswer id answer = .ok t) : Reachable spec t
  | setValue {s t : FormState} {id : String} {j : Json} (reached : Reachable spec s)
      (taken : s.setValue id j = .ok t) : Reachable spec t
  | setPolicy {s : FormState} (policy : Policy) (reached : Reachable spec s) :
      Reachable spec (s.setPolicy policy)
  | refresh {s : FormState} (reached : Reachable spec s) : Reachable spec s.refreshed

theorem control?_of_getElem? {s : FormState} {id : String} {k : Nat} {c : Control}
    (first : Control.position? s.controls id = some k) (found : s.controls[k]? = some c) :
    s.control? id = some c := by
  obtain ⟨bound, sameId, notBefore⟩ := List.findIdx?_eq_some_iff_getElem.mp first
  obtain ⟨_, rfl⟩ := List.getElem?_eq_some_iff.mp found
  refine List.find?_eq_some_iff_getElem.mpr ⟨sameId, k, bound, rfl, ?_⟩
  intro j before
  simpa using notBefore j before

/-! ## What an answer changes -/

/-- An answer is taken by any field that there is. -/
theorem setAnswer_eq (s : FormState) (id : String) (answer : Answer) :
    s.setAnswer id answer = match s.position? id with
      | none => .error (.unknownField id)
      | some index => .ok { s with controls := s.controls.modify index ({ · with answer }) } := by
  unfold setAnswer putAnswer
  cases s.position? id <;> rfl

/-- An answer in JSON is taken by a field that there is, if it suits the field. -/
theorem setValue_eq (s : FormState) (id : String) (j : Json) :
    s.setValue id j = match s.control? id with
      | none => .error (.unknownField id)
      | some control => (Control.answerOf control.field j).bind fun answer =>
        s.setAnswer id answer := by
  unfold setValue putValue
  cases s.control? id with
  | none => rfl
  | some control =>
    simp only
    cases Control.answerOf control.field j <;> rfl

/-- A form beside the outcome of a call: the form that the call gives, or the one that it was made
on if it is refused. -/
def afterCall (s : FormState) : Except FormError FormState → FormState × Except FormError Unit
  | .ok t => (t, .ok ())
  | .error e => (s, .error e)

theorem afterCall_of_error {s : FormState} {outcome : Except FormError FormState} {e : FormError}
    (refused : (s.afterCall outcome).2 = .error e) : (s.afterCall outcome).1 = s := by
  cases outcome with
  | error _ => rfl
  | ok t => cases refused

theorem putAnswer_eq (s : FormState) (id : String) (answer : Answer) :
    s.putAnswer id answer = s.afterCall (s.setAnswer id answer) := by
  unfold setAnswer putAnswer
  cases s.position? id <;> rfl

/-- Neither an unknown field nor an answer that does not suit its field leaves a trace in the
form. -/
theorem putValue_eq (s : FormState) (id : String) (j : Json) :
    s.putValue id j = s.afterCall (s.setValue id j) := by
  unfold setValue putValue
  cases s.control? id with
  | none => rfl
  | some control =>
    simp only
    cases Control.answerOf control.field j with
    | error e => rfl
    | ok answer => exact putAnswer_eq s id answer

theorem setAnswer_ok {s t : FormState} {id : String} {answer : Answer}
    (taken : s.setAnswer id answer = .ok t) :
    t.policy = s.policy ∧ List.Forall₂ Control.SameButAnswer s.controls t.controls := by
  rw [setAnswer_eq] at taken
  split at taken
  · cases taken
  · next k _ =>
    cases taken
    exact ⟨rfl, Control.sameButAnswer_modify s.controls k answer⟩

theorem setValue_ok {s t : FormState} {id : String} {j : Json} :
    s.setValue id j = .ok t ↔
      ∃ c answer, s.control? id = some c ∧ Control.answerOf c.field j = .ok answer ∧
        s.setAnswer id answer = .ok t := by
  rw [setValue_eq]
  constructor
  · intro taken
    cases found : s.control? id with
    | none =>
      rw [found] at taken
      cases taken
    | some c =>
      rw [found] at taken
      obtain ⟨answer, decoded, taken⟩ := Outcome.bind_eq_ok_iff.mp taken
      exact ⟨c, answer, rfl, decoded, taken⟩
  · rintro ⟨c, answer, found, decoded, taken⟩
    rw [found]
    exact Outcome.bind_eq_ok_iff.mpr ⟨answer, decoded, taken⟩

/-- Puts several answers in JSON into a form, one after the other. -/
def setValues (s : FormState) (entries : List Json.Member) : Except FormError FormState :=
  entries.foldlM (fun state (id, value) => state.setValue id value) s

theorem setValues_cons_ok {s t : FormState} {id : String} {j : Json} {rest : List Json.Member} :
    s.setValues ((id, j) :: rest) = .ok t ↔
      ∃ next, s.setValue id j = .ok next ∧ next.setValues rest = .ok t := by
  simp only [setValues, List.foldlM_cons, Outcome.bind_eq_ok_iff]

theorem setValues_ok {s t : FormState} {entries : List Json.Member}
    (taken : s.setValues entries = .ok t) :
    t.policy = s.policy ∧ List.Forall₂ Control.SameButAnswer s.controls t.controls := by
  induction entries generalizing s with
  | nil =>
    cases taken
    exact ⟨rfl, Control.sameButAnswers_refl _⟩
  | cons entry rest ih =>
    obtain ⟨next, first, others⟩ := setValues_cons_ok.mp taken
    obtain ⟨_, _, _, _, first⟩ := setValue_ok.mp first
    obtain ⟨policyFirst, answeredFirst⟩ := setAnswer_ok first
    obtain ⟨policyRest, answeredRest⟩ := ih others
    exact ⟨policyRest.trans policyFirst, Control.sameButAnswers_trans answeredFirst answeredRest⟩

theorem ofAnswers_ok {spec : FormSpec} {answers : Json} {t : FormState} :
    FormState.ofAnswers spec answers = .ok t ↔
      ∃ first, FormState.ofSpec spec = .ok first ∧ first.setValues answers.entries = .ok t := by
  simp only [ofAnswers, setValues, Outcome.bind_eq_ok_iff]

theorem ofSpec_ok {spec : FormSpec} {s : FormState} :
    FormState.ofSpec spec = .ok s ↔
      Control.ofFields [] spec.fields = .ok s.controls ∧ s.policy = spec.policy := by
  simp only [ofSpec, Outcome.bind_eq_ok_iff]
  constructor
  · rintro ⟨controls, setUp, opened⟩
    cases opened
    exact ⟨setUp, rfl⟩
  · rintro ⟨setUp, samePolicy⟩
    refine ⟨s.controls, setUp, ?_⟩
    rw [← samePolicy]
    rfl

/-! ## What all reachable states have in common -/

/-- The controls are the fields of the definition, and a field whose rule is faulty is shown as it
was at first. -/
structure Kept (spec : FormSpec) (s : FormState) : Prop where
  opens : ∃ first, FormState.ofSpec spec = .ok first
  fields : s.controls.map Control.field = spec.fields
  failing : ∀ k (c : Control), s.controls[k]? = some c →
    (c.field.rule.failure? (spec.fields.map Field.id) k).isSome → c = c.fresh

namespace Kept

variable {spec : FormSpec} {s t : FormState}

theorem ids (kept : Kept spec s) : s.controls.map Control.id = spec.fields.map Field.id := by
  rw [← kept.fields, List.map_map]
  rfl

theorem distinct (kept : Kept spec s) : (s.controls.map Control.id).Nodup := by
  obtain ⟨first, opened⟩ := kept.opens
  rw [kept.ids]
  exact (Control.ofFields_ok (ofSpec_ok.mp opened).1).2.2.1

theorem ofSpec (opened : FormState.ofSpec spec = .ok s) : Kept spec s := by
  obtain ⟨sameFields, untouched, _⟩ := Control.ofFields_ok (ofSpec_ok.mp opened).1
  refine ⟨⟨s, opened⟩, sameFields, ?_⟩
  intro k c found _
  exact untouched c (List.mem_of_getElem? found)

/-- Answers show nothing differently. -/
theorem sameButAnswers (kept : Kept spec s)
    (answered : List.Forall₂ Control.SameButAnswer s.controls t.controls) : Kept spec t := by
  refine ⟨kept.opens, ?_, ?_⟩
  · exact (Control.fields_of_sameButAnswers answered).trans kept.fields
  · intro k d foundAfter fails
    obtain ⟨c, foundBefore, answer, rfl⟩ := Control.sameButAnswer_at answered foundAfter
    rw [kept.failing k c foundBefore fails]
    rfl

theorem setAnswer {id : String} {answer : Answer} (kept : Kept spec s)
    (taken : s.setAnswer id answer = .ok t) : Kept spec t :=
  kept.sameButAnswers (setAnswer_ok taken).2

theorem setValue {id : String} {j : Json} (kept : Kept spec s) (taken : s.setValue id j = .ok t) :
    Kept spec t := by
  obtain ⟨_, _, _, _, taken⟩ := setValue_ok.mp taken
  exact kept.setAnswer taken

theorem ofAnswers {answers : Json} (opened : FormState.ofAnswers spec answers = .ok s) :
    Kept spec s := by
  obtain ⟨first, opened, taken⟩ := ofAnswers_ok.mp opened
  exact (Kept.ofSpec opened).sameButAnswers (setValues_ok taken).2

/-- A field whose rule is faulty fails, and stays as it was. -/
theorem refreshed (kept : Kept spec s) : Kept spec s.refreshed := by
  have solves := s.refreshed_solves
  refine ⟨kept.opens, solves.fields.trans kept.fields, ?_⟩
  intro k d foundAfter fails
  rw [solves.getElem? k] at foundAfter
  obtain ⟨c, foundBefore, rfl⟩ := Option.map_eq_some_iff.mp foundAfter
  rw [Control.settleAt, Control.settle_field] at fails
  have failed := Rule.errorOf?_evaluate_some s.refreshed.controls k c.field.rule
  rw [solves.ids, kept.ids] at failed
  rw [← failed] at fails
  obtain ⟨e, error⟩ := Option.isSome_iff_exists.mp fails
  rw [Control.settleAt, errorOf?_eq_some_iff.mp error]
  rw [error] at failed
  exact kept.failing k c foundBefore (by rw [← failed]; rfl)

theorem refreshed_ids (kept : Kept spec s) :
    s.refreshed.controls.map Control.id = spec.fields.map Field.id :=
  kept.refreshed.ids

/-- What a pass finds for the fields of the form. -/
theorem found (kept : Kept spec s) (index : Nat) :
    s.refresh.2.fields[index]? = spec.fields[index]?.map fun f =>
      ⟨f.id, f.label, f.hasRule, f.rule.evaluate s.refreshed.controls (some index)⟩ := by
  rw [← kept.fields, refresh_report, List.getElem?_mapIdx, List.getElem?_map, Option.map_map]
  rfl

theorem found_field (kept : Kept spec s) {index : Nat} {f : Field}
    (found : spec.fields[index]? = some f) :
    s.refresh.2.fields[index]? = some
      ⟨f.id, f.label, f.hasRule, f.rule.evaluate s.refreshed.controls (some index)⟩ := by
  rw [kept.found, found, Option.map_some]

end Kept

theorem Reachable.kept {spec : FormSpec} {s : FormState} (reached : Reachable spec s) :
    Kept spec s := by
  induction reached with
  | ofSpec opened => exact .ofSpec opened
  | ofAnswers opened => exact .ofAnswers opened
  | setAnswer _ taken ih => exact ih.setAnswer taken
  | setValue _ taken ih => exact ih.setValue taken
  | setPolicy policy _ ih => exact ⟨ih.opens, ih.fields, ih.failing⟩
  | refresh _ ih => exact ih.refreshed

/-- What holds of the controls of a form as it is opened, and is kept by answers and by passes, holds
in every reachable state. -/
theorem Reachable.invariant {spec : FormSpec} {s : FormState} (reached : Reachable spec s)
    (holds : List Control → Prop)
    (opening : ∀ first, FormState.ofSpec spec = .ok first → holds first.controls)
    (answering : ∀ cs ds, List.Forall₂ Control.SameButAnswer cs ds → holds cs → holds ds)
    (passing : ∀ t, Kept spec t → holds t.controls → holds t.refreshed.controls) :
    holds s.controls := by
  induction reached with
  | ofSpec opened => exact opening _ opened
  | ofAnswers filled =>
    obtain ⟨first, opened, taken⟩ := ofAnswers_ok.mp filled
    exact answering _ _ (setValues_ok taken).2 (opening first opened)
  | setAnswer _ taken ih => exact answering _ _ (setAnswer_ok taken).2 ih
  | setValue _ taken ih =>
    obtain ⟨_, _, _, _, taken⟩ := setValue_ok.mp taken
    exact answering _ _ (setAnswer_ok taken).2 ih
  | setPolicy policy _ ih => exact ih
  | refresh reached ih => exact passing _ reached.kept ih

theorem Reachable.consistent {spec : FormSpec} {s : FormState} (reached : Reachable spec s) :
    ∀ c ∈ s.controls, c.Consistent := by
  apply reached.invariant fun controls => ∀ c ∈ controls, c.Consistent
  · intro first opened c member
    rw [(Control.ofFields_ok (ofSpec_ok.mp opened).1).2.1 c member]
    exact c.consistent_fresh
  · intro cs ds same
    exact Control.Consistent.sameButAnswers same
  · intro t _ consistent d member
    rw [t.refreshed_solves] at member
    obtain ⟨k, bound, rfl⟩ := List.mem_mapIdx.mp member
    exact (consistent _ (List.getElem_mem bound)).settle _

/-! ## Passes do not remember -/

/-- The state with its answers, shown as before any pass. -/
def fresh (s : FormState) : FormState :=
  { s with controls := s.controls.map Control.fresh }

/-- A pass leaves the same, whatever earlier passes have left. -/
theorem Kept.refreshed_eq_fresh {spec : FormSpec} {s : FormState} (kept : Kept spec s) :
    s.refreshed = s.fresh.refreshed := by
  have solves := s.refreshed_solves
  apply eq_refreshed
  · apply List.ext_getElem?
    intro k
    rw [solves.getElem? k, List.getElem?_mapIdx, fresh, List.getElem?_map]
    cases found : s.controls[k]? with
    | none => rfl
    | some c =>
      simp only [Option.map_some, Control.settleAt, Control.fresh_field]
      rw [Control.settle_fresh]
      rw [Rule.errorOf?_evaluate_some, solves.ids, kept.ids]
      exact kept.failing k c found
  · rfl

end FormState

end FormLogic
