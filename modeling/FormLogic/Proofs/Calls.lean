import FormLogic.Proofs.CheckedPass

/-!
# What any sequence of calls keeps

A form is opened, with answers or without, and then called on in any order: answers are put in, as
JSON or as they are, whether or not they suit the widget; the policy is changed; passes are made. A
call that fails leaves the form as it is. Whatever the calls, the form stays in a state in which
passes need no checks.
-/

namespace FormLogic.FormState

variable {spec : FormSpec} {s : FormState}

/-! ## Calls -/

/-- A form as it is opened. -/
inductive Opened (spec : FormSpec) (s : FormState) : Prop where
  | ofSpec (opened : FormState.ofSpec spec = .ok s)
  | ofAnswers {answers : Json} (opened : FormState.ofAnswers spec answers = .ok s)

/-- A call that may change a form. -/
inductive Call where
  | setAnswer (id : String) (answer : Answer)
  | setValue (id : String) (j : Json)
  | setPolicy (policy : Policy)
  | refresh

/-- The form that a call leaves. -/
def perform (s : FormState) : Call → FormState
  | .setAnswer id answer => (s.putAnswer id answer).1
  | .setValue id j => (s.putValue id j).1
  | .setPolicy policy => s.setPolicy policy
  | .refresh => s.refreshed

theorem Opened.reachable (opened : Opened spec s) : Reachable spec s := by
  cases opened with
  | ofSpec opened => exact .ofSpec opened
  | ofAnswers opened => exact .ofAnswers opened

theorem Reachable.perform (reached : Reachable spec s) (call : Call) :
    Reachable spec (s.perform call) := by
  cases call with
  | setAnswer id answer =>
    rw [FormState.perform, putAnswer_eq]
    cases taken : s.setAnswer id answer with
    | error e => exact reached
    | ok t => exact reached.setAnswer taken
  | setValue id j =>
    rw [FormState.perform, putValue_eq]
    cases taken : s.setValue id j with
    | error e => exact reached
    | ok t => exact reached.setValue taken
  | setPolicy policy => exact reached.setPolicy policy
  | refresh => exact reached.refresh

/-- By induction on the calls. -/
theorem Reachable.foldl_perform (reached : Reachable spec s) (calls : List Call) :
    Reachable spec (calls.foldl FormState.perform s) := by
  induction calls generalizing s with
  | nil => exact reached
  | cons call rest ih => exact ih (reached.perform call)

/-! ## Positions -/

/-- The table that is filled as a form is set up leads to the fields in every state. -/
theorem Kept.lookup_table (kept : Kept spec s) {m : Memory} (set : Memory.ofSpec spec = .ok m)
    (id : String) : m.table.lookup id = s.position? id := by
  obtain ⟨sameState, indexed⟩ := Memory.ofSpec_eq spec
  rw [set] at sameState
  have opened : FormState.ofSpec spec = .ok ⟨m.controls, spec.policy⟩ := sameState.symm
  rw [indexed m set id]
  apply Control.position?_congr
  rw [kept.ids, ← (Kept.ofSpec opened).ids]

theorem Kept.position?_eq_some_iff (kept : Kept spec s) {id : String} {i : Nat} :
    s.position? id = some i ↔ ∃ c, s.controls[i]? = some c ∧ c.id = id := by
  constructor
  · exact Control.getElem?_of_position?
  · rintro ⟨c, found, rfl⟩
    exact Control.position?_of_getElem? kept.distinct found

/-! ## Room for levels -/

/-- The controls of a form with fewer than 2³² fields can be read without a check. -/
theorem Reachable.readable (reached : Reachable spec s) (few : spec.fields.length < 2 ^ 32)
    {m : Memory} (set : Memory.ofSpec spec = .ok m) : Readable m.table s.controls where
  lookup := reached.kept.lookup_table set
  room c member := by
    obtain ⟨i, found⟩ := List.mem_iff_getElem?.mp member
    have level := reached.leveled i c found
    have bound := (List.getElem?_eq_some_iff.mp found).1
    have count : s.controls.length = spec.fields.length := by
      rw [← reached.kept.fields, List.length_map]
    omega

theorem Reachable.refreshChecked_eq (reached : Reachable spec s)
    (few : spec.fields.length < 2 ^ 32) {m : Memory} (set : Memory.ofSpec spec = .ok m) :
    s.refreshChecked m.table = .ok s.refresh := by
  obtain ⟨pass, passed, halfway⟩ := Halfway.foldlM (reached.readable few set)
    (reached.refresh.readable few set) s.controls.length (Nat.le_refl _)
  have sameLength : s.refreshed.controls.length = s.controls.length := by
    rw [s.refreshed_solves, List.length_mapIdx]
  have controls : pass.1 = s.refreshed.controls := by
    apply List.ext_getElem?
    intro j
    rw [halfway.controls j]
    split
    · rfl
    · next beyond =>
      rw [List.getElem?_eq_none (by omega), List.getElem?_eq_none (by omega)]
  have outcomes : pass.2 = s.refresh.2.fields := by
    rw [halfway.outcomes, refresh_report,
      List.take_of_length_le (Nat.le_of_eq List.length_mapIdx)]
  rw [refreshChecked, passed, Outcome.ok_bind, controls, outcomes]
  rfl

/-! ## The state after any calls -/

/-- A form that has been opened can be set up in memory. -/
theorem Opened.exists_memory (opened : Opened spec s) : ∃ m, Memory.ofSpec spec = .ok m := by
  have first : ∃ first, FormState.ofSpec spec = .ok first := by
    cases opened with
    | ofSpec opened => exact ⟨s, opened⟩
    | ofAnswers opened =>
      obtain ⟨first, opened, _⟩ := ofAnswers_ok.mp opened
      exact ⟨first, opened⟩
  obtain ⟨first, opened⟩ := first
  rw [← (Memory.ofSpec_eq spec).1] at opened
  obtain ⟨m, set, _⟩ := Outcome.map_eq_ok_iff.mp opened
  exact ⟨m, set⟩

/-- After any calls the controls are those of the declared fields in their order, under distinct ids
that lead to their positions; each is hidden if it is not active, asks for an answer only while it
is active, and is indented no further than its position; and one without a rule, or with a rule that
fails, is active and not indented. An answer that is refused leaves the form as it is. The table of
positions that is filled as the form is set up still leads to the fields. With fewer than 2³²
fields, levels never run out of room, and no evaluation or pass that looks targets up in this table
reads where there is no control. -/
theorem calls_keep {start : FormState} (opened : Opened spec start) (calls : List Call) :
    let s := calls.foldl FormState.perform start
    s.controls.map Control.field = spec.fields ∧
    (s.controls.map Control.id).Nodup ∧
    (∀ id i, s.position? id = some i ↔ ∃ c, s.controls[i]? = some c ∧ c.id = id) ∧
    (∀ (i : Nat) (c : Control), s.controls[i]? = some c →
      c.hidden = !c.active ∧ c.required = (c.field.required && c.active) ∧ c.indent ≤ i ∧
      (c.field.rule = .empty ∨ (∃ e, c.field.rule.evaluate s.controls (some i) = .error e) →
        c.active = true ∧ c.indent = 0)) ∧
    (∀ id answer e, (s.putAnswer id answer).2 = .error e → (s.putAnswer id answer).1 = s) ∧
    (∀ id j e, (s.putValue id j).2 = .error e → (s.putValue id j).1 = s) ∧
    ∃ m, Memory.ofSpec spec = .ok m ∧ (∀ id, m.table.lookup id = s.position? id) ∧
      (spec.fields.length < 2 ^ 32 →
        (∀ (rule : Rule) (origin? : Option Nat),
          rule.evaluateChecked m.table s.controls origin? =
            .ok (rule.evaluate s.controls origin?)) ∧
        s.refreshChecked m.table = .ok s.refresh) := by
  intro s
  have reached : Reachable spec s := opened.reachable.foldl_perform calls
  have kept := reached.kept
  obtain ⟨m, set⟩ := opened.exists_memory
  refine ⟨kept.fields, kept.distinct, fun id i => kept.position?_eq_some_iff, ?_, ?_, ?_, m, set,
    kept.lookup_table set, ?_⟩
  · intro i c found
    have consistent := reached.consistent c (List.mem_of_getElem? found)
    refine ⟨consistent.hidden, consistent.required, reached.leveled i c found, ?_⟩
    rintro (noRule | ⟨e, fails⟩)
    · have plain := reached.plain_of_empty c (List.mem_of_getElem? found) noRule
      exact ⟨plain.active, plain.indent⟩
    · have plain := kept.plain_of_error found fails
      exact ⟨plain.active, plain.indent⟩
  · intro id answer e refused
    rw [putAnswer_eq] at refused ⊢
    exact afterCall_of_error refused
  · intro id j e refused
    rw [putValue_eq] at refused ⊢
    exact afterCall_of_error refused
  · intro few
    exact ⟨fun rule origin? => (reached.readable few set).rule_eq rule,
      reached.refreshChecked_eq few set⟩

/-- A tick in a text field and a word in a checkbox: the first is put in, the second is refused. The
field whose rule names no field stays in sight through the pass. -/
theorem travel_calls_keep :
    ∃ start, FormState.ofSpec FormSpec.travel = .ok start ∧
      ∃ s, s = [Call.setAnswer "country" (.checked true), .setValue "abroad" (.string "yes"),
        .setValue "abroad" (.bool true), .refresh].foldl FormState.perform start ∧
      s.controls.map Control.indent = [0, 1, 2, 0] ∧
      (∃ c, s.controls[3]? = some c ∧ c.active = true ∧ c.indent = 0) ∧
      ∃ m, Memory.ofSpec FormSpec.travel = .ok m ∧
        m.table = [("fee", 3), ("visa", 2), ("country", 1), ("abroad", 0)] ∧
        s.refreshChecked m.table = .ok s.refresh := by
  refine ⟨_, rfl, _, rfl, by decide, ?_⟩
  obtain ⟨_, _, position, controls, _, _, m, set, table, checked⟩ :=
    calls_keep (@Opened.ofSpec FormSpec.travel _ rfl)
      [.setAnswer "country" (.checked true), .setValue "abroad" (.string "yes"),
        .setValue "abroad" (.bool true), .refresh]
  have filled : m.table = [("fee", 3), ("visa", 2), ("country", 1), ("abroad", 0)] := by
    cases set
    rfl
  refine ⟨?_, m, set, filled, (checked (by decide)).2⟩
  obtain ⟨fee, found, _⟩ := (position "fee" 3).mp (by rw [← table, filled]; decide)
  have plain := (controls 3 fee found).2.2.2 (.inr ⟨.unresolvedTarget "price", ?_⟩)
  · exact ⟨fee, found, plain.1, plain.2⟩
  · cases found
    rfl

end FormLogic.FormState
