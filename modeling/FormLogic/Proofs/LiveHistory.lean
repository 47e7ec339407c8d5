import FormLogic.Form.Live
import FormLogic.Proofs.Answers

/-!
# Histories of live forms

A live form has seen inputs, ticks and passes in some order. Once no pass is pending, what it shows
is what a single pass makes of a form that is opened anew with the answers on screen; and each
report on the way is the report of such a single pass.
-/

namespace FormLogic

namespace FormState

/-! ## Forms opened anew -/

/-- Opens a form and puts the answers of some controls into it, one after the other. -/
def refill (spec : FormSpec) (controls : List Control) : Except FormError FormState := do
  controls.foldlM (fun s c => s.setAnswer c.id c.answer) (← FormState.ofSpec spec)

theorem setAnswer_append {done todo : List Control} {c : Control} {policy : Policy}
    {answer : Answer} (distinct : ((done ++ c :: todo).map Control.id).Nodup) :
    FormState.setAnswer ⟨done ++ c :: todo, policy⟩ c.id answer =
      .ok ⟨done ++ { c with answer } :: todo, policy⟩ := by
  have atC : (done ++ c :: todo)[done.length]? = some c := by
    rw [List.getElem?_append_right (Nat.le_refl _), Nat.sub_self]
    rfl
  have found : FormState.position? ⟨done ++ c :: todo, policy⟩ c.id = some done.length :=
    Control.position?_of_getElem? distinct atC
  simp only [setAnswer_eq, found]
  rw [List.modify_eq_take_cons_drop (by simp)]
  simp

/-- The controls up to a point are filled in, the others are still as they are set up. -/
theorem foldlM_setAnswer (done todo live : List Control) (policy : Policy)
    (sameFields : todo.map Control.field = live.map Control.field)
    (untouched : ∀ c ∈ todo, c = c.fresh) (distinct : ((done ++ todo).map Control.id).Nodup) :
    live.foldlM (fun s c => s.setAnswer c.id c.answer) (FormState.mk (done ++ todo) policy) =
      .ok ⟨done ++ live.map Control.fresh, policy⟩ := by
  induction live generalizing done todo with
  | nil =>
    rw [List.map_nil, List.map_eq_nil_iff] at sameFields
    rw [sameFields]
    rfl
  | cons l live ih =>
    cases todo with
    | nil => cases sameFields
    | cons c todo =>
      rw [List.map_cons, List.map_cons, List.cons.injEq] at sameFields
      obtain ⟨sameField, sameFields⟩ := sameFields
      have sameId : l.id = c.id := congrArg Field.id sameField.symm
      have filled : { c with answer := l.answer } = l.fresh := by
        rw [untouched c List.mem_cons_self]
        simp only [Control.fresh, sameField]
      have sameIds : ((done ++ [l.fresh]) ++ todo).map Control.id =
          (done ++ c :: todo).map Control.id := by
        simp [sameId]
      rw [List.foldlM_cons, sameId, setAnswer_append distinct, filled]
      have rest := ih (done ++ [l.fresh]) todo sameFields
        (fun d member => untouched d (List.mem_cons_of_mem _ member)) (sameIds ▸ distinct)
      rw [List.append_assoc, List.append_assoc] at rest
      exact rest

/-- Opening a form anew with the answers of a state gives that state before any pass. -/
theorem Kept.refill {spec : FormSpec} {s : FormState} (kept : Kept spec s)
    (policy : s.policy = spec.policy) : FormState.refill spec s.controls = .ok s.fresh := by
  obtain ⟨first, opened⟩ := kept.opens
  obtain ⟨setUp, firstPolicy⟩ := ofSpec_ok.mp opened
  obtain ⟨firstFields, untouched, _⟩ := Control.ofFields_ok setUp
  have filled := foldlM_setAnswer [] first.controls s.controls first.policy
    (firstFields.trans kept.fields.symm) untouched (Kept.ofSpec opened).distinct
  have samePolicy : first.policy = s.policy := firstPolicy.trans policy.symm
  rw [FormState.refill, opened, FormState.fresh, ← samePolicy]
  exact filled

end FormState

namespace LiveForm

/-! ## Single steps -/

/-- The form after the pass that was pending. -/
def passed (l : LiveForm) : LiveForm :=
  ⟨l.state.refreshed, l.debouncer.cancel, l.passes + 1⟩

theorem tick_of_due {l : LiveForm} {now : Nat} (due : l.debouncer.isDue now = true) :
    l.tick now = (l.passed, some l.state.refresh.2) := by
  unfold tick Debouncer.fire
  rw [if_pos due]
  rfl

theorem tick_of_early {l : LiveForm} {now : Nat} (early : l.debouncer.isDue now = false) :
    l.tick now = (l, none) := by
  unfold tick Debouncer.fire
  rw [early]
  rfl

theorem flush_of_pending {l : LiveForm} (pending : l.debouncer.isPending = true) :
    l.flush = (l.passed, some l.state.refresh.2) := by
  unfold flush
  rw [if_pos pending]
  rfl

theorem flush_of_quiet {l : LiveForm} (quiet : l.debouncer.isPending = false) :
    l.flush = (l, none) := by
  unfold flush
  rw [quiet]
  rfl

/-- A form on screen beside the outcome of an attempt to put in an answer: one that is refused leaves
the form as it is, and asks for no pass. -/
def afterCall (l : LiveForm) (now : Nat) :
    Except FormError FormState → LiveForm × Except FormError Unit
  | .ok state => (l.changed state now, .ok ())
  | .error error => (l, .error error)

theorem input_eq (l : LiveForm) (field : String) (answer : Answer) (now : Nat) :
    l.input field answer now = l.afterCall now (l.state.setAnswer field answer) := by
  rw [input, FormState.putAnswer_eq]
  cases l.state.setAnswer field answer <;> rfl

theorem apply_eq (l : LiveForm) (input : FieldInput) (now : Nat) :
    l.apply input now = l.afterCall now (l.state.setValue input.field input.value) := by
  rw [apply, FormState.putValue_eq]
  cases l.state.setValue input.field input.value <;> rfl

/-- All that an event can do. -/
inductive Stepped (l : LiveForm) : Event → LiveForm × Response → Prop where
  | input {field : String} {answer : Answer} {now : Nat} {state : FormState}
      (taken : l.state.setAnswer field answer = .ok state) :
      Stepped l (.input field answer now) (l.changed state now, .taken)
  | refusedInput {field : String} {answer : Answer} {now : Nat} {error : FormError}
      (refused : l.state.setAnswer field answer = .error error) :
      Stepped l (.input field answer now) (l, .refused error)
  | apply {input : FieldInput} {now : Nat} {state : FormState}
      (taken : l.state.setValue input.field input.value = .ok state) :
      Stepped l (.apply input now) (l.changed state now, .taken)
  | refusedApply {input : FieldInput} {now : Nat} {error : FormError}
      (refused : l.state.setValue input.field input.value = .error error) :
      Stepped l (.apply input now) (l, .refused error)
  | dueTick {now : Nat} (due : l.debouncer.isDue now = true) :
      Stepped l (.tick now) (l.passed, .passed l.state.refresh.2)
  | earlyTick {now : Nat} (early : l.debouncer.isDue now = false) :
      Stepped l (.tick now) (l, .idle)
  | flush (pending : l.debouncer.isPending = true) :
      Stepped l .flush (l.passed, .passed l.state.refresh.2)
  | idleFlush (quiet : l.debouncer.isPending = false) : Stepped l .flush (l, .idle)

theorem stepped (l : LiveForm) (event : Event) : Stepped l event (l.step event) := by
  cases event with
  | input field answer now =>
    simp only [step, input_eq]
    cases taken : l.state.setAnswer field answer with
    | error e => exact .refusedInput taken
    | ok state => exact .input taken
  | apply input now =>
    simp only [step, apply_eq]
    cases taken : l.state.setValue input.field input.value with
    | error e => exact .refusedApply taken
    | ok state => exact .apply taken
  | tick now =>
    by_cases due : l.debouncer.isDue now = true
    · simp only [step, tick_of_due due]
      exact .dueTick due
    · rw [Bool.not_eq_true] at due
      simp only [step, tick_of_early due]
      exact .earlyTick due
  | flush =>
    by_cases pending : l.debouncer.isPending = true
    · simp only [step, flush_of_pending pending]
      exact .flush pending
    · rw [Bool.not_eq_true] at pending
      simp only [step, flush_of_quiet pending]
      exact .idleFlush pending

/-! ## Answers on screen -/

/-- The answers on screen, each with the id of its field. -/
def answers (l : LiveForm) : List (String × Answer) :=
  l.state.controls.map fun c => (c.id, c.answer)

/-- The answer that an event brings, and the field that it is for. -/
def given? (l : LiveForm) : Event → Option (String × Answer)
  | .input field answer _ => some (field, answer)
  | .apply input _ => do
    let c ← l.state.control? input.field
    let answer ← (Control.answerOf c.field input.value).toOption
    return (input.field, answer)
  | .tick _ | .flush => none

/-- What becomes of the answers with an event: an input that is taken replaces the one of its field
and has a pass pending, and nothing else changes them. -/
def Answered (l : LiveForm) (event : Event) (next : LiveForm) : Response → Prop
  | .taken => next.debouncer.deadline? ≠ none ∧
      ∃ id answer, l.given? event = some (id, answer) ∧
        next.answers = l.answers.map fun entry => if entry.1 = id then (id, answer) else entry
  | .refused _ | .passed _ | .idle => next.answers = l.answers

theorem answers_changed {l : LiveForm} {state : FormState} {id : String} {answer : Answer}
    (distinct : (l.state.controls.map Control.id).Nodup)
    (taken : l.state.setAnswer id answer = .ok state) (now : Nat) :
    (l.changed state now).answers =
      l.answers.map fun entry => if entry.1 = id then (id, answer) else entry := by
  have filled := FormState.setAnswer_controls distinct taken
  simp only [answers, changed, filled, List.map_map]
  apply List.map_congr_left
  intro c _
  by_cases same : c.id = id
  · subst same
    simp [Control.id]
  · simp [same]

theorem given?_apply {l : LiveForm} {input : FieldInput} {now : Nat} {c : Control} {answer : Answer}
    (found : l.state.control? input.field = some c)
    (decoded : Control.answerOf c.field input.value = .ok answer) :
    l.given? (.apply input now) = some (input.field, answer) := by
  rw [given?, found]
  simp only [Option.bind_eq_bind, Option.bind_some, decoded]
  rfl

theorem answers_passed (l : LiveForm) : l.passed.answers = l.answers := by
  apply List.ext_getElem?
  intro k
  simp only [answers, passed, List.getElem?_map]
  rw [l.state.refreshed_solves.getElem? k, Option.map_map]
  congr 1
  funext c
  simp only [Function.comp_apply, Control.settleAt, Control.settle_id, Control.settle_answer]

/-! ## Histories -/

/-- The form after some events. -/
def after (l : LiveForm) (events : List Event) : LiveForm :=
  events.foldl (fun l event => (l.step event).1) l

/-- The two ways for a form to get on screen, under any clock, with the report of the first pass. -/
inductive Loaded (spec : FormSpec) : LiveForm → Report → Prop where
  | ofSpec {l : LiveForm} {report : Report} {millisecond : Nat}
      (loaded : LiveForm.ofSpec spec millisecond = .ok (l, report)) : Loaded spec l report
  | ofAnswers {answers : Json} {s : FormState} {millisecond : Nat}
      (opened : FormState.ofAnswers spec answers = .ok s) :
      Loaded spec (LiveForm.ofState s millisecond).1 (LiveForm.ofState s millisecond).2

/-- What one pass makes of a form that is opened anew with the answers on screen. -/
def inOnePass (spec : FormSpec) (l : LiveForm) : Except FormError (FormState × Report) :=
  return (← FormState.refill spec l.state.controls).refresh

/-- What holds throughout a history: if no pass is pending, another pass would change nothing. -/
structure Follows (spec : FormSpec) (l : LiveForm) : Prop where
  kept : FormState.Kept spec l.state
  policy : l.state.policy = spec.policy
  settled : l.debouncer.deadline? = none → l.state.refreshed = l.state

namespace Follows

variable {spec : FormSpec} {l : LiveForm}

theorem changed {state : FormState} {id : String} {answer : Answer} (follows : Follows spec l)
    (taken : l.state.setAnswer id answer = .ok state) (now : Nat) :
    Follows spec (l.changed state now) where
  kept := follows.kept.setAnswer taken
  policy := (FormState.setAnswer_ok taken).1.trans follows.policy
  settled quiet := by cases quiet

theorem passed (follows : Follows spec l) : Follows spec l.passed where
  kept := follows.kept.refreshed
  policy := follows.policy
  settled _ := l.state.refreshed_refreshed

theorem step (follows : Follows spec l) (event : Event) : Follows spec (l.step event).1 := by
  have stepped := l.stepped event
  generalize l.step event = next at stepped
  cases stepped with
  | input taken => exact follows.changed taken _
  | apply taken =>
    obtain ⟨_, _, _, _, taken⟩ := FormState.setValue_ok.mp taken
    exact follows.changed taken _
  | dueTick due => exact follows.passed
  | flush pending => exact follows.passed
  | _ => exact follows

theorem after (follows : Follows spec l) (events : List Event) :
    Follows spec (l.after events) := by
  induction events generalizing l with
  | nil => exact follows
  | cons event rest ih => exact ih (follows.step event)

/-- The single pass over a form opened anew is the pass over the form on screen. -/
theorem inOnePass (follows : Follows spec l) : l.inOnePass spec = .ok l.state.refresh := by
  rw [LiveForm.inOnePass, follows.kept.refill follows.policy]
  have sameState := follows.kept.refreshed_eq_fresh
  rw [FormState.refresh_eq_of_refreshed_eq sameState]
  rfl

theorem answers_step (follows : Follows spec l) {event : Event} {next : LiveForm}
    {response : Response} (happened : l.step event = (next, response)) :
    l.Answered event next response := by
  have stepped := l.stepped event
  rw [happened] at stepped
  cases stepped with
  | input taken =>
    exact ⟨Option.some_ne_none _, _, _, rfl, answers_changed follows.kept.distinct taken _⟩
  | apply taken =>
    obtain ⟨c, answer, found, decoded, taken⟩ := FormState.setValue_ok.mp taken
    exact ⟨Option.some_ne_none _, _, _, given?_apply found decoded,
      answers_changed follows.kept.distinct taken _⟩
  | dueTick due => exact answers_passed l
  | flush pending => exact answers_passed l
  | _ => rfl

end Follows

/-- A form on screen starts with a pass over the state that it is given. -/
theorem follows_ofState {spec : FormSpec} {s : FormState} {millisecond : Nat}
    (kept : FormState.Kept spec s) (policy : s.policy = spec.policy) :
    Follows spec (ofState s millisecond).1 where
  kept := kept.refreshed
  policy := policy
  settled _ := s.refreshed_refreshed

theorem Loaded.follows {spec : FormSpec} {l : LiveForm} {report : Report}
    (loaded : Loaded spec l report) :
    Follows spec l ∧ l.state.refresh = (l.state, report) := by
  cases loaded with
  | ofSpec loaded =>
    simp only [LiveForm.ofSpec] at loaded
    cases opened : FormState.ofSpec spec with
    | error e =>
      rw [opened] at loaded
      cases loaded
    | ok s =>
      rw [opened] at loaded
      cases loaded
      have policy := (FormState.ofSpec_ok.mp opened).2
      exact ⟨follows_ofState (.ofSpec opened) policy, FormState.refresh_refreshed s⟩
  | @ofAnswers answers s _ opened =>
    obtain ⟨first, openedFirst, taken⟩ := FormState.ofAnswers_ok.mp opened
    have policy : s.policy = spec.policy :=
      (FormState.setValues_ok taken).1.trans (FormState.ofSpec_ok.mp openedFirst).2
    exact ⟨follows_ofState (.ofAnswers opened) policy, FormState.refresh_refreshed s⟩

/-- Whatever has happened to a form on screen, once nothing is pending it shows what a single pass
makes of the form opened anew with its answers, and every report, the first one included, is the
report of that single pass. The answers are those of the inputs that have been taken. -/
theorem shows_inOnePass {spec : FormSpec} {start : LiveForm} {report : Report}
    (loaded : Loaded spec start report) (events : List Event) :
    start.inOnePass spec = .ok (start.state, report) ∧
    (∀ event next r, (start.after events).step event = (next, .passed r) →
      next.inOnePass spec = .ok (next.state, r)) ∧
    ((start.after events).debouncer.deadline? = none →
      ∃ r, (start.after events).inOnePass spec = .ok ((start.after events).state, r)) ∧
    (∀ event next response, (start.after events).step event = (next, response) →
      (start.after events).Answered event next response) := by
  obtain ⟨follows, first⟩ := loaded.follows
  have later : Follows spec (start.after events) := follows.after events
  refine ⟨?_, ?_, ?_, ?_⟩
  · rw [follows.inOnePass, first]
  · intro event next r happened
    have followsNext : Follows spec next := by
      have stepped := later.step event
      rwa [happened] at stepped
    have stepped := (start.after events).stepped event
    rw [happened] at stepped
    rw [followsNext.inOnePass]
    cases stepped with
    | dueTick due => exact congrArg Except.ok (FormState.refresh_refreshed _)
    | flush pending => exact congrArg Except.ok (FormState.refresh_refreshed _)
  · intro quiet
    refine ⟨(start.after events).state.refresh.2, ?_⟩
    rw [later.inOnePass, FormState.refresh_eq, later.settled quiet]
  · intro event next response happened
    exact later.answers_step happened

/-- The clock goes back and an answer is refused on the way; one pass makes up for it all. -/
theorem travel_shows_inOnePass :
    ∃ start report, Loaded FormSpec.travel start report ∧
      ∃ last, last = start.after [.input "abroad" (.checked true) 1000,
        .apply ⟨"country", .string "Norway"⟩ 200, .tick 400, .input "visit" (.text "") 450,
        .tick 499, .tick 500] ∧
      last.passes = 2 ∧ last.debouncer.deadline? = none ∧
      last.state.visibility =
        [("abroad", true), ("country", true), ("visa", true), ("fee", true)] ∧
      ∃ r, last.inOnePass FormSpec.travel = .ok (last.state, r) := by
  refine ⟨_, _, @Loaded.ofSpec FormSpec.travel _ _ 1 rfl, _, rfl, by decide, by decide, by decide,
    ?_⟩
  exact (shows_inOnePass (@Loaded.ofSpec FormSpec.travel _ _ 1 rfl) _).2.2.1 (by decide)

end LiveForm

end FormLogic
