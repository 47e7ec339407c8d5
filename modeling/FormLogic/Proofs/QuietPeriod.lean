import FormLogic.Proofs.LiveHistory
import Mathlib.Data.List.Induction

/-!
# Quiet periods

A debouncer keeps one deadline, which is a delay after the latest event that asked for a pass and is
gone once the pass has been made. What it keeps can be read off the record of what has happened
(`latestSince`): step by step for a debouncer alone, and in the same way for a form on screen, where
the answers that are taken ask for a pass. From the deadline it follows when passes are made, how
many there are, and that an answer which is refused has no part in any of it.
-/

namespace FormLogic

/-! ## Records -/

/-- The latest moment that a record notes after the last entry that ends what came before it. -/
def latestSince {α : Type} (ends : α → Bool) (moment? : α → Option Nat) (record : List α) :
    Option Nat :=
  (record.reverse.takeWhile fun entry => !ends entry).findSome? moment?

section

variable {α : Type} {ends : α → Bool} {moment? : α → Option Nat} {record : List α} {entry : α}

theorem latestSince_of_ends (ending : ends entry = true) :
    latestSince ends moment? (record ++ [entry]) = none := by
  simp [latestSince, ending]

theorem latestSince_of_moment {now : Nat} (going : ends entry = false)
    (noted : moment? entry = some now) :
    latestSince ends moment? (record ++ [entry]) = some now := by
  simp [latestSince, going, noted]

theorem latestSince_of_other (going : ends entry = false) (nothing : moment? entry = none) :
    latestSince ends moment? (record ++ [entry]) = latestSince ends moment? record := by
  simp [latestSince, going, nothing]

end

/-! ## Debouncers -/

namespace Debouncer

/-- The debouncer after some events. -/
def after (d : Debouncer) (events : List Event) : Debouncer :=
  events.foldl (fun d event => (d.step event).1) d

/-- Some events, each with what came of it. -/
def record (d : Debouncer) : List Event → List (Event × Option Bool)
  | [] => []
  | event :: rest => (event, (d.step event).2) :: record (d.step event).1 rest

/-- Whether an entry leaves nothing pending: the deadline was cancelled, or had come. -/
def endsWait : Event × Option Bool → Bool
  | (.cancel, _) | (.fire _, some true) => true
  | _ => false

/-- When an entry set the deadline anew. -/
def scheduledAt? : Event × Option Bool → Option Nat
  | (.schedule now, _) => some now
  | _ => none

/-- When the deadline was last set that has neither been cancelled nor come. -/
def waitingSince? (record : List (Event × Option Bool)) : Option Nat :=
  latestSince endsWait scheduledAt? record

theorem after_concat (d : Debouncer) (events : List Event) (event : Event) :
    d.after (events ++ [event]) = ((d.after events).step event).1 := by
  rw [after, List.foldl_concat, ← after]

theorem record_concat (d : Debouncer) (events : List Event) (event : Event) :
    d.record (events ++ [event]) =
      d.record events ++ [(event, ((d.after events).step event).2)] := by
  induction events generalizing d with
  | nil => rfl
  | cons first rest ih => exact congrArg ((first, (d.step first).2) :: ·) (ih _)

theorem isDue_iff {d : Debouncer} {now : Nat} :
    d.isDue now = true ↔ ∃ deadline, d.deadline? = some deadline ∧ deadline ≤ now := by
  rw [isDue, Option.any_eq_true]
  simp only [decide_eq_true_eq]

theorem isPending_of_isDue {d : Debouncer} {now : Nat} (due : d.isDue now = true) :
    d.isPending = true := by
  obtain ⟨deadline, pending, _⟩ := isDue_iff.mp due
  rw [isPending, pending]
  rfl

theorem fire_of_due {d : Debouncer} {now : Nat} (due : d.isDue now = true) :
    d.fire now = (d.cancel, true) := by
  rw [fire, if_pos due]

theorem fire_of_early {d : Debouncer} {now : Nat} (early : d.isDue now = false) :
    d.fire now = (d, false) := by
  rw [fire, early, if_neg Bool.false_ne_true]

theorem fire_iff {d : Debouncer} {now : Nat} :
    (d.fire now).2 = true ↔ ∃ deadline, d.deadline? = some deadline ∧ deadline ≤ now := by
  rw [← isDue_iff]
  cases due : d.isDue now with
  | true => simp [fire_of_due due]
  | false => simp [fire_of_early due]

/-- A debouncer keeps its delay, and its deadline is a delay after the moment since which it
waits. By induction on events, one after the other: each entry of the record does to that moment
what its event does to the deadline. -/
theorem deadline_after (delay : Nat) (events : List Event) :
    ((ofDelay delay).after events).delay = delay ∧
      ((ofDelay delay).after events).deadline? =
        (waitingSince? ((ofDelay delay).record events)).map (· + delay) := by
  induction events using List.reverseRecOn with
  | nil => exact ⟨rfl, rfl⟩
  | append_singleton events event ih =>
    obtain ⟨sameDelay, pending⟩ := ih
    rw [record_concat, after_concat]
    generalize (ofDelay delay).after events = d at sameDelay pending
    generalize (ofDelay delay).record events = record at pending
    cases event with
    | schedule now =>
      have noted : scheduledAt? (.schedule now, none) = some now := rfl
      refine ⟨sameDelay, ?_⟩
      rw [waitingSince?, step, latestSince_of_moment rfl noted, schedule, sameDelay]
      rfl
    | cancel =>
      have ending : endsWait (.cancel, none) = true := rfl
      refine ⟨sameDelay, ?_⟩
      rw [waitingSince?, step, latestSince_of_ends ending]
      rfl
    | fire now =>
      cases due : d.isDue now with
      | true =>
        have ending : endsWait (.fire now, some true) = true := rfl
        rw [waitingSince?, step, fire_of_due due, latestSince_of_ends ending]
        exact ⟨sameDelay, rfl⟩
      | false =>
        have going : endsWait (.fire now, some false) = false := rfl
        rw [waitingSince?, step, fire_of_early due, latestSince_of_other going rfl]
        exact ⟨sameDelay, pending⟩

/-- The deadline has come if it was set, was neither cancelled nor noticed since, and the delay is
over. -/
theorem fire_after_iff (delay : Nat) (events : List Event) (now : Nat) :
    (((ofDelay delay).after events).fire now).2 = true ↔
      ∃ since, waitingSince? ((ofDelay delay).record events) = some since ∧
        since + delay ≤ now := by
  rw [fire_iff, (deadline_after delay events).2]
  simp only [Option.map_eq_some_iff, exists_exists_and_eq_and]

end Debouncer

/-! ## Forms on screen -/

namespace LiveForm

/-- An event in the life of a form, with what came of it and the form that it left. -/
structure Entry where
  event : Event
  response : Response
  next : LiveForm

namespace Entry

/-- Whether a pass was made. -/
def isPass (entry : Entry) : Bool :=
  match entry.response with
  | .passed _ => true
  | .taken | .refused _ | .idle => false

/-- Whether an answer was refused. -/
def isRefusal (entry : Entry) : Bool :=
  match entry.response with
  | .refused _ => true
  | .taken | .passed _ | .idle => false

/-- When an answer was taken. -/
def takenAt? (entry : Entry) : Option Nat :=
  match entry.event, entry.response with
  | .input _ _ now, .taken | .apply _ now, .taken => some now
  | _, _ => none

end Entry

/-- The life of a form through some events. -/
def history (l : LiveForm) : List Event → List Entry
  | [] => []
  | event :: rest => ⟨event, (l.step event).2, (l.step event).1⟩ :: history (l.step event).1 rest

/-- When the latest answer was taken that no pass has been made for. -/
def waitingSince? (history : List Entry) : Option Nat :=
  latestSince Entry.isPass Entry.takenAt? history

/-- The events of a life without the answers that were refused. -/
def withoutRefusals (history : List Entry) : List Event :=
  (history.filter fun entry => !entry.isRefusal).map Entry.event

theorem after_concat (l : LiveForm) (events : List Event) (event : Event) :
    l.after (events ++ [event]) = ((l.after events).step event).1 := by
  rw [after, List.foldl_concat, ← after]

theorem history_concat (l : LiveForm) (events : List Event) (event : Event) :
    l.history (events ++ [event]) = l.history events ++
      [⟨event, ((l.after events).step event).2, ((l.after events).step event).1⟩] := by
  induction events generalizing l with
  | nil => rfl
  | cons first rest ih =>
    exact congrArg (⟨first, (l.step first).2, (l.step first).1⟩ :: ·) (ih _)

/-- The history up to an entry is the history of the events up to there. -/
theorem history_prefix {l : LiveForm} {events : List Event} {before rest : List Entry}
    {entry : Entry} (split : l.history events = before ++ entry :: rest) :
    before = l.history (before.map Entry.event) ∧
      (l.after (before.map Entry.event)).step entry.event = (entry.next, entry.response) := by
  induction before generalizing l events with
  | nil =>
    cases events with
    | nil => cases split
    | cons event events =>
      rw [history, List.nil_append, List.cons.injEq] at split
      obtain ⟨rfl, _⟩ := split
      exact ⟨rfl, rfl⟩
  | cons first before ih =>
    cases events with
    | nil => cases split
    | cons event events =>
      rw [history, List.cons_append, List.cons.injEq] at split
      obtain ⟨rfl, split⟩ := split
      obtain ⟨same, happened⟩ := ih split
      exact ⟨congrArg (_ :: ·) same, happened⟩

/-! ### When passes are made -/

theorem tick_isSome_iff {l : LiveForm} {now : Nat} :
    (l.tick now).2.isSome = true ↔
      ∃ deadline, l.debouncer.deadline? = some deadline ∧ deadline ≤ now := by
  rw [← Debouncer.isDue_iff]
  cases due : l.debouncer.isDue now with
  | true => simp [tick_of_due due]
  | false => simp [tick_of_early due]

theorem flush_isSome_iff {l : LiveForm} :
    l.flush.2.isSome = true ↔ l.debouncer.deadline?.isSome = true := by
  rw [← Debouncer.isPending]
  cases pending : l.debouncer.isPending with
  | true => simp [flush_of_pending pending]
  | false => simp [flush_of_quiet pending]

/-! ### Answers that are refused -/

/-- An answer that is refused changes nothing at all. -/
theorem step_of_refused {l next : LiveForm} {event : Event} {error : FormError}
    (happened : l.step event = (next, .refused error)) : next = l := by
  have stepped := l.stepped event
  rw [happened] at stepped
  cases stepped <;> rfl

/-- A life without the answers that were refused goes as before. -/
theorem history_withoutRefusals (l : LiveForm) (events : List Event) :
    l.history (withoutRefusals (l.history events)) =
        (l.history events).filter (fun entry => !entry.isRefusal) ∧
      l.after (withoutRefusals (l.history events)) = l.after events := by
  induction events generalizing l with
  | nil => exact ⟨rfl, rfl⟩
  | cons event rest ih =>
    obtain ⟨sameHistory, sameForm⟩ := ih (l.step event).1
    rw [history, withoutRefusals]
    cases refusal : Entry.isRefusal ⟨event, (l.step event).2, (l.step event).1⟩ with
    | true =>
      have unchanged : (l.step event).1 = l := by
        cases response : (l.step event).2 with
        | refused error => exact step_of_refused (Prod.ext rfl response)
        | _ =>
          rw [Entry.isRefusal, response] at refusal
          cases refusal
      rw [List.filter_cons_of_neg (by simp [refusal]), ← withoutRefusals]
      rw [unchanged] at sameHistory sameForm ⊢
      have skipped : l.after (event :: rest) = l.after rest := by
        rw [after, List.foldl_cons, unchanged, ← after]
      exact ⟨sameHistory, sameForm.trans skipped.symm⟩
    | false =>
      rw [List.filter_cons_of_pos (by simp [refusal]), List.map_cons, ← withoutRefusals]
      exact ⟨congrArg (_ :: ·) sameHistory, sameForm⟩

/-! ### The account of a life -/

/-- How many passes were made. -/
def passCount (history : List Entry) : Nat :=
  history.countP Entry.isPass

/-- How many answers were taken. -/
def answerCount (history : List Entry) : Nat :=
  history.countP fun entry => entry.takenAt?.isSome

/-- What the history of a form says about the form. -/
structure Accounted (delay : Nat) (history : List Entry) (l : LiveForm) : Prop where
  sameDelay : l.debouncer.delay = delay
  deadline : l.debouncer.deadline? = (waitingSince? history).map (· + delay)
  passes : l.passes = 1 + passCount history
  /-- Each pass has an answer of its own before it, -/
  answered : passCount history ≤ answerCount history
  /-- and so has the one that is pending. -/
  waiting : l.debouncer.isPending = true → passCount history < answerCount history

namespace Accounted

variable {delay : Nat} {history : List Entry} {l : LiveForm} {entry : Entry}

theorem taken (accounted : Accounted delay history l) {state : FormState} {now : Nat}
    (noPass : entry.isPass = false) (noted : entry.takenAt? = some now) :
    Accounted delay (history ++ [entry]) (l.changed state now) := by
  have samePasses : passCount (history ++ [entry]) = passCount history := by
    simp [passCount, noPass]
  have oneMore : answerCount (history ++ [entry]) = answerCount history + 1 := by
    simp [answerCount, noted]
  refine ⟨accounted.sameDelay, ?_, ?_, ?_, ?_⟩
  · rw [waitingSince?, latestSince_of_moment noPass noted, ← accounted.sameDelay]
    rfl
  · rw [samePasses]
    exact accounted.passes
  · rw [samePasses, oneMore]
    exact Nat.le_succ_of_le accounted.answered
  · intro _
    rw [samePasses, oneMore]
    exact Nat.lt_succ_of_le accounted.answered

theorem passed (accounted : Accounted delay history l)
    (pending : l.debouncer.isPending = true) (pass : entry.isPass = true)
    (noAnswer : entry.takenAt? = none) :
    Accounted delay (history ++ [entry]) l.passed := by
  have oneMore : passCount (history ++ [entry]) = passCount history + 1 := by
    simp [passCount, pass]
  have sameAnswers : answerCount (history ++ [entry]) = answerCount history := by
    simp [answerCount, noAnswer]
  refine ⟨accounted.sameDelay, ?_, ?_, ?_, ?_⟩
  · rw [waitingSince?, latestSince_of_ends pass]
    rfl
  · rw [oneMore, ← Nat.add_assoc, ← accounted.passes]
    rfl
  · rw [oneMore, sameAnswers]
    exact accounted.waiting pending
  · intro stillPending
    cases stillPending

theorem idle (accounted : Accounted delay history l) (noPass : entry.isPass = false)
    (noAnswer : entry.takenAt? = none) : Accounted delay (history ++ [entry]) l := by
  have samePasses : passCount (history ++ [entry]) = passCount history := by
    simp [passCount, noPass]
  have sameAnswers : answerCount (history ++ [entry]) = answerCount history := by
    simp [answerCount, noAnswer]
  refine ⟨accounted.sameDelay, ?_, ?_, ?_, ?_⟩
  · rw [waitingSince?, latestSince_of_other noPass noAnswer]
    exact accounted.deadline
  · rw [samePasses]
    exact accounted.passes
  · rw [samePasses, sameAnswers]
    exact accounted.answered
  · rw [samePasses, sameAnswers]
    exact accounted.waiting

/-- Each event keeps the account. -/
theorem step (accounted : Accounted delay history l) (event : Event) :
    Accounted delay (history ++ [⟨event, (l.step event).2, (l.step event).1⟩])
      (l.step event).1 := by
  have stepped := l.stepped event
  generalize l.step event = next at stepped
  cases stepped with
  | input _ => exact accounted.taken rfl rfl
  | apply _ => exact accounted.taken rfl rfl
  | dueTick due => exact accounted.passed (Debouncer.isPending_of_isDue due) rfl rfl
  | flush pending => exact accounted.passed pending rfl rfl
  | _ => exact accounted.idle rfl rfl

end Accounted

/-- The ways for a form to get on screen under a clock with so many units of time to a millisecond: in
some state, or straight from its definition. -/
inductive Opened (millisecond : Nat) : LiveForm → Prop where
  | ofState (s : FormState) : Opened millisecond (ofState s millisecond).1
  | ofSpec {spec : FormSpec} {l : LiveForm} {report : Report}
      (loaded : ofSpec spec millisecond = .ok (l, report)) : Opened millisecond l

/-- How long inputs have to be quiet for a pass to be made, under such a clock. -/
def quietPeriod (l : LiveForm) (millisecond : Nat) : Nat :=
  l.state.policy.debounce * millisecond

variable {millisecond : Nat}

theorem Opened.accounted {l : LiveForm} (opened : Opened millisecond l) :
    Accounted (l.quietPeriod millisecond) [] l := by
  have first : ∀ s : FormState,
      Accounted (s.policy.debounce * millisecond) [] (LiveForm.ofState s millisecond).1 :=
    fun s => ⟨rfl, rfl, rfl, Nat.le_refl 0, Bool.noConfusion⟩
  cases opened with
  | ofState s => exact first s
  | @ofSpec spec _ _ loaded =>
    rw [LiveForm.ofSpec] at loaded
    cases setUp : FormState.ofSpec spec with
    | error e =>
      rw [setUp] at loaded
      cases loaded
    | ok s =>
      rw [setUp] at loaded
      cases loaded
      exact first s

/-- The account holds throughout the life of a form. -/
theorem Opened.accounted_after {start : LiveForm} (opened : Opened millisecond start)
    (events : List Event) :
    Accounted (start.quietPeriod millisecond) (start.history events) (start.after events) := by
  induction events using List.reverseRecOn with
  | nil => exact opened.accounted
  | append_singleton events event ih =>
    rw [history_concat, after_concat]
    exact ih.step event

/-- A pass is made only when an answer has been taken since the last one. -/
theorem Opened.waiting_of_isPass {start : LiveForm} (opened : Opened millisecond start)
    {events : List Event} {before rest : List Entry} {entry : Entry}
    (split : start.history events = before ++ entry :: rest) (pass : entry.isPass = true) :
    (waitingSince? before).isSome = true := by
  obtain ⟨same, happened⟩ := history_prefix split
  have accounted := opened.accounted_after (before.map Entry.event)
  rw [← same] at accounted
  have pending : (start.after (before.map Entry.event)).debouncer.isPending = true := by
    have stepped := (start.after (before.map Entry.event)).stepped entry.event
    rw [happened] at stepped
    rw [Entry.isPass] at pass
    generalize entry.event = event, entry.response = response, entry.next = next at stepped pass
    cases stepped with
    | dueTick due => exact Debouncer.isPending_of_isDue due
    | flush pending => exact pending
    | _ => cases pass
  rw [Debouncer.isPending, accounted.deadline, Option.isSome_map] at pending
  exact pending

/-- Passes follow the quiet periods of a life, whatever the clock does. The deadline is a delay after
the latest answer that was taken since the last pass, a pass is made when it has come or is asked for
ahead of it, and each pass has an answer before it that no earlier pass has seen. An answer that is
refused leaves the form as it was, and a life without such answers goes as before. A debouncer alone
keeps the same law. -/
theorem passes_follow_quiet_periods {start : LiveForm} (opened : Opened millisecond start)
    (events : List Event) :
    (start.after events).debouncer.deadline? =
        (waitingSince? (start.history events)).map
          (· + start.state.policy.debounce * millisecond) ∧
      (∀ now, ((start.after events).tick now).2.isSome = true ↔
        ∃ deadline, (start.after events).debouncer.deadline? = some deadline ∧ deadline ≤ now) ∧
      ((start.after events).flush.2.isSome = true ↔
        (start.after events).debouncer.deadline?.isSome = true) ∧
      (start.after events).passes = 1 + passCount (start.history events) ∧
      (∀ before entry rest, start.history events = before ++ entry :: rest →
        entry.isPass = true → (waitingSince? before).isSome = true) ∧
      (start.after events).passes ≤ 1 + answerCount (start.history events) ∧
      (∀ event next error, (start.after events).step event = (next, .refused error) →
        next = start.after events) ∧
      start.history (withoutRefusals (start.history events)) =
        (start.history events).filter (fun entry => !entry.isRefusal) ∧
      start.after (withoutRefusals (start.history events)) = start.after events ∧
      (∀ delay signals now, (((Debouncer.ofDelay delay).after signals).fire now).2 = true ↔
        ∃ since, Debouncer.waitingSince? ((Debouncer.ofDelay delay).record signals) = some since ∧
          since + delay ≤ now) := by
  have accounted := opened.accounted_after events
  obtain ⟨sameHistory, sameForm⟩ := start.history_withoutRefusals events
  refine ⟨accounted.deadline, fun _ => tick_isSome_iff, flush_isSome_iff, accounted.passes, ?_, ?_,
    ?_, sameHistory, sameForm, Debouncer.fire_after_iff⟩
  · intro before entry rest split pass
    exact opened.waiting_of_isPass split pass
  · rw [accounted.passes]
    exact Nat.add_le_add_left accounted.answered 1
  · intro event next error happened
    exact step_of_refused happened

/-- The second answer puts the pass off although its clock, of microseconds, is behind; an answer for
a field that the form lacks does not. -/
theorem travel_quiet_periods :
    ∃ start report, LiveForm.ofSpec FormSpec.travel 1000 = .ok (start, report) ∧
      ∃ events, events = [.input "abroad" (.checked true) 1000000,
        .apply ⟨"country", .string "Norway"⟩ 200000, .input "visit" (.text "") 450000,
        .tick 499999] ∧
      waitingSince? (start.history events) = some 200000 ∧
      (start.after events).debouncer.deadline? = some 500000 ∧
      ((start.after events).tick 500000).2.isSome = true ∧
      (start.after (events ++ [.tick 500000])).passes = 2 ∧
      (withoutRefusals (start.history events)).length = 3 ∧
      start.after (withoutRefusals (start.history events)) = start.after events := by
  refine ⟨_, _, rfl, _, rfl, by decide, ?_⟩
  obtain ⟨deadline, tick, _, _, _, _, _, _, sameForm, _⟩ :=
    passes_follow_quiet_periods (@Opened.ofSpec 1000 FormSpec.travel _ _ rfl)
      [.input "abroad" (.checked true) 1000000, .apply ⟨"country", .string "Norway"⟩ 200000,
        .input "visit" (.text "") 450000, .tick 499999]
  exact ⟨deadline, (tick 500000).mpr ⟨500000, by decide, by decide⟩, by decide, by decide, sameForm⟩

end LiveForm

end FormLogic
