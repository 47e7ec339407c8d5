import FormLogic.CommandLine.Watch
import FormLogic.Proofs.LiveHistory
import FormLogic.Proofs.Overwriting
import FormLogic.Proofs.PrintedView

/-!
# Watching comes to filling in

Lines come one after the other, some of them are left out, and fields are answered more than once.
As long as no pass falls due on the way, all this comes to a single pass over the form filled in with
the last answer for each field.
-/

namespace FormLogic

namespace Watch

/-! ## What a watch is told -/

/-- What may happen while a form is watched. -/
inductive Event where
  | line (now : Nat) (text : String)
  | clock (now : Nat)

/-- What an event leaves, and what is printed with it. -/
def attend (w : Watch) : Event → Watch × String
  | .line now text => (w.takeLine now text, "")
  | .clock now => w.tick now

/-- The watch after some events. -/
def after (w : Watch) (events : List Event) : Watch :=
  events.foldl (fun w event => (w.attend event).1) w

/-- All that is printed with some events and at the end, when no more lines come. -/
def printed (w : Watch) : List Event → String
  | [] => w.finish.2
  | event :: rest => (w.attend event).2 ++ (w.attend event).1.printed rest

/-- Whether no deadline has come at any look at the clock. -/
def Undue (w : Watch) : List Event → Prop
  | [] => True
  | .line now text :: rest => (w.takeLine now text).Undue rest
  | .clock now :: rest => w.form.debouncer.isDue now = false ∧ w.Undue rest

theorem undue_line {w : Watch} {now : Nat} {text : String} {rest : List Event} :
    w.Undue (.line now text :: rest) ↔ (w.takeLine now text).Undue rest := by
  rw [Undue]

theorem undue_clock {w : Watch} {now : Nat} {rest : List Event} :
    w.Undue (.clock now :: rest) ↔ w.form.debouncer.isDue now = false ∧ w.Undue rest := by
  rw [Undue]

instance decidableUndue : (w : Watch) → (events : List Event) → Decidable (w.Undue events)
  | _, [] => .isTrue trivial
  | w, .line now text :: rest =>
    have := decidableUndue (w.takeLine now text) rest
    decidable_of_iff _ undue_line.symm
  | w, .clock _ :: rest =>
    have := decidableUndue w rest
    decidable_of_iff _ undue_clock.symm

/-- The input that a line holds, if the form takes it. -/
def accepted? (w : Watch) (now : Nat) (text : String) : Option FieldInput :=
  (FieldInput.ofText? (String.ofList (Text.trim text.toList))).filter fun input =>
    (w.form.apply input now).2.isOk

/-- The inputs that the form takes, in order. -/
def inputs (w : Watch) : List Event → List FieldInput
  | [] => []
  | .line now text :: rest => (w.accepted? now text).toList ++ (w.takeLine now text).inputs rest
  | .clock now :: rest => (w.tick now).1.inputs rest

/-- The members that some inputs make, in order. -/
def members (inputs : List FieldInput) : List Json.Member :=
  inputs.map fun input => (input.field, input.value)

/-- The object that holds for each field the value of its last input. -/
def lastValues (inputs : List FieldInput) : Json :=
  .object (Json.sortMembers (members inputs))

theorem after_cons (w : Watch) (event : Event) (rest : List Event) :
    w.after (event :: rest) = (w.attend event).1.after rest :=
  rfl

/-! ## Lines -/

theorem takeLine_of_accepted {w : Watch} {now : Nat} {text : String} {input : FieldInput}
    (accepted : w.accepted? now text = some input) :
    ∃ state, w.form.state.setValue input.field input.value = .ok state ∧
      w.takeLine now text = { w with form := w.form.changed state now } := by
  obtain ⟨decoded, takes⟩ := Option.filter_eq_some_iff.mp accepted
  rw [LiveForm.apply_eq] at takes
  cases taken : w.form.state.setValue input.field input.value with
  | error e =>
    rw [taken] at takes
    cases takes
  | ok state =>
    refine ⟨state, rfl, ?_⟩
    simp only [takeLine, decoded, LiveForm.apply_eq, taken]
    rfl

theorem takeLine_of_refused {w : Watch} {now : Nat} {text : String}
    (refused : w.accepted? now text = none) : w.takeLine now text = w := by
  rw [accepted?, Option.filter_eq_none_iff] at refused
  rw [takeLine]
  cases decoded : FieldInput.ofText? (String.ofList (Text.trim text.toList)) with
  | none => rfl
  | some input =>
    have notTaken := refused input decoded
    simp only [LiveForm.apply_eq] at notTaken ⊢
    cases taken : w.form.state.setValue input.field input.value with
    | error e => rfl
    | ok state =>
      rw [taken] at notTaken
      exact absurd rfl notTaken

/-- A blank line holds no input. -/
theorem accepted?_of_blank {text : String} (blank : Text.trim text.toList = []) (w : Watch)
    (now : Nat) : w.accepted? now text = none := by
  rw [accepted?, blank]
  rfl

/-- A line prints nothing by itself. -/
theorem printed_line (w : Watch) (now : Nat) (text : String) (rest : List Event) :
    w.printed (.line now text :: rest) = (w.takeLine now text).printed rest := by
  simp only [printed, attend, String.empty_append]

theorem after_line (w : Watch) (now : Nat) (text : String) (rest : List Event) :
    w.after (.line now text :: rest) = (w.takeLine now text).after rest := by
  rw [after_cons, attend]

/-- A line that is left out leaves no trace. -/
theorem printed_of_refused {w : Watch} {before rest : List Event} {now : Nat} {text : String}
    (refused : (w.after before).accepted? now text = none) :
    w.printed (before ++ .line now text :: rest) = w.printed (before ++ rest) := by
  induction before generalizing w with
  | nil =>
    rw [List.nil_append, List.nil_append, printed_line]
    exact congrArg (fun w : Watch => w.printed rest) (takeLine_of_refused refused)
  | cons event before ih =>
    rw [List.cons_append, List.cons_append, printed, printed, ih refused]

/-! ## Undisturbed watching -/

theorem tick_of_early {w : Watch} {now : Nat} (early : w.form.debouncer.isDue now = false) :
    w.tick now = (w, "") := by
  rw [tick, LiveForm.tick_of_early early]
  rfl

/-- What some events have left of a watch if no pass fell due: the form with the inputs taken, and a
pass that is pending if there were any, still to be printed. -/
structure Undisturbed (w : Watch) (events : List Event) (last : LiveForm) : Prop where
  taken : w.form.state.setValues (members (w.inputs events)) = .ok last.state
  passes : last.passes = w.form.passes
  pending : last.debouncer.isPending = (w.form.debouncer.isPending || !(w.inputs events).isEmpty)
  after : w.after events = { w with form := last }
  printed : w.printed events = (w.after events).finish.2

namespace Undisturbed

variable {w : Watch} {rest : List Event} {last : LiveForm} {now : Nat} {text : String}

/-- Nothing happens at a look at the clock. -/
theorem clock (undisturbed : w.Undisturbed rest last)
    (early : w.form.debouncer.isDue now = false) : w.Undisturbed (.clock now :: rest) last := by
  have sameWatch : w.after (.clock now :: rest) = w.after rest := by
    rw [after_cons, attend, tick_of_early early]
  have sameInputs : w.inputs (.clock now :: rest) = w.inputs rest := by
    rw [inputs, tick_of_early early]
  refine ⟨?_, undisturbed.passes, ?_, sameWatch.trans undisturbed.after, ?_⟩
  · rw [sameInputs]
    exact undisturbed.taken
  · rw [sameInputs]
    exact undisturbed.pending
  · rw [Watch.printed, attend, tick_of_early early, undisturbed.printed, sameWatch]
    exact String.empty_append

/-- Nor does anything with a line that is left out. -/
theorem refused (undisturbed : w.Undisturbed rest last)
    (refused : w.accepted? now text = none) : w.Undisturbed (.line now text :: rest) last := by
  have sameWatch : w.after (.line now text :: rest) = w.after rest := by
    rw [after_line, takeLine_of_refused refused]
  have sameInputs : w.inputs (.line now text :: rest) = w.inputs rest := by
    rw [inputs, refused, takeLine_of_refused refused]
    rfl
  refine ⟨?_, undisturbed.passes, ?_, sameWatch.trans undisturbed.after, ?_⟩
  · rw [sameInputs]
    exact undisturbed.taken
  · rw [sameInputs]
    exact undisturbed.pending
  · rw [printed_line, takeLine_of_refused refused, undisturbed.printed, sameWatch]

/-- A line with an input puts its value into the form and has a pass pending. -/
theorem accepted {input : FieldInput} (accepted : w.accepted? now text = some input)
    (undisturbed : (w.takeLine now text).Undisturbed rest last) :
    w.Undisturbed (.line now text :: rest) last := by
  have more : w.inputs (.line now text :: rest) =
      input :: (w.takeLine now text).inputs rest := by
    rw [inputs, accepted]
    rfl
  have further := w.after_line now text rest
  have nothing := w.printed_line now text rest
  obtain ⟨state, put, taken⟩ := takeLine_of_accepted accepted
  rw [taken] at undisturbed more further nothing
  refine ⟨?_, undisturbed.passes, ?_, further.trans undisturbed.after, ?_⟩
  · rw [more]
    exact FormState.setValues_cons_ok.mpr ⟨state, put, undisturbed.taken⟩
  · rw [undisturbed.pending, more]
    simp [LiveForm.changed, Debouncer.schedule, Debouncer.isPending]
  · rw [nothing, undisturbed.printed, further]

end Undisturbed

/-- By induction on the events. -/
theorem Undue.undisturbed {w : Watch} {events : List Event} (undue : w.Undue events) :
    ∃ last, w.Undisturbed events last := by
  induction events generalizing w with
  | nil => exact ⟨w.form, rfl, rfl, (Bool.or_false _).symm, rfl, rfl⟩
  | cons event rest ih =>
    cases event with
    | clock now =>
      obtain ⟨early, undue⟩ := undue_clock.mp undue
      obtain ⟨last, undisturbed⟩ := ih undue
      exact ⟨last, undisturbed.clock early⟩
    | line now text =>
      obtain ⟨last, undisturbed⟩ := ih (undue_line.mp undue)
      cases accepted : w.accepted? now text with
      | none =>
        rw [takeLine_of_refused accepted] at undisturbed
        exact ⟨last, undisturbed.refused accepted⟩
      | some input => exact ⟨last, .accepted accepted undisturbed⟩

/-! ## The form filled in at once -/

theorem entries_lastValues (inputs : List FieldInput) :
    (lastValues inputs).entries = Json.sortMembers (members inputs) :=
  Json.sortMembers_eq_self (Json.pairwise_sortMembers _)

/-- The value of a field in the object is that of its last input. -/
theorem lookup_lastValues (inputs : List FieldInput) (name : String) :
    (lastValues inputs).entries.lookup name =
      ((inputs.filter fun input => input.field == name).getLast?).map FieldInput.value := by
  rw [entries_lastValues, Json.lookup_sortMembers, members, List.filter_map, List.getLast?_map,
    Option.map_map]
  rfl

theorem lastValues_eq_empty_iff {inputs : List FieldInput} :
    lastValues inputs = .object [] ↔ inputs = [] := by
  constructor
  · intro empty
    cases inputs with
    | nil => rfl
    | cons first rest =>
      have found := lookup_lastValues (first :: rest) first.field
      rw [empty, List.filter_cons_of_pos (by simp), List.getLast?_cons] at found
      cases found
  · rintro rfl
    rfl

end Watch

namespace FormState

variable {spec : FormSpec} {s t : FormState}

/-- Taking answers and forgetting how the controls are shown do not get in each other's way. -/
theorem fresh_eq_of_taking {entries : List Json.Member}
    (controls : t.controls = s.controls.map (Control.taking entries)) (policy : t.policy = s.policy) :
    t.fresh = ⟨s.fresh.controls.map (Control.taking entries), s.fresh.policy⟩ := by
  rw [fresh, fresh, mk.injEq, controls, List.map_map, List.map_map]
  exact ⟨rfl, policy⟩

theorem fresh_refreshed (s : FormState) : s.refreshed.fresh = s.fresh := by
  rw [fresh, fresh, mk.injEq]
  refine ⟨?_, rfl⟩
  apply List.ext_getElem?
  intro i
  rw [List.getElem?_map, List.getElem?_map, s.refreshed_solves.getElem? i, Option.map_map]
  congr 1
  funext c
  simp only [Function.comp_apply, Control.settleAt, Control.fresh, Control.settle_field,
    Control.settle_answer]

/-- Two forms with the same answers have the same pass. -/
theorem Kept.refresh_eq_of_fresh_eq (kept : Kept spec s) (kept' : Kept spec t)
    (same : s.fresh = t.fresh) : s.refresh = t.refresh := by
  apply refresh_eq_of_refreshed_eq
  rw [kept.refreshed_eq_fresh, kept'.refreshed_eq_fresh, same]

/-- Answers that are given after a first pass, one after the other, come to the form filled in with
the object that they make. -/
theorem ofAnswers_of_setValues {first last : FormState} {members : List Json.Member}
    (opened : FormState.ofSpec spec = .ok first)
    (taken : first.refreshed.setValues members = .ok last) :
    ∃ t, FormState.ofAnswers spec (.object (Json.sortMembers members)) = .ok t ∧
      t.refresh = last.refresh := by
  have kept : Kept spec first.refreshed := (Kept.ofSpec opened).refreshed
  have entries : (Json.object (Json.sortMembers members)).entries = Json.sortMembers members :=
    Json.sortMembers_eq_self (Json.pairwise_sortMembers members)
  have inOrder := kept.setValues_sortMembers taken
  rw [← entries] at inOrder
  have takes := takes_of_setValues kept.fields inOrder
  obtain ⟨t, filled⟩ := (Submission.accepted_iff opened _).mpr takes
  refine ⟨t, filled, ?_⟩
  apply (Kept.ofAnswers filled).refresh_eq_of_fresh_eq (kept.sameButAnswers (setValues_ok taken).2)
  -- Both are the form as it is opened, with the answers of the object and not shown by any pass yet.
  have policy : t.policy = first.policy := by
    obtain ⟨first', opened', filled⟩ := ofAnswers_ok.mp filled
    cases opened.symm.trans opened'
    exact (setValues_ok filled).1
  rw [fresh_eq_of_taking (ofAnswers_controls opened filled) policy,
    fresh_eq_of_taking (setValues_controls kept.distinct (Json.nodup_entries _) inOrder)
      (setValues_ok taken).1, fresh_refreshed]

end FormState

/-! ## Watching -/

namespace Watch

/-- A text that shows a view after a pass: the text of the view below the number of the pass, or a line
of JSON, which is read as the view. -/
def Shows (layout : Layout) (pass : Nat) (view : FormView) (text : String) : Prop :=
  match layout with
  | .text => text = "--- pass " ++ toString pass ++ " ---\n" ++ view.toText ++ "\n"
  | .json => text = view.toJson.compact ++ "\n" ∧
    (view.fields.length < 2 ^ 64 → Json.valueOfText? text = some view.toJson)

variable {spec : FormSpec} {layout : Layout} {millisecond : Nat}

theorem shows_print {answers : Json} {view : FormView}
    (shown : FormView.ofAnswers spec answers = .ok view) (layout : Layout) (pass : Nat) :
    Shows layout pass view (print layout pass view) := by
  cases layout with
  | text => rfl
  | json =>
    refine ⟨rfl, ?_⟩
    intro few
    rw [print, Json.valueOfText?_line]
    rw [FormView.length_fields_ofAnswers shown] at few
    exact (FormView.legible_ofAnswers shown few _).valueOfText?_compact

/-- The watch that starts with a form as it is opened. -/
def ofState (spec : FormSpec) (layout : Layout) (millisecond : Nat) (first : FormState) : Watch :=
  ⟨spec, layout, (LiveForm.ofState first millisecond).1⟩

theorem start_eq {first : FormState} (opened : FormState.ofSpec spec = .ok first) :
    start spec layout millisecond = .ok (ofState spec layout millisecond first,
      print layout 1 (FormView.ofState spec first.refreshed first.refresh.2)) := by
  rw [start, LiveForm.ofSpec, opened]
  rfl

theorem replay_eq {first : FormState} (opened : FormState.ofSpec spec = .ok first)
    (lines : List String) :
    replay spec layout lines millisecond = .ok (
      print layout 1 (FormView.ofState spec first.refreshed first.refresh.2) ++
        (ofState spec layout millisecond first).printed (lines.map (Event.line 0))) := by
  have atOnce (w : Watch) :
      w.printed (lines.map (Event.line 0)) =
        (lines.foldl (fun w line => w.takeLine 0 line) w).finish.2 := by
    induction lines generalizing w with
    | nil => rfl
    | cons line rest ih => rw [List.map_cons, printed_line, ih, List.foldl_cons]
  rw [replay, start_eq opened, Outcome.ok_bind, atOnce]
  rfl

/-- Without an input nothing is left to do at the end. -/
theorem Undisturbed.finish_of_quiet {w : Watch} {events : List Event} {last : LiveForm}
    (undisturbed : w.Undisturbed events last) (quiet : w.form.debouncer.isPending = false)
    (none : w.inputs events = []) :
    w.printed events = "" ∧ (w.after events).finish.1.form.passes = w.form.passes := by
  have notPending : last.debouncer.isPending = false := by
    rw [undisturbed.pending, quiet, none]
    rfl
  rw [undisturbed.printed, undisturbed.after, finish, LiveForm.flush_of_quiet notPending]
  exact ⟨rfl, undisturbed.passes⟩

/-- With an input a pass is left to be made at the end. -/
theorem Undisturbed.finish_of_inputs {w : Watch} {events : List Event} {last : LiveForm}
    (undisturbed : w.Undisturbed events last) (some : w.inputs events ≠ []) :
    w.printed events = print w.layout (w.form.passes + 1)
        (FormView.ofState w.spec last.state.refreshed last.state.refresh.2) ∧
      (w.after events).finish.1.form.passes = w.form.passes + 1 := by
  have pending : last.debouncer.isPending = true := by
    rw [undisturbed.pending, List.isEmpty_eq_false_iff.mpr some]
    exact Bool.or_true _
  rw [undisturbed.printed, undisturbed.after, finish, LiveForm.flush_of_pending pending,
    ← undisturbed.passes]
  exact ⟨rfl, rfl⟩

/-- Watching a form comes to filling it in once, under any clock. The first pass is the one of the form
without answers. If no deadline comes before the lines end, then nothing more is printed if no input
is taken, and otherwise one more pass, numbered 2, whose view is the one of the form filled in with
the object that holds for each field the value of its last input. A line whose input is not taken,
such as a blank one, makes no difference. -/
theorem watching_fills_in {first : FormState} (opened : FormState.ofSpec spec = .ok first) :
    ∃ w view text, FormView.ofAnswers spec (.object []) = .ok view ∧
      start spec layout millisecond = .ok (w, text) ∧ Shows layout 1 view text ∧
      (∀ events, w.Undue events →
        (lastValues (w.inputs events) = .object [] →
          w.printed events = "" ∧ (w.after events).finish.1.form.passes = 1) ∧
        (lastValues (w.inputs events) ≠ .object [] →
          ∃ last, FormView.ofAnswers spec (lastValues (w.inputs events)) = .ok last ∧
            Shows layout 2 last (w.printed events) ∧
            (w.after events).finish.1.form.passes = 2)) ∧
      (∀ events name, (lastValues (w.inputs events)).entries.lookup name =
        (((w.inputs events).filter fun input => input.field == name).getLast?).map
          FieldInput.value) ∧
      (∀ before now text rest, (w.after before).accepted? now text = none →
        w.printed (before ++ .line now text :: rest) = w.printed (before ++ rest)) ∧
      (∀ before now text, Text.trim text.toList = [] →
        (w.after before).accepted? now text = none) ∧
      ∀ lines, replay spec layout lines millisecond =
        .ok (text ++ w.printed (lines.map (Event.line 0))) := by
  have empty : FormState.ofAnswers spec (.object []) = .ok first := by
    rw [FormState.ofAnswers, opened]
    rfl
  have shown := FormView.ofAnswers_of_filled empty
  refine ⟨ofState spec layout millisecond first, _, _, shown, start_eq opened,
    shows_print shown layout 1, ?_, fun _ _ => lookup_lastValues _ _,
    fun _ _ _ _ => printed_of_refused, fun _ _ _ blank => accepted?_of_blank blank _ _,
    replay_eq opened⟩
  intro events undue
  obtain ⟨last, undisturbed⟩ := undue.undisturbed
  rw [ne_eq, lastValues_eq_empty_iff]
  refine ⟨undisturbed.finish_of_quiet rfl, ?_⟩
  intro some
  obtain ⟨t, filled, samePass⟩ := FormState.ofAnswers_of_setValues opened undisturbed.taken
  obtain ⟨printed, passes⟩ := undisturbed.finish_of_inputs some
  have shownLast := FormView.ofAnswers_of_filled filled
  refine ⟨_, shownLast, ?_, passes⟩
  rw [printed, FormState.refreshed, FormState.refreshed, ← samePass]
  exact shows_print shownLast layout 2

/-- One who goes abroad changes the country, with a blank line, one for a field that the form lacks
and looks at the clock in between. -/
def travelEvents : List Event := [
  .line 0 "\x7b\"field\":\"abroad\",\"value\":true\x7d", .clock 20, .line 30 " ",
  .line 40 "\x7b\"field\":\"visit\"\x7d",
  .line 50 "\x7b\"field\":\"country\",\"value\":\"Norway\"\x7d",
  .line 10 "\x7b\"field\":\"country\",\"value\":\"Chile\"\x7d", .clock 40]

theorem travel_watching_fills_in :
    (∃ w first last, start FormSpec.travel .text 1000 = .ok (w, first) ∧ w.Undue travelEvents ∧
      (w.inputs travelEvents).map FieldInput.field = ["abroad", "country", "country"] ∧
      FormView.ofAnswers FormSpec.travel (lastValues (w.inputs travelEvents)) = .ok last ∧
      w.printed travelEvents = "--- pass 2 ---\n" ++ last.toText ++ "\n") ∧
    ∃ w first last, start FormSpec.travel .json 1000 = .ok (w, first) ∧ w.Undue travelEvents ∧
      (w.inputs travelEvents).map FieldInput.field = ["abroad", "country", "country"] ∧
      FormView.ofAnswers FormSpec.travel (lastValues (w.inputs travelEvents)) = .ok last ∧
      w.printed travelEvents = last.toJson.compact ++ "\n" ∧
      Json.valueOfText? (w.printed travelEvents) = some last.toJson := by
  have watches (layout : Layout) :
      ∃ w first last, start FormSpec.travel layout 1000 = .ok (w, first) ∧ w.Undue travelEvents ∧
        (w.inputs travelEvents).map FieldInput.field = ["abroad", "country", "country"] ∧
        FormView.ofAnswers FormSpec.travel (lastValues (w.inputs travelEvents)) = .ok last ∧
        Shows layout 2 last (w.printed travelEvents) := by
    have opened : FormState.ofSpec FormSpec.travel = .ok _ := rfl
    obtain ⟨w, _, _, _, started, _, fillsIn, _⟩ :=
      @watching_fills_in FormSpec.travel layout 1000 _ opened
    have same : w = ofState FormSpec.travel layout 1000 _ :=
      (congrArg Prod.fst (Except.ok.inj ((start_eq opened).symm.trans started))).symm
    have undue : w.Undue travelEvents := by
      rw [same]
      cases layout <;> decide +kernel
    have taken : (w.inputs travelEvents).map FieldInput.field =
        ["abroad", "country", "country"] := by
      rw [same]
      cases layout <;> decide +kernel
    have some : lastValues (w.inputs travelEvents) ≠ .object [] := by
      intro empty
      rw [lastValues_eq_empty_iff.mp empty] at taken
      cases taken
    obtain ⟨last, filled, shows, _⟩ := (fillsIn travelEvents undue).2 some
    exact ⟨w, _, last, started, undue, taken, filled, shows⟩
  refine ⟨watches .text, ?_⟩
  obtain ⟨w, first, last, started, undue, taken, filled, line, reads⟩ := watches .json
  refine ⟨w, first, last, started, undue, taken, filled, line, reads ?_⟩
  rw [FormView.length_fields_ofAnswers filled]
  decide

end Watch

end FormLogic
