import FormLogic.Proofs.Calls
import FormLogic.Proofs.PrintedView

/-!
# What is shown is what was decided

A view is made of the controls as they are and of the report of a pass, which may be older: answers
and the policy may have changed since. Neither shows anything differently before the next pass, so
what is told of a field, in text and in JSON alike, is the verdict of that pass on it: what its rule
has come to, or that the rule has failed and the field stands in sight.
-/

namespace FormLogic

/-! ## Verdicts -/

/-- What is told of a field. -/
structure Verdict where
  visible : Bool
  required : Bool
  indent : Nat
  evaluation? : Option Evaluation
  error? : Option EvalError

namespace Verdict

/-- A verdict that tells of a field what a pass has found for its rule. -/
structure Tells (v : Verdict) (f : Field) (found : Except EvalError Evaluation) : Prop where
  evaluation : ∀ e, v.evaluation? = some e ↔ f.rule ≠ .empty ∧ found = .ok e
  decided : ∀ e, found = .ok e → v.visible = e.isActive ∧ v.indent = e.indent
  error : ∀ e, v.error? = some e ↔ found = .error e
  spared : ∀ e, found = .error e → v.visible = true ∧ v.indent = 0
  required : v.required = (f.required && v.visible)

/-- The lines that tell a verdict on a field with a current value. -/
def lines (v : Verdict) (f : Field) (currentValue : String) : List String :=
  let margin := String.ofList (List.replicate (2 * v.indent) ' ')
  let headline := margin ++ (if v.visible then "+ " else "- ") ++ f.label ++ " (" ++ f.id ++ ")"
    ++ (if v.required then " [required]" else "")
    ++ (if currentValue.isEmpty then "" else " = " ++ currentValue)
  headline ::
    (v.evaluation?.toList.map fun e => margin ++ "    " ++ e.diagnostic)
    ++ v.error?.toList.map fun e => margin ++ "    error: " ++ e.message

/-- A JSON value that tells a verdict. -/
structure WrittenAs (v : Verdict) (j : Json) : Prop where
  visible : j.member? "visible" = some (.bool v.visible)
  required : j.member? "required" = some (.bool v.required)
  indent : j.member? "indent_level" = some (.ofNat v.indent)
  formula : j.member? "formula" = v.evaluation?.map fun e => .string e.formula
  trace : j.member? "trace" = v.evaluation?.map fun e => .string e.trace
  error : j.member? "error" = v.error?.map fun e => .string e.message

end Verdict

namespace FieldView

/-- The verdict that a view of a field tells. -/
def verdict (v : FieldView) : Verdict where
  visible := v.visible
  required := v.required
  indent := v.indent
  evaluation? := v.evaluation?
  error? := v.error?

theorem evaluation?_eq_some_iff {v : FieldView} {e : Evaluation} :
    v.evaluation? = some e ↔ v.outcome? = some (.ok e) := by
  rw [evaluation?]
  cases v.outcome? with
  | none => simp
  | some result => cases result <;> simp

theorem error?_eq_some_iff {v : FieldView} {e : EvalError} :
    v.error? = some e ↔ v.outcome? = some (.error e) := by
  rw [error?]
  cases v.outcome? with
  | none => simp
  | some result => cases result <;> simp

theorem writtenAs_verdict (v : FieldView) : v.verdict.WrittenAs v.toJson := by
  unfold verdict toJson Json.optionalMember
  cases v.error? <;> cases v.evaluation? <;> exact ⟨rfl, rfl, rfl, rfl, rfl, rfl⟩

/-- Formula and trace are printed with the visibility of the field after them. It is what the rule has
come to, so that the diagnostic of the evaluation is printed. -/
theorem lines_eq {v : FieldView} {f : Field} {found : Except EvalError Evaluation}
    (tells : v.verdict.Tells f found) (sameId : v.id = f.id) (sameLabel : v.label = f.label) :
    v.lines = v.verdict.lines f v.currentValue := by
  have shown : v.explanation =
      (v.evaluation?.toList.map fun e => v.margin ++ "    " ++ e.diagnostic)
      ++ v.error?.toList.map fun e => v.margin ++ "    error: " ++ e.message := by
    cases outcome : v.outcome? with
    | none => simp [explanation, evaluation?, error?, outcome]
    | some result =>
      cases result with
      | error e => simp [explanation, evaluation?, error?, outcome]
      | ok e =>
        have evaluated : v.evaluation? = some e := by simp [evaluation?, outcome]
        have active : v.visible = e.isActive :=
          (tells.decided e ((tells.evaluation e).mp evaluated).2).1
        simp [explanation, evaluation?, error?, outcome, Evaluation.diagnostic, active]
  rw [lines, headline, shown, sameId, sameLabel]
  rfl

end FieldView

/-! ## Reports -/

/-- Under distinct ids, what a report says of a field is found by its id. -/
theorem Report.field?_of_getElem? {r : Report} (distinct : (r.fields.map FieldOutcome.id).Nodup)
    {i : Nat} {o : FieldOutcome} (there : r.fields[i]? = some o) : r.field? o.id = some o := by
  have atId : (r.fields.map FieldOutcome.id)[i]? = some o.id := by
    rw [List.getElem?_map, there, Option.map_some]
  have position := findIdx?_of_nodup distinct atId
  rw [List.findIdx?_map] at position
  rw [field?, List.find?_eq_bind_findIdx?_getElem?]
  exact (congrArg (Option.bind · (r.fields[·]?)) position).trans there

namespace FormState

variable {spec : FormSpec} {s : FormState}

/-! ## Between two passes -/

/-- A call that is no pass changes answers alone. -/
theorem perform_sameButAnswers {call : Call} (noPass : call ≠ .refresh) (s : FormState) :
    List.Forall₂ Control.SameButAnswer s.controls (s.perform call).controls := by
  have unchanged := Control.sameButAnswers_refl s.controls
  cases call with
  | setAnswer id answer =>
    rw [perform, putAnswer_eq]
    cases taken : s.setAnswer id answer with
    | error e => exact unchanged
    | ok t => exact (setAnswer_ok taken).2
  | setValue id j =>
    rw [perform, putValue_eq]
    cases taken : s.setValue id j with
    | error e => exact unchanged
    | ok t =>
      obtain ⟨_, _, _, _, taken⟩ := setValue_ok.mp taken
      exact (setAnswer_ok taken).2
  | setPolicy policy => exact unchanged
  | refresh => exact absurd rfl noPass

/-- By induction on the calls. -/
theorem foldl_perform_sameButAnswers {calls : List Call} (noPass : ∀ call ∈ calls, call ≠ .refresh)
    (s : FormState) :
    List.Forall₂ Control.SameButAnswer s.controls (calls.foldl perform s).controls := by
  induction calls generalizing s with
  | nil => exact Control.sameButAnswers_refl s.controls
  | cons call rest ih =>
    rw [List.forall_mem_cons] at noPass
    exact Control.sameButAnswers_trans (perform_sameButAnswers noPass.1 s)
      (ih noPass.2 (s.perform call))

/-! ## What a pass has decided -/

theorem Kept.report_ids (kept : Kept spec s) :
    s.refresh.2.fields.map FieldOutcome.id = spec.fields.map Field.id := by
  apply List.ext_getElem?
  intro i
  rw [List.getElem?_map, kept.found, Option.map_map, List.getElem?_map]
  rfl

/-- What a pass reports of a field is found under its id. -/
theorem Kept.reported (kept : Kept spec s) {i : Nat} {f : Field}
    (declared : spec.fields[i]? = some f) :
    s.refresh.2.field? f.id = some
      ⟨f.id, f.label, f.hasRule, f.rule.evaluate s.refreshed.controls (some i)⟩ := by
  have distinct : (s.refresh.2.fields.map FieldOutcome.id).Nodup := by
    rw [kept.report_ids, ← kept.ids]
    exact kept.distinct
  exact Report.field?_of_getElem? distinct (kept.found_field declared)

/-- A control that shows what a pass has found for its rule. -/
structure Decided (c : Control) (found : Except EvalError Evaluation) : Prop where
  ok : ∀ e, found = .ok e → c.active = e.isActive ∧ c.indent = e.indent
  error : ∀ e, found = .error e → Plain c

theorem Decided.sameButAnswer {c d : Control} {found : Except EvalError Evaluation}
    (decided : Decided c found) (same : Control.SameButAnswer c d) : Decided d found := by
  obtain ⟨answer, rfl⟩ := same
  constructor
  · exact decided.ok
  · intro e fails
    have plain := decided.error e fails
    exact ⟨plain.active, plain.indent⟩

theorem Kept.decided (kept : Kept spec s) {i : Nat} {c : Control}
    (there : s.refreshed.controls[i]? = some c) :
    Decided c (c.field.rule.evaluate s.refreshed.controls (some i)) := by
  constructor
  · intro e evaluated
    have settled := s.refreshed_solves.self.getElem? i
    rw [there, Option.map_some, Option.some.injEq, Control.settleAt, evaluated] at settled
    rw [settled]
    exact ⟨rfl, rfl⟩
  · intro e fails
    exact kept.refreshed.plain_of_error there fails

/-- After a pass and some answers, each control still shows what the pass has found. -/
theorem Kept.decided_later (kept : Kept spec s) {later : List Control}
    (same : List.Forall₂ Control.SameButAnswer s.refreshed.controls later) {i : Nat} {f : Field}
    (declared : spec.fields[i]? = some f) :
    ∃ c, later[i]? = some c ∧ c.field = f ∧
      Decided c (f.rule.evaluate s.refreshed.controls (some i)) := by
  rw [← kept.refreshed.fields, ← Control.fields_of_sameButAnswers same, List.getElem?_map,
    Option.map_eq_some_iff] at declared
  obtain ⟨c, there, rfl⟩ := declared
  obtain ⟨d, before, answered⟩ := Control.sameButAnswer_at same there
  have sameField : d.field = c.field := by
    obtain ⟨answer, rfl⟩ := answered
    rfl
  have decided := (kept.decided before).sameButAnswer answered
  rw [sameField] at decided
  exact ⟨c, there, rfl, decided⟩

end FormState

/-! ## What a view tells -/

namespace FieldView

variable {c : Control} {policy : Policy} {report : Report} {found : Except EvalError Evaluation}

/-- A view tells what a report has found for a rule, if there is a rule. -/
theorem outcome?_ofControl_iff {result : Except EvalError Evaluation}
    (reported : report.field? c.id = some (c.outcome found)) :
    (ofControl policy report c).outcome? = some result ↔
      c.field.rule ≠ .empty ∧ found = result := by
  have hasRule : c.field.hasRule = true ↔ c.field.rule ≠ .empty := by
    rw [Field.hasRule]
    cases c.field.rule <;> simp [Rule.isEmpty]
  rw [← hasRule]
  cases ruled : c.field.hasRule <;>
    simp [ofControl, reported, Control.outcome, Option.filter_some, ruled]

theorem tells_ofControl (consistent : c.Consistent) (decided : FormState.Decided c found)
    (noRule : c.field.rule = .empty → found = .ok Evaluation.empty)
    (reported : report.field? c.id = some (c.outcome found)) :
    (ofControl policy report c).verdict.Tells c.field found := by
  have visible := visible_ofControl consistent policy report
  constructor
  · intro e
    exact evaluation?_eq_some_iff.trans (outcome?_ofControl_iff reported)
  · intro e evaluated
    obtain ⟨active, indent⟩ := decided.ok e evaluated
    exact ⟨visible.trans active, indent⟩
  · intro e
    rw [verdict, error?_eq_some_iff, outcome?_ofControl_iff reported]
    constructor
    · exact And.right
    · rintro rfl
      refine ⟨?_, rfl⟩
      intro empty
      cases noRule empty
  · intro e fails
    have plain := decided.error e fails
    exact ⟨visible.trans plain.active, plain.indent⟩
  · exact consistent.required.trans (congrArg (c.field.required && ·) visible.symm)

end FieldView

namespace FormState

variable {spec : FormSpec} {s : FormState}

/-- Whatever has been put in since, a view tells what was decided by the last pass. Of each declared
field, in order and once, it tells the verdict of that pass: what the rule of the field has come to,
if it has one, with its formula, its trace and its diagnostic; or why the rule has failed, and then
the field stands in sight without indentation. An answer is asked for if the field is declared to
ask for one and is active. The lines of the text and the JSON value of a field tell the same
verdict, and the counts are those of all fields and of those that are active. -/
theorem views_tell_verdicts (reached : Reachable spec s) {calls : List Call}
    (noPass : ∀ call ∈ calls, call ≠ .refresh) (shown : FormSpec) :
    let later := calls.foldl perform s.refreshed
    let view := FormView.ofState shown later s.refresh.2
    view.fields.map FieldView.id = spec.fields.map Field.id ∧
    (view.fields.map FieldView.id).Nodup ∧
    view.total = spec.fields.length ∧
    view.visible = (later.controls.filter (·.active)).length ∧
    view.toText = "\n".intercalate (["Form: " ++ shown.title ++ " (" ++ shown.id ++ ")",
      "Visible fields: " ++ toString view.visible ++ "/" ++ toString view.total] ++
        view.fields.flatMap FieldView.lines) ∧
    view.toJson.member? "progress" =
      some (.object [("total", .ofNat view.total), ("visible", .ofNat view.visible)]) ∧
    view.toJson.member? "fields" = some (.array (view.fields.map FieldView.toJson)) ∧
    ∀ (i : Nat) (f : Field), spec.fields[i]? = some f →
      ∃ (c : Control) (v : FieldView) (found : Except EvalError Evaluation),
        later.controls[i]? = some c ∧ c.field = f ∧ view.fields[i]? = some v ∧
        s.refresh.2.fields[i]? = some ⟨f.id, f.label, f.hasRule, found⟩ ∧
        v.verdict.Tells f found ∧ v.verdict.visible = c.active ∧
        v.lines = v.verdict.lines f v.currentValue ∧ v.verdict.WrittenAs v.toJson := by
  intro later view
  have same := foldl_perform_sameButAnswers noPass s.refreshed
  have laterReached : Reachable spec later := reached.refresh.foldl_perform calls
  have ids : view.fields.map FieldView.id = spec.fields.map Field.id := by
    rw [← laterReached.kept.ids]
    exact List.map_map
  have visible : view.visible = (later.controls.filter (·.active)).length := by
    have sameIds := congrArg List.length
      (@FormView.visible_ofState spec shown later laterReached s.refresh.2)
    rwa [List.length_map, List.length_map] at sameIds
  refine ⟨ids, ?_, FormView.total_ofState laterReached _, visible, rfl, rfl, rfl, ?_⟩
  · rw [ids, ← laterReached.kept.ids]
    exact laterReached.kept.distinct
  · intro i f declared
    -- The view takes the control from its position and looks the report up by id.
    obtain ⟨c, there, rfl, decided⟩ := reached.kept.decided_later same declared
    have consistent := laterReached.consistent c (List.mem_of_getElem? there)
    have noRule : c.field.rule = .empty →
        c.field.rule.evaluate s.refreshed.controls (some i) = .ok Evaluation.empty := by
      intro empty
      rw [empty]
      rfl
    have tells := @FieldView.tells_ofControl c later.policy _ _ consistent decided noRule
      (reached.kept.reported declared)
    have viewed : view.fields[i]? = some (FieldView.ofControl later.policy s.refresh.2 c) :=
      List.getElem?_map.trans (congrArg (Option.map _) there)
    exact ⟨c, _, _, there, rfl, viewed, reached.kept.found_field declared, tells,
      FieldView.visible_ofControl consistent later.policy s.refresh.2,
      FieldView.lines_eq tells rfl rfl, FieldView.writtenAs_verdict _⟩

/-- The box for going abroad is ticked and a country is given, but the last pass was before that: the
country is still told to be out of sight, with the box unticked in its trace. The fee has a rule that
fails and stays in sight. -/
theorem travel_shows_last_pass :
    ∃ s, FormState.ofSpec FormSpec.travel = .ok s ∧
      let calls := [Call.setValue "abroad" (.bool true), .setAnswer "country" (.text "home")]
      let view := FormView.ofState FormSpec.travel (calls.foldl perform s.refreshed) s.refresh.2
      view.visible = 2 ∧
      (∃ v, view.fields[1]? = some v ∧ v.toJson.member? "visible" = some (.bool false) ∧
        v.lines = ["  - Country (country) = home",
          "      Abroad ✔   ⇒   \"false\" ✔   ⇒   false"]) ∧
      ∃ v, view.fields[3]? = some v ∧ v.toJson.member? "visible" = some (.bool true) ∧
        v.lines = ["+ Fee (fee)", "    error: rule references unknown field 'price'"] := by
  refine ⟨_, rfl, ?_⟩
  have noPass : ∀ call ∈ [Call.setValue "abroad" (.bool true),
      .setAnswer "country" (.text "home")], call ≠ .refresh := by
    simp
  obtain ⟨_, _, _, visible, _, _, _, told⟩ :=
    views_tell_verdicts (@Reachable.ofSpec FormSpec.travel _ rfl) noPass FormSpec.travel
  refine ⟨visible.trans (by decide +kernel), ?_, ?_⟩
  · obtain ⟨_, v, _, _, _, shown, reported, tells, _, lines, written⟩ := told 1 _ rfl
    cases reported
    obtain ⟨unseen, _⟩ := tells.decided _ rfl
    refine ⟨v, shown, written.visible.trans (by rw [unseen]; rfl), ?_⟩
    cases shown
    exact lines.trans (by decide +kernel)
  · obtain ⟨_, v, _, _, _, shown, reported, tells, _, lines, written⟩ := told 3 _ rfl
    cases reported
    obtain ⟨seen, _⟩ := tells.spared _ rfl
    refine ⟨v, shown, written.visible.trans (by rw [seen]), ?_⟩
    cases shown
    exact lines.trans (by decide +kernel)

end FormState

end FormLogic
