import FormLogic.Proofs.Intake
import FormLogic.Proofs.Responses

/-!
# Fields appended to a form

A field that is declared after all others changes nothing for them, as rules look back only: each is
shown as before and comes to what it came to before. Only a rule that refers to the new field, which
was unknown, now refers to a field that is declared too late (`EvalError.declaring`). The rule of the
new field itself comes to what an evaluation on behalf of no field gives.
-/

namespace FormLogic

/-- The error of the rule of a field, once a field is declared at the end. -/
def EvalError.declaring (new field : String) : EvalError → EvalError
  | unresolvedTarget target =>
    if target = new then forwardReference field target else unresolvedTarget target
  | other => other

/-- What a pass finds for a field, once another is declared at the end. -/
def FieldOutcome.declaring (new : String) (f : FieldOutcome) : FieldOutcome :=
  { f with outcome := f.outcome.mapError (EvalError.declaring new f.id) }

/-- The form with one more field at the end. -/
def FormSpec.append (spec : FormSpec) (f : Field) : FormSpec :=
  { spec with fields := spec.fields ++ [f] }

/-- The form with one more control at the end. -/
def FormState.append (s : FormState) (c : Control) : FormState :=
  { s with controls := s.controls ++ [c] }

/-! ## Rules -/

namespace Control

variable {cs : List Control} {last c : Control} {k : Nat}

/-- For the fields of a form, a target that is appended to it comes too late. -/
theorem resolve_append (found : cs[k]? = some c) (target : String) :
    resolve (cs ++ [last]) (some k) target =
      (resolve cs (some k) target).mapError (EvalError.declaring last.id c.id) := by
  obtain ⟨bound, _⟩ := List.getElem?_eq_some_iff.mp found
  have sameOrigin : (cs ++ [last])[k]? = some c := by
    rw [List.getElem?_append_left bound, found]
  simp only [resolve, position?_append]
  cases known : position? cs target with
  | none =>
    by_cases same : last.id = target
    · have notBefore : ¬ cs.length < k := Nat.not_lt.mpr (Nat.le_of_lt bound)
      simp [same, notBefore, sameOrigin, Except.mapError, EvalError.declaring]
    · simp [same, Except.mapError, EvalError.declaring, Ne.symm same]
  | some p =>
    obtain ⟨d, foundD, _⟩ := getElem?_of_position? known
    obtain ⟨boundD, _⟩ := List.getElem?_eq_some_iff.mp foundD
    have sameTarget : (cs ++ [last])[p]? = some d := by
      rw [List.getElem?_append_left boundD, foundD]
    by_cases before : p < k
    · simp [sameTarget, foundD, before, Except.mapError]
    · simp [sameTarget, foundD, before, sameOrigin, found, Except.mapError, EvalError.declaring]

/-- For the field that is appended, all others come before. -/
theorem resolve_append_last {target : String} (other : target ≠ last.id) :
    resolve (cs ++ [last]) (some cs.length) target = resolve cs none target := by
  simp only [resolve, position?_append, if_neg (Ne.symm other), Option.or_none]
  cases known : position? cs target with
  | none => rfl
  | some p =>
    obtain ⟨d, foundD, _⟩ := getElem?_of_position? known
    obtain ⟨bound, _⟩ := List.getElem?_eq_some_iff.mp foundD
    simp [List.getElem?_append_left bound, bound]

end Control

theorem Condition.evaluate_append {cs : List Control} {last c : Control} {k : Nat}
    (found : cs[k]? = some c) (condition : Condition) :
    condition.evaluate (cs ++ [last]) (some k) =
      (condition.evaluate cs (some k)).mapError (EvalError.declaring last.id c.id) := by
  simp only [evaluate, Control.resolve_append found]
  cases Control.resolve cs (some k) condition.target with
  | error e => rfl
  | ok target => cases Operator.ofId? condition.operator <;> rfl

namespace Rule

/-- For the fields of a form, a rule comes to the same, but for the error about the field that is
appended. -/
theorem evaluate_append {cs : List Control} {last c : Control} {k : Nat}
    (found : cs[k]? = some c) (rule : Rule) :
    rule.evaluate (cs ++ [last]) (some k) =
      (rule.evaluate cs (some k)).mapError (EvalError.declaring last.id c.id) :=
  evaluate_mapError fun condition _ => condition.evaluate_append found

/-- For the field that is appended, a rule comes to what it comes to on behalf of no field. -/
theorem evaluate_append_last {cs : List Control} {last : Control} {rule : Rule}
    (notOwn : ∀ condition ∈ rule.conditions, condition.target ≠ last.id) :
    rule.evaluate (cs ++ [last]) (some cs.length) = rule.evaluate cs none := by
  apply evaluate_congr
  intro condition inside
  rw [Condition.evaluate, Control.resolve_append_last (notOwn condition inside)]
  rfl

/-- For the field that is appended, it makes no difference whether it has been settled. -/
theorem evaluate_append_settled (cs : List Control) (last : Control)
    (result : Except EvalError Evaluation) (rule : Rule) :
    rule.evaluate (cs ++ [last.settle result]) (some cs.length) =
      rule.evaluate (cs ++ [last]) (some cs.length) := by
  apply evaluate_eq_of_before
  · simp
  · intro k earlier
    rw [List.getElem?_append_left earlier, List.getElem?_append_left earlier]

end Rule

/-! ## Passes -/

namespace Control

@[simp] theorem settle_mapError (c : Control) (result : Except EvalError Evaluation)
    (rename : EvalError → EvalError) : c.settle (result.mapError rename) = c.settle result := by
  cases result <;> rfl

/-- A pass over a form with one more control at the end leaves the others as they are without it, and
settles that control among them. -/
theorem Solves.append {before after : List Control} (solves : Solves before after)
    (last : Control) :
    Solves (before ++ [last]) (after ++ [settleAt (after ++ [last]) after.length last]) := by
  rw [Solves, List.mapIdx_append]
  congr 1
  · apply List.ext_getElem?
    intro k
    have settled := solves.getElem? k
    rw [settled, List.getElem?_mapIdx]
    cases found : before[k]? with
    | none => rfl
    | some c =>
      rw [found, Option.map_some] at settled
      simp only [Option.map_some, settleAt, Rule.evaluate_append settled, settle_mapError]
  · simp only [List.mapIdx_cons, List.mapIdx_nil, Nat.zero_add, ← solves.length, settleAt,
      Rule.evaluate_append_settled]

end Control

namespace FormState

theorem refreshed_append (s : FormState) (last : Control) :
    (s.append last).refreshed = s.refreshed.append
      (Control.settleAt (s.refreshed.controls ++ [last]) s.refreshed.controls.length last) := by
  symm
  exact eq_refreshed (s.refreshed_solves.append last) rfl

/-- What a pass over a form with one more control at the end finds. -/
theorem report_append (s : FormState) (last : Control) :
    (s.append last).refresh.2.fields =
      s.refresh.2.fields.map (FieldOutcome.declaring last.id) ++
        [Control.outcomeAt (s.refreshed.controls ++ [last]) s.refreshed.controls.length last] := by
  have solves := s.refreshed_solves
  rw [refresh_report, refreshed_append, append, append, List.mapIdx_append]
  congr 1
  · apply List.ext_getElem?
    intro k
    have settled := solves.getElem? k
    rw [List.getElem?_map, refresh_report, List.getElem?_mapIdx, List.getElem?_mapIdx]
    cases found : s.controls[k]? with
    | none => rfl
    | some c =>
      rw [found, Option.map_some] at settled
      simp only [Option.map_some, Control.outcomeAt, Rule.evaluate_append settled,
        Control.settleAt, Control.settle_id]
      rfl
  · simp only [List.mapIdx_cons, List.mapIdx_nil, Nat.zero_add, ← solves.length,
      Control.outcomeAt, Control.settleAt, Rule.evaluate_append_settled]

end FormState

/-! ## Forms opened and filled in -/

namespace Control

theorem ofField_total {f : Field} (takesDefault : ∀ j ∈ f.default?, ∃ answer,
    Answer.ofJson f.widget f.choices j = .ok answer) : ∃ c, ofField f = .ok c := by
  simp only [ofField]
  cases declared : f.default? with
  | none => exact ⟨_, rfl⟩
  | some j =>
    obtain ⟨answer, decoded⟩ := takesDefault j declared
    simp only [answerOf, decoded]
    exact ⟨_, rfl⟩

theorem ofFields_append {before : List String} {fields : List Field} {cs : List Control}
    {f : Field} {last : Control} (opened : ofFields before fields = .ok cs)
    (opensLast : ofField f = .ok last) (newBefore : f.id ∉ before)
    (new : f.id ∉ fields.map Field.id) :
    ofFields before (fields ++ [f]) = .ok (cs ++ [last]) := by
  induction fields generalizing before cs with
  | nil =>
    cases opened
    simp only [List.nil_append, ofFields, List.contains_eq_mem, newBefore, decide_false,
      Bool.false_eq_true, if_false, opensLast]
    rfl
  | cons g rest ih =>
    rw [List.map_cons, List.mem_cons, not_or] at new
    simp only [ofFields] at opened
    rw [List.cons_append, ofFields]
    by_cases repeated : before.contains g.id = true
    · rw [if_pos repeated] at opened
      cases opened
    · rw [if_neg repeated] at opened ⊢
      obtain ⟨c, first, opened⟩ := Outcome.bind_eq_ok_iff.mp opened
      obtain ⟨others, opensRest, opened⟩ := Outcome.bind_eq_ok_iff.mp opened
      cases opened
      have newLater : f.id ∉ g.id :: before := by
        rw [List.mem_cons, not_or]
        exact ⟨new.1, newBefore⟩
      simp only [first, ih opensRest newLater new.2]
      rfl

end Control

namespace FormSpec

variable {spec : FormSpec} {f : Field} {entry : Json.Member}

theorem takes_append (takes : spec.takes entry = true) : (spec.append f).takes entry = true := by
  obtain ⟨g, declared, decodes⟩ := declared_of_takes takes
  have declared' : (spec.append f).field? entry.1 = some g := by
    rw [field?, append, List.find?_append]
    exact Option.or_eq_some_iff.mpr (.inl declared)
  rw [FormSpec.takes, declared', Option.any_some, decodes]

theorem ne_of_takes (new : f.id ∉ spec.fields.map Field.id) (takes : spec.takes entry = true) :
    entry.1 ≠ f.id := by
  obtain ⟨g, declared, _⟩ := declared_of_takes takes
  have sameId : g.id = entry.1 := by simpa using List.find?_some declared
  rintro equal
  exact new (equal ▸ sameId ▸ List.mem_map_of_mem (List.mem_of_find?_eq_some declared))

end FormSpec

namespace FormState

/-- Answers that a form takes, it takes with one more field at the end, which none of them is
for. -/
theorem ofAnswers_append {spec : FormSpec} {answers : Json} {s : FormState} {f : Field}
    {last : Control} (accepted : FormState.ofAnswers spec answers = .ok s)
    (new : f.id ∉ spec.fields.map Field.id) (opensLast : Control.ofField f = .ok last) :
    FormState.ofAnswers (spec.append f) answers = .ok (s.append last) := by
  obtain ⟨first, opened, taken⟩ := ofAnswers_ok.mp accepted
  have takes := takes_of_setValues (Kept.ofSpec opened).fields taken
  obtain ⟨setUp, firstPolicy⟩ := ofSpec_ok.mp opened
  have opened' : FormState.ofSpec (spec.append f) = .ok (first.append last) :=
    ofSpec_ok.mpr ⟨Control.ofFields_append setUp opensLast List.not_mem_nil new, firstPolicy⟩
  obtain ⟨t, accepted'⟩ := (Submission.accepted_iff opened' answers).mpr
    fun entry member => FormSpec.takes_append (takes entry member)
  have untouched : last.taking answers.entries = last := by
    have notNamed : last.id ∉ answers.entries.map Prod.fst := by
      rw [Control.id, (Control.ofField_ok opensLast).1]
      intro named
      obtain ⟨entry, member, sameName⟩ := List.mem_map.mp named
      exact FormSpec.ne_of_takes new (takes entry member) sameName
    rw [Control.taking, Control.given?_of_absent notNamed, Option.getD_none]
  have samePolicy : t.policy = s.policy := by
    obtain ⟨first', opened'', taken'⟩ := ofAnswers_ok.mp accepted'
    cases opened'.symm.trans opened''
    exact (setValues_ok taken').1.trans (setValues_ok taken).1.symm
  have sameControls : t.controls = s.controls ++ [last] := by
    rw [ofAnswers_controls opened' accepted', ofAnswers_controls opened accepted, append,
      List.map_append, List.map_singleton, untouched]
  rw [accepted', append, ← sameControls, ← samePolicy]

end FormState

/-! ## Rules that belong to no field -/

/-- The value that tells what a rule comes to. -/
def Rule.told : Except EvalError Evaluation → Json
  | .ok e => .object [("formula", .string e.formula), ("indent_level", .ofNat e.indent),
      ("is_active", .bool e.isActive), ("trace", .string e.trace)]
  | .error e => .object [("error", .string e.message)]

theorem Rule.legible_told {found : Except EvalError Evaluation}
    (few : ∀ e, found = .ok e → e.indent < 2 ^ 64) (room : Nat) :
    (told found).Legible (room + 1) := by
  cases found with
  | ok e => exact Evaluation.legible_toJson (few e rfl) room
  | error e => exact Json.legible_labelled "error" e.message room

/-- The service evaluates a rule on behalf of no field, in the form after a pass, and tells what it
comes to. -/
theorem Service.evaluateRule_eq {id config text ruleText : String} {spec : FormSpec} {rule : Rule}
    {s : FormState} (served : form id config = .ok spec) (read : Rule.ofText? ruleText = some rule)
    (accepted : FormState.ofAnswers spec (answersOfText text) = .ok s) :
    Endpoint.evaluateRule id config text ruleText =
      (Rule.told (rule.evaluate s.refreshed.controls none)).compact := by
  rw [Endpoint.evaluateRule, evaluateRule, served]
  simp only [read, readable, Outcome.ok_bind, accepted, Except.mapError]
  cases rule.evaluate s.refreshed.controls none <;> rfl

namespace FormState

/-- A field at the end is conservative. If its id is new, its rule does not refer to itself and its
default can be taken, then the form with it takes the same answers, a pass leaves all other fields as
they are without it and finds the same for them, but for references to the new field, and the new
field comes to what its rule gives in the form without it. For a rule that belongs to no field the
service answers with this, and the text of the answer is read as the formula, the level, the state and
the trace that the rule comes to, or as the message of its error. -/
theorem append_is_conservative {spec : FormSpec} {answers : Json} {s : FormState} {f : Field}
    (accepted : FormState.ofAnswers spec answers = .ok s)
    (new : f.id ∉ spec.fields.map Field.id)
    (notOwn : ∀ condition ∈ f.rule.conditions, condition.target ≠ f.id)
    (takesDefault : ∀ j ∈ f.default?, ∃ answer, Answer.ofJson f.widget f.choices j = .ok answer) :
    ∃ t last found, FormState.ofAnswers (spec.append f) answers = .ok t ∧
      s.refreshed.controls.map Control.field = spec.fields ∧
      t.refreshed.controls = s.refreshed.controls ++ [last] ∧ last.field = f ∧
      t.refresh.2.fields = s.refresh.2.fields.map (FieldOutcome.declaring f.id) ++ [found] ∧
      found.id = f.id ∧ found.outcome = f.rule.evaluate s.refreshed.controls none ∧
      ∀ id config text rule, Service.form id config = .ok spec → Rule.ofText? rule = some f.rule →
        Service.answersOfText text = answers →
        Endpoint.evaluateRule id config text rule = (Rule.told found.outcome).compact ∧
        (spec.fields.length < 2 ^ 64 →
          Json.valueOfText? (Endpoint.evaluateRule id config text rule) =
            some (Rule.told found.outcome)) := by
  obtain ⟨last, opensLast⟩ := Control.ofField_total takesDefault
  obtain ⟨rfl, _⟩ := Control.ofField_ok opensLast
  have fields := (Kept.ofAnswers accepted).refreshed.fields
  refine ⟨_, _, _, ofAnswers_append accepted new opensLast, fields,
    congrArg controls (s.refreshed_append last), Control.settle_field .., s.report_append last, rfl,
    Rule.evaluate_append_last notOwn, ?_⟩
  intro id config text rule served read given
  have answered := Service.evaluateRule_eq served read (given ▸ accepted)
  rw [Control.outcomeAt, Control.outcome, Rule.evaluate_append_last notOwn]
  refine ⟨answered, ?_⟩
  intro few
  have levels : ∀ e, last.field.rule.evaluate s.refreshed.controls none = .ok e →
      e.indent < 2 ^ 64 := by
    intro e evaluated
    have level := (Reachable.ofAnswers accepted).leveled.refreshed.indent_evaluate_le evaluated
    rw [← fields, List.length_map] at few
    exact Nat.lt_of_le_of_lt level few
  rw [answered]
  exact (Rule.legible_told levels _).valueOfText?_compact

/-- With the price declared at last, the fee of a journey still fails, as the price comes too late for
it; the price itself shows, as the visa does. Of the membership form the service tells what a rule
about the guardian comes to, and that it knows no height. -/
theorem samples_with_fields_appended :
    (∃ t found, FormState.ofAnswers (FormSpec.travel.append ⟨"price", "Price", .number, true, [],
        some (.string "10"), .leaf ⟨"visa", "eq", some (.text "none")⟩⟩)
        (.object [("abroad", .bool true)]) = .ok t ∧
      t.refresh.2.failures = [("fee", .forwardReference "fee" "price")] ∧
      t.refresh.2.fields[4]? = some found ∧ found.id = "price" ∧
      ∃ e, found.outcome = .ok e ∧ e.isActive = true ∧ e.indent = 3) ∧
    Json.valueOfText? (Endpoint.evaluateRule "membership" ""
        "\x7b\"age\":\"16\",\"guardian\":\"Ann\"\x7d"
        "\x7b\"entry\":[\"guardian\",\"eq\",\"Ann\"]\x7d") =
      some (.object [("formula", .string "Guardian name = \"Ann\""), ("indent_level", .ofNat 2),
        ("is_active", .bool true), ("trace", .string "\"Ann\" = \"Ann\"")]) ∧
    Json.valueOfText? (Endpoint.evaluateRule "membership" "" ""
        "\x7b\"entry\":[\"height\",\"c\"]\x7d") =
      some (.object [("error", .string "rule references unknown field 'height'")]) := by
  have ruleOnly (rule : Rule) : ∀ j ∈ (⟨"note", "Note", .singleline, false, [], none, rule⟩ :
      Field).default?, ∃ answer, Answer.ofJson .singleline [] j = .ok answer := by
    intro j declared
    cases declared
  refine ⟨?_, ?_, ?_⟩
  · obtain ⟨t, last, found, accepted, _, _, _, report, sameId, outcome, _⟩ :=
      @append_is_conservative FormSpec.travel (.object [("abroad", .bool true)]) _
        ⟨"price", "Price", .number, true, [], some (.string "10"),
          .leaf ⟨"visa", "eq", some (.text "none")⟩⟩ rfl (by decide)
        (fun condition inside => by rw [List.mem_singleton.mp inside]; decide)
        (fun j declared => by cases declared; exact ⟨_, rfl⟩)
    refine ⟨t, found, accepted, ?_, ?_, sameId, _, outcome, by decide, by decide⟩
    · cases accepted
      rfl
    · rw [report]
      rfl
  · have read : Rule.ofText? "\x7b\"entry\":[\"guardian\",\"eq\",\"Ann\"]\x7d" =
        some (.leaf ⟨"guardian", "eq", some (.text "Ann")⟩) := by
      unfold Rule.ofText? Json.ofText? Json.ofTextKnowing?
      simp only [id_eq]
      cbv
    have given : Service.answersOfText "\x7b\"age\":\"16\",\"guardian\":\"Ann\"\x7d" =
        .object [("age", .string "16"), ("guardian", .string "Ann")] := by
      unfold Service.answersOfText Json.valueOfText? Json.ofText? Json.ofTextKnowing?
      simp only [id_eq]
      cbv
    obtain ⟨t, last, found, _, _, _, _, _, _, outcome, told⟩ :=
      @append_is_conservative FormSpec.membership
        (.object [("age", .string "16"), ("guardian", .string "Ann")]) _
        ⟨"note", "Note", .singleline, false, [], none,
          .leaf ⟨"guardian", "eq", some (.text "Ann")⟩⟩ rfl (by decide)
        (fun condition inside => by rw [List.mem_singleton.mp inside]; decide) (ruleOnly _)
    have comes : found.outcome =
        .ok ⟨"Guardian name = \"Ann\"", "\"Ann\" = \"Ann\"", true, 2⟩ := by
      rw [outcome]
      decide +kernel
    rw [(told "membership" "" _ _ rfl read given).2 (by decide), comes]
    rfl
  · have read : Rule.ofText? "\x7b\"entry\":[\"height\",\"c\"]\x7d" =
        some (.leaf ⟨"height", "c", none⟩) := by
      unfold Rule.ofText? Json.ofText? Json.ofTextKnowing?
      simp only [id_eq]
      cbv
    obtain ⟨t, last, found, _, _, _, _, _, _, outcome, told⟩ :=
      @append_is_conservative FormSpec.membership (.object []) _
        ⟨"note", "Note", .singleline, false, [], none, .leaf ⟨"height", "c", none⟩⟩ rfl (by decide)
        (fun condition inside => by rw [List.mem_singleton.mp inside]; decide) (ruleOnly _)
    rw [(told "membership" "" "" _ rfl read rfl).2 (by decide), outcome]
    rfl

end FormState

end FormLogic
