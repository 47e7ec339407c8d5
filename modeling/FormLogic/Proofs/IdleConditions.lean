import FormLogic.Proofs.Answering
import FormLogic.Proofs.Intake
import FormLogic.Proofs.IssuePlaces
import FormLogic.Proofs.SuitedAnswers

/-!
# Conditions that never react

The checker warns about conditions that lack a literal and about literals that name no option of
the target. Such a condition does not react to what is filled in: as widgets hold what suits them, a
key of no option is never picked, and a question about it always has the same answer
(`warned_conditions_idle`).
-/

namespace FormLogic

/-! ## Keys that are not picked -/

namespace FieldValue

/-- Picked options that a key is not one of. -/
inductive Unpicked (key : String) : FieldValue → Prop where
  | choice {picked : Option String} (other : picked ≠ some key) : Unpicked key (.choice picked)
  | choices {picked : KeySet} (absent : key ∉ picked) : Unpicked key (.choices picked)

/-- A key of no option is not picked in a widget that holds what suits it. -/
theorem unpicked_of_suits {w : Widget} {optionCount : Nat} {a : Answer} {key : String}
    (suits : a.Suits w optionCount) (offers : w.hasChoices = true)
    (noOption : ∀ position < optionCount, choiceKey position ≠ key) :
    (ofAnswer w a).Unpicked key := by
  have notPicked (flags : List Bool) (length : flags.length = optionCount) :
      key ∉ pickedKeys 0 flags := by
    intro picked
    obtain ⟨index, set, key⟩ := mem_pickedKeys_iff.mp picked
    rw [Nat.zero_add] at key
    have bound := (List.getElem?_eq_some_iff.mp set).1
    exact noOption index (length ▸ bound) key
  cases suits with
  | text kind =>
    rcases kind with kind | kind | kind <;>
      simp [Widget.hasChoices, kind, ValueKind.isChoice] at offers
  | checked kind => simp [Widget.hasChoices, kind, ValueKind.isChoice] at offers
  | @one flags kind length atMostOne =>
    simp only [ofAnswer, kind]
    exact .choice fun first => notPicked flags length (List.mem_of_head? first)
  | @several flags kind length =>
    simp only [ofAnswer, kind]
    exact .choices fun picked => notPicked flags length (KeySet.mem_ofList.mp picked)

namespace Unpicked

variable {key : String} {value : FieldValue}

theorem isAmong?_ne_true {keys : List String} (unpicked : ∀ key ∈ keys, value.Unpicked key) :
    value.isAmong? keys ≠ some true := by
  intro among
  cases value with
  | text typed =>
    have names : typed ∈ keys := by simpa [isAmong?] using among
    cases unpicked typed names
  | choice picked =>
    obtain ⟨key, rfl, names⟩ : ∃ key, picked = some key ∧ key ∈ keys := by
      simpa [isAmong?, Option.any_eq_true] using among
    cases unpicked key names with
    | choice other => exact other rfl
  | choices picked =>
    obtain ⟨key, isPicked, names⟩ : ∃ key ∈ picked.toList, key ∈ keys := by
      simpa [isAmong?] using among
    cases unpicked key names with
    | choices absent => exact absent isPicked
  | number value | timestamp seconds | checked value | notComparable => cases among

theorem equals?_text (unpicked : value.Unpicked key) : value.equals? (.text key) = some false := by
  cases unpicked with
  | choice other =>
    rw [equals?, beq_eq_false_iff_ne.mpr other]
  | @choices picked absent =>
    have different : picked ≠ KeySet.ofList [key] := by
      rintro rfl
      exact absent (KeySet.mem_ofList.mpr List.mem_cons_self)
    rw [equals?, beq_eq_false_iff_ne.mpr different]

theorem contains?_text (unpicked : value.Unpicked key) :
    value.contains? (.text key) = some false := by
  cases unpicked with
  | choice other => rw [contains?, beq_eq_false_iff_ne.mpr other]
  | choices absent => rw [contains?, decide_eq_false absent]

theorem memberOf?_text (unpicked : value.Unpicked key) :
    value.memberOf? (.text key) = some false := by
  have notAmong : value.isAmong? [key] ≠ some true :=
    isAmong?_ne_true (List.forall_mem_singleton.mpr unpicked)
  obtain ⟨answer, answered⟩ : ∃ answer, value.isAmong? [key] = some answer := by
    cases unpicked <;> exact ⟨_, rfl⟩
  rw [answered] at notAmong
  rw [memberOf?, answered, Option.some.injEq]
  exact Bool.eq_false_iff.mpr fun holds => notAmong (congrArg some holds)

end Unpicked

end FieldValue

namespace Operator

/-- The operators that hold of options where a text names none of those picked. -/
def isDenial : Operator → Bool
  | notEqual | isNot | lacks | noneOf => true
  | _ => false

/-- Against a key that is not picked, an operator holds if it denies, whatever is picked. -/
theorem holds_of_unpicked {value : FieldValue} {key : String} (unpicked : value.Unpicked key)
    (op : Operator) : op.holds value (some (.text key)) = op.isDenial := by
  have unordered : value.isOrdered = false := by
    cases unpicked <;> rfl
  have unchecked : value.checked? = none := by
    cases unpicked <;> rfl
  cases op with
  | equal | notEqual | is | isNot =>
    rw [holds, Option.bind_some, unpicked.equals?_text]
    rfl
  | contains | lacks =>
    rw [holds, Option.bind_some, unpicked.contains?_text]
    rfl
  | oneOf | noneOf =>
    rw [holds, Option.bind_some, unpicked.memberOf?_text]
    rfl
  | checked | unchecked =>
    rw [holds, unchecked]
    rfl
  | lower | lowerOrEqual | upper | upperOrEqual | before | beforeOrEqual | after | afterOrEqual =>
    exact holds_of_not_isOrdered rfl unordered _

theorem oneOf_holds_of_unpicked {value : FieldValue} {keys : List String}
    (unpicked : ∀ key ∈ keys, value.Unpicked key) :
    oneOf.holds value (some (.list keys)) = false := by
  rw [holds, Option.bind_some, FieldValue.memberOf?]
  exact beq_eq_false_iff_ne.mpr (FieldValue.Unpicked.isAmong?_ne_true unpicked)

theorem holds_none {op : Operator} (needed : op.standsAlone = false) (value : FieldValue) :
    op.holds value none = false := by
  rw [holds_eq, answer?_none needed]
  rfl

end Operator

/-! ## What reports tell of a condition -/

namespace FormSpec

/-- A fault is reported at a place. -/
def FaultAt (s : FormSpec) (place : Json.Pointer) (fault : Fault) : Prop :=
  ∃ issue ∈ s.issues, issue.path.text = place.text ∧ issue.fault = fault

instance (s : FormSpec) (place : Json.Pointer) (fault : Fault) :
    Decidable (s.FaultAt place fault) :=
  inferInstanceAs
    (Decidable (∃ issue ∈ s.issues, issue.path.text = place.text ∧ issue.fault = fault))

variable {s : FormSpec} {index : Nat} {f : Field} {path : Json.Pointer} {c : Condition}

/-- What is reported at the place of a condition, and is a fault of conditions, is its fault. -/
theorem FaultAt.atFault {fault : Fault}
    (reported : s.FaultAt (Check.rulePath index ++ path) fault)
    (found : s.fields[index]? = some f) (placed : (path, c) ∈ f.rule.located)
    (notOfField : fault ≠ .duplicateField)
    (notOfGroup : ∀ connective, fault ≠ .emptyGroup connective) : Check.AtFault s index c fault := by
  obtain ⟨⟨_, issuePath, _⟩, inIssues, sameText, rfl⟩ := reported
  obtain ⟨_, _, _, foundG, _, _, marked⟩ := marked_of_mem_issues inIssues
  cases marked with
  | repeated again => exact absurd rfl notOfField
  | noOperands => exact absurd rfl (notOfGroup _)
  | condition placed' faulty =>
    obtain ⟨rfl, rfl⟩ := condition_unique foundG placed' found placed sameText
    exact faulty

end FormSpec

/-! ## Idle conditions -/

/-- A form for passengers: the blind is asked about by the window, and each condition on the seat is
mistaken. -/
def FormSpec.flight : FormSpec where
  id := "flight"
  title := "Flight"
  version := "1"
  description? := none
  policy? := none
  fields := [
    ⟨"seat", "Seat", .radio, false, ["Aisle", "Window"], none, .empty⟩,
    ⟨"blind", "Blind", .checkbox, false, [], none, .group .or [
      .leaf ⟨"seat", "eq", none⟩,
      .leaf ⟨"seat", "neq", some (.text "c3")⟩,
      .leaf ⟨"seat", "in", some (.list ["window", "c3"])⟩]⟩]

namespace FormState

variable {spec : FormSpec} {s : FormState} {origin? : Option Nat} {c : Condition} {e : Evaluation}

/-- An evaluated condition has its target among the controls. -/
theorem exists_of_evaluate (evaluated : c.evaluate s.controls origin? = .ok e) :
    ∃ target op, s.control? c.target = some target ∧ Operator.ofId? c.operator = some op ∧
      e.isActive = (op.holds target.value c.literal? && target.active) := by
  obtain ⟨target, op, resolved, known, rfl⟩ := Condition.evaluate_ok evaluated
  obtain ⟨k, position, found, _⟩ := Control.resolve_ok resolved
  exact ⟨target, op, control?_of_getElem? position found, known, rfl⟩

/-- A key that is reported as unknown is not picked in the target. -/
theorem Entered.unpicked {index : Nat} {key id : String} {target : Control}
    (entered : Entered spec s) (found : s.control? c.target = some target)
    (faulty : Check.AtFault spec index c (.unknownChoice key id)) :
    target.value.Unpicked key := by
  cases faulty with
  | @choice g literal key declared offers compared names noOption =>
    have declares := map_field_control? entered.reachable.kept.fields c.target
    rw [found, declared, Option.map_some, Option.some.injEq] at declares
    subst declares
    have suited := entered.suited target (List.mem_of_find?_eq_some found)
    exact FieldValue.unpicked_of_suits suited offers noOption

/-- A condition that lacks its literal is not active, whatever the target holds. -/
theorem inactive_of_missingValue {index : Nat} {op : Operator}
    (faulty : Check.AtFault spec index c (.missingValue op))
    (evaluated : c.evaluate s.controls origin? = .ok e) : e.isActive = false := by
  obtain ⟨target, op', _, known, active⟩ := exists_of_evaluate evaluated
  cases faulty with
  | noLiteral known' nothing needed =>
    rw [known, Option.some.injEq] at known'
    subst known'
    rw [active, nothing, Operator.holds_none needed, Bool.false_and]

/-- A condition with a text that is no option tells only whether its target is active, if that. -/
theorem Entered.isActive_of_unknownChoice {index : Nat} {text key id : String}
    (entered : Entered spec s) (compared : c.literal? = some (.text text))
    (faulty : Check.AtFault spec index c (.unknownChoice key id))
    (evaluated : c.evaluate s.controls origin? = .ok e) :
    ∃ target op, s.control? c.target = some target ∧ Operator.ofId? c.operator = some op ∧
      e.isActive = (op.isDenial && target.active) := by
  obtain ⟨target, op, found, known, active⟩ := exists_of_evaluate evaluated
  have unpicked := entered.unpicked found faulty
  cases faulty with
  | choice declared offers compared' names noOption =>
    rw [compared, Option.some.injEq] at compared'
    subst compared'
    cases List.mem_singleton.mp names
    refine ⟨target, op, found, known, ?_⟩
    rw [active, compared, Operator.holds_of_unpicked unpicked]

/-- A condition that asks for one of a list without any option is not active. -/
theorem Entered.inactive_of_unknownChoices {index : Nat} {keys : List String}
    (entered : Entered spec s) (operator : c.operator = Operator.oneOf.id)
    (compared : c.literal? = some (.list keys))
    (faulty : ∀ key ∈ keys, Check.AtFault spec index c (.unknownChoice key c.target))
    (evaluated : c.evaluate s.controls origin? = .ok e) : e.isActive = false := by
  obtain ⟨target, op, found, known, active⟩ := exists_of_evaluate evaluated
  rw [operator, Operator.ofId?_id, Option.some.injEq] at known
  subst known
  have unpicked : ∀ key ∈ keys, target.value.Unpicked key := fun key names =>
    entered.unpicked found (faulty key names)
  rw [active, compared, Operator.oneOf_holds_of_unpicked unpicked, Bool.false_and]

/-- Conditions that are warned about do not react to what is filled in. In a form with answers in
JSON every widget holds what suits it, which can be compared with but for a number or a date that
cannot be read. A condition reported to lack a literal is not active. One with a text that is
reported as no option is active if its operator denies and its target is active, and otherwise not.
One that asks for one of a list, all of it reported as no options, is not active. -/
theorem warned_conditions_idle (entered : Entered spec s) :
    (∀ c ∈ s.controls, c.Suited ∧
      (c.value = .notComparable ↔ c.answer.Unreadable c.field.widget)) ∧
    ∀ index f path c, spec.fields[index]? = some f → (path, c) ∈ f.rule.located →
      ∀ origin? e, c.evaluate s.controls origin? = .ok e →
        (∀ op, spec.FaultAt (Check.rulePath index ++ path) (.missingValue op) →
          e.isActive = false) ∧
        (∀ text key id, c.literal? = some (.text text) →
          spec.FaultAt (Check.rulePath index ++ path) (.unknownChoice key id) →
          ∃ target op, s.control? c.target = some target ∧ Operator.ofId? c.operator = some op ∧
            e.isActive = (op.isDenial && target.active)) ∧
        (∀ keys, c.operator = Operator.oneOf.id → c.literal? = some (.list keys) →
          (∀ key ∈ keys,
            spec.FaultAt (Check.rulePath index ++ path) (.unknownChoice key c.target)) →
          e.isActive = false) := by
  constructor
  · intro c member
    have suited := entered.suited c member
    exact ⟨suited, suited.ofAnswer_eq_notComparable_iff⟩
  · intro index f path c found placed origin? e evaluated
    refine ⟨?_, ?_, ?_⟩
    · intro op reported
      have faulty := reported.atFault found placed (by simp) (by simp)
      exact inactive_of_missingValue faulty evaluated
    · intro text key id compared reported
      have faulty := reported.atFault found placed (by simp) (by simp)
      exact entered.isActive_of_unknownChoice compared faulty evaluated
    · intro keys operator compared reported
      have faulty : ∀ key ∈ keys, Check.AtFault spec index c (.unknownChoice key c.target) :=
        fun key names => (reported key names).atFault found placed (by simp) (by simp)
      exact entered.inactive_of_unknownChoices operator compared faulty evaluated

/-- Of a passenger by the window, one condition lacks what it compares the seat with, one denies a
seat that there is not, and one asks for seats by what are not their keys. The second is active, the
others are not. -/
theorem flight_idle :
    ∃ s, Entered FormSpec.flight s ∧
      (∃ e, Condition.evaluate s.controls none ⟨"seat", "eq", none⟩ = .ok e ∧
        e.isActive = false) ∧
      (∃ e, Condition.evaluate s.controls none ⟨"seat", "neq", some (.text "c3")⟩ = .ok e ∧
        e.isActive = true) ∧
      (∃ e, Condition.evaluate s.controls none ⟨"seat", "in", some (.list ["window", "c3"])⟩ =
        .ok e ∧ e.isActive = false) := by
  obtain ⟨s, filled⟩ : ∃ s, FormState.ofAnswers FormSpec.flight
      (.object [("seat", .string "Window")]) = .ok s := ⟨_, rfl⟩
  have entered : Entered FormSpec.flight s.refreshed := .refresh (.ofAnswers filled)
  obtain ⟨_, idle⟩ := warned_conditions_idle entered
  cases filled
  refine ⟨_, entered, ⟨_, rfl, ?_⟩, ⟨_, rfl, ?_⟩, ⟨_, rfl, ?_⟩⟩
  · have noLiteral := (idle 1 _ [.name "or", .index 0, .name "entry"] ⟨"seat", "eq", none⟩ rfl
      (by decide) none _ rfl).1
    exact noLiteral .equal (by decide)
  · have denial := (idle 1 _ [.name "or", .index 1, .name "entry"]
      ⟨"seat", "neq", some (.text "c3")⟩ rfl (by decide) none _ rfl).2.1
    obtain ⟨target, op, found, known, active⟩ := denial "c3" "c3" "seat" rfl (by decide)
    cases found
    cases known
    exact active
  · have among := (idle 1 _ [.name "or", .index 2, .name "entry"]
      ⟨"seat", "in", some (.list ["window", "c3"])⟩ rfl (by decide) none _ rfl).2.2
    exact among ["window", "c3"] rfl rfl (by decide)

end FormState

end FormLogic
