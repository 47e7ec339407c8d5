import FormLogic.Proofs.Levels
import Mathlib.Algebra.Group.Nat.Defs

/-!
# Passes in fixed-width memory

A form in memory is a row of controls and a table of the positions of their ids (`Memory`), which is
filled field by field when the form is set up; a pass goes through the row by position and writes each
control in its place; and levels have 32 bits. Here every access and every addition is checked, and
stops the evaluation if there is no control or no room (`Trap`). In the states that a form can be in
nothing ever stops: the checked evaluation and the checked pass come to what the plain ones come to.
-/

namespace FormLogic

/-- What stops an evaluation. -/
inductive Trap where
  /-- There is no control at the position. -/
  | noControl (position : Nat)
  /-- The level below this one does not fit into 32 bits. -/
  | noRoom (level : Nat)
  deriving DecidableEq

/-- What a checked computation comes to. -/
abbrev Checked (α : Type) := Except Trap α

/-! ## Setting up -/

/-- A form in memory. The table may hold several positions for an id, of which the first counts. -/
structure Memory where
  controls : List Control
  table : List (String × Nat)

namespace Memory

/-- Puts the next position into the table under an id, and gives the one that the id had before. -/
def enter (m : Memory) (id : String) : List (String × Nat) × Option Nat :=
  ((id, m.controls.length) :: m.table, m.table.lookup id)

/-- Sets up one more field, unless its id has had a position before. -/
def add (m : Memory) (f : Field) : Except FormError Memory :=
  let (table, before?) := m.enter f.id
  if before?.isSome then .error (.duplicateField f.id)
  else (Control.ofField f).map fun control => { controls := m.controls ++ [control], table }

/-- Sets up the fields of a form, one after the other. -/
def ofSpec (spec : FormSpec) : Except FormError Memory :=
  spec.fields.foldlM add ⟨[], []⟩

/-- A table that leads each id to its position, and no other text anywhere. -/
def Indexed (m : Memory) : Prop :=
  ∀ id, m.table.lookup id = Control.position? m.controls id

variable {m next : Memory} {f : Field}

theorem Indexed.isSome_lookup_iff (indexed : m.Indexed) (id : String) :
    (m.table.lookup id).isSome = true ↔ id ∈ m.controls.map Control.id := by
  rw [indexed id, Control.position?, List.findIdx?_isSome, List.any_eq_true]
  simp [List.mem_map]

theorem Indexed.add_eq (indexed : m.Indexed) (f : Field) :
    m.add f =
      if f.id ∈ m.controls.map Control.id then .error (.duplicateField f.id)
      else (Control.ofField f).map fun c =>
        ⟨m.controls ++ [c], (f.id, m.controls.length) :: m.table⟩ := by
  simp only [add, enter, indexed.isSome_lookup_iff]

/-- The table is kept in step with the row. -/
theorem Indexed.add (indexed : m.Indexed) {c : Control} (sameField : c.field = f)
    (new : f.id ∉ m.controls.map Control.id) :
    Indexed ⟨m.controls ++ [c], (f.id, m.controls.length) :: m.table⟩ := by
  intro id
  have sameId : c.id = f.id := congrArg Field.id sameField
  have fresh : m.table.lookup f.id = none := by
    rw [← Option.not_isSome_iff_eq_none, indexed.isSome_lookup_iff]
    exact new
  rw [Control.position?_append, ← indexed id, List.lookup_cons, sameId]
  by_cases same : id = f.id
  · subst same
    simp [fresh]
  · have other : (id == f.id) = false := beq_eq_false_iff_ne.mpr same
    simp [other, Ne.symm same]

/-- Fields are set up in memory as they are in order, with the table in step; by induction on the fields
that are left. -/
theorem foldlM_add (indexed : m.Indexed) {before : List String}
    (sameIds : ∀ id, id ∈ before ↔ id ∈ m.controls.map Control.id) (fields : List Field) :
    (fields.foldlM Memory.add m).map Memory.controls =
        (Control.ofFields before fields).map (m.controls ++ ·) ∧
      ∀ last, fields.foldlM Memory.add m = .ok last → last.Indexed := by
  induction fields generalizing m before with
  | nil =>
    refine ⟨?_, ?_⟩
    · exact congrArg Except.ok (List.append_nil m.controls).symm
    · rintro _ ⟨⟩
      exact indexed
  | cons f rest ih =>
    rw [List.foldlM_cons, indexed.add_eq, Control.ofFields]
    by_cases repeated : f.id ∈ m.controls.map Control.id
    · have inBefore : before.contains f.id = true := by simpa using (sameIds f.id).mpr repeated
      rw [if_pos repeated, if_pos inBefore]
      exact ⟨rfl, fun _ impossible => by cases impossible⟩
    · have notBefore : ¬ before.contains f.id = true := by
        simpa using fun inBefore => repeated ((sameIds f.id).mp inBefore)
      rw [if_neg repeated, if_neg notBefore]
      cases set : Control.ofField f with
      | error e => exact ⟨rfl, fun _ impossible => by cases impossible⟩
      | ok c =>
        have sameField := (Control.ofField_ok set).1
        have sameIdsNext : ∀ id, id ∈ f.id :: before ↔
            id ∈ (m.controls ++ [c]).map Control.id := by
          intro id
          simp [sameIds, Control.id, sameField, or_comm]
        obtain ⟨sameControls, last⟩ := ih (indexed.add sameField repeated) sameIdsNext
        refine ⟨?_, last⟩
        refine sameControls.trans ?_
        cases Control.ofFields (f.id :: before) rest with
        | error e => rfl
        | ok others => exact congrArg Except.ok (List.append_assoc m.controls [c] others)

/-- A form is set up in memory with the controls that it is opened with, or for the same reason it is
not; and the table leads to them. -/
theorem ofSpec_eq (spec : FormSpec) :
    (ofSpec spec).map (fun m => ⟨m.controls, spec.policy⟩) = FormState.ofSpec spec ∧
      ∀ m, ofSpec spec = .ok m → m.Indexed := by
  have empty : Indexed ⟨[], []⟩ := fun _ => rfl
  have noIds : ∀ id : String, id ∈ [] ↔ id ∈ ([] : List Control).map Control.id := fun _ => Iff.rfl
  obtain ⟨sameControls, indexed⟩ := foldlM_add empty noIds spec.fields
  refine ⟨?_, indexed⟩
  have opened : Control.ofFields [] spec.fields = (ofSpec spec).map controls := by
    rw [ofSpec, sameControls]
    cases Control.ofFields [] spec.fields <;> rfl
  rw [FormState.ofSpec, opened]
  cases ofSpec spec <;> rfl

end Memory

/-! ## Checked evaluation -/

/-- The control at a position, where there has to be one. -/
def controlAt (controls : List Control) (position : Nat) : Checked Control :=
  match controls[position]? with
  | some control => .ok control
  | none => .error (.noControl position)

/-- The level below another one. -/
def levelBelow (level : Nat) : Checked Nat :=
  if level + 1 < 2 ^ 32 then .ok (level + 1) else .error (.noRoom level)

namespace Condition

/-- Evaluates a condition on the control at a position. -/
def evaluateAt (controls : List Control) (position : Nat) (c : Condition) :
    Checked (Except EvalError Evaluation) := do
  let target ← controlAt controls position
  match Operator.ofId? c.operator with
  | none => return .error (.unknownOperator c.operator)
  | some op =>
    let indent ← levelBelow target.indent
    return .ok { Evaluation.ofCondition target op c.literal? with indent }

/-- Evaluates a condition, its target looked up in a table of positions. -/
def evaluateChecked (table : List (String × Nat)) (controls : List Control)
    (origin? : Option Nat) (c : Condition) : Checked (Except EvalError Evaluation) :=
  match table.lookup c.target, origin? with
  | none, _ => .ok (.error (.unresolvedTarget c.target))
  | some position, none => c.evaluateAt controls position
  | some position, some origin =>
    if origin ≤ position then do
      let field ← controlAt controls origin
      return .error (.forwardReference field.id c.target)
    else c.evaluateAt controls position

end Condition

namespace Rule

mutual

/-- Evaluates a rule with every step checked. -/
def evaluateChecked (table : List (String × Nat)) (controls : List Control)
    (origin? : Option Nat) : Rule → Checked (Except EvalError Evaluation)
  | empty => .ok (.ok Evaluation.empty)
  | leaf condition => condition.evaluateChecked table controls origin?
  | group connective operands => do
    let result ← evaluateAllChecked table controls origin? operands
    return result.map (Evaluation.combine connective)

/-- Evaluates operands up to the first that fails. -/
def evaluateAllChecked (table : List (String × Nat)) (controls : List Control)
    (origin? : Option Nat) : List Rule → Checked (Except EvalError (List Evaluation))
  | [] => .ok (.ok [])
  | rule :: rest => do
    match ← evaluateChecked table controls origin? rule with
    | .error e => return .error e
    | .ok evaluation =>
      let others ← evaluateAllChecked table controls origin? rest
      return others.map (evaluation :: ·)

end

end Rule

/-! ## Checked passes -/

/-- A pass comes to a position: the control there is settled in its place. -/
def passAt (table : List (String × Nat)) (pass : List Control × List FieldOutcome)
    (position : Nat) : Checked (List Control × List FieldOutcome) := do
  let control ← controlAt pass.1 position
  let result ← control.field.rule.evaluateChecked table pass.1 (some position)
  return (pass.1.set position (control.settle result), pass.2 ++ [control.outcome result])

/-- A pass through all positions, one after the other. -/
def FormState.refreshChecked (table : List (String × Nat)) (s : FormState) :
    Checked (FormState × Report) := do
  let pass ← (List.range s.controls.length).foldlM (passAt table) (s.controls, [])
  return ({ s with controls := pass.1 }, ⟨pass.2⟩)

/-! ## Nothing stops -/

/-- Controls that can be read without a check: the table leads to them, and there is room below each
level. -/
structure Readable (table : List (String × Nat)) (controls : List Control) : Prop where
  lookup : ∀ id, table.lookup id = Control.position? controls id
  room : ∀ c ∈ controls, c.indent + 1 < 2 ^ 32

theorem controlAt_eq {controls : List Control} {position : Nat} {c : Control}
    (found : controls[position]? = some c) : controlAt controls position = .ok c := by
  rw [controlAt, found]

section

variable {table : List (String × Nat)} {controls : List Control} {o : Option Nat}

theorem Readable.evaluateAt_eq (readable : Readable table controls) {c : Condition}
    {position : Nat} {target : Control} (found : controls[position]? = some target) :
    c.evaluateAt controls position = .ok (match Operator.ofId? c.operator with
      | none => .error (.unknownOperator c.operator)
      | some op => .ok (Evaluation.ofCondition target op c.literal?)) := by
  have room := readable.room target (List.mem_of_getElem? found)
  rw [Condition.evaluateAt, controlAt_eq found, Outcome.ok_bind]
  cases Operator.ofId? c.operator with
  | none => rfl
  | some op =>
    simp only [levelBelow, if_pos room]
    rfl

/-- The table leads only to controls; and what is declared at or after the origin of a rule tells
that there is a control at the origin too. -/
theorem Readable.condition_eq (readable : Readable table controls) (c : Condition) :
    c.evaluateChecked table controls o = .ok (c.evaluate controls o) := by
  simp only [Condition.evaluateChecked, Condition.evaluate, Control.resolve, readable.lookup]
  cases found : Control.position? controls c.target with
  | none => rfl
  | some position =>
    obtain ⟨target, foundTarget, _⟩ := Control.getElem?_of_position? found
    cases o with
    | none =>
      simp only [readable.evaluateAt_eq foundTarget, foundTarget]
      cases Operator.ofId? c.operator <;> rfl
    | some origin =>
      by_cases before : position < origin
      · have notAfter : ¬ origin ≤ position := Nat.not_le.mpr before
        simp only [readable.evaluateAt_eq foundTarget, foundTarget, before, notAfter, if_true,
          if_false]
        cases Operator.ofId? c.operator <;> rfl
      · have after : origin ≤ position := Nat.not_lt.mp before
        have bound : origin < controls.length :=
          Nat.lt_of_le_of_lt after (List.getElem?_eq_some_iff.mp foundTarget).1
        have foundOrigin := List.getElem?_eq_getElem bound
        simp only [foundTarget, before, after, if_true, if_false, controlAt_eq foundOrigin,
          foundOrigin]
        rfl

theorem Readable.rules_eq {operands : List Rule}
    (each : ∀ operand ∈ operands,
      operand.evaluateChecked table controls o = .ok (operand.evaluate controls o)) :
    Rule.evaluateAllChecked table controls o operands =
      .ok (Rule.evaluateAll controls o operands) := by
  induction operands with
  | nil => rfl
  | cons first rest ih =>
    rw [List.forall_mem_cons] at each
    simp only [Rule.evaluateAllChecked, Rule.evaluateAll, each.1, ih each.2, Outcome.ok_bind]
    cases first.evaluate controls o with
    | error e => rfl
    | ok evaluation => cases Rule.evaluateAll controls o rest <;> rfl

/-- The checked evaluation of a rule comes to what the plain one comes to, on behalf of any position
or none. -/
theorem Readable.rule_eq (readable : Readable table controls) (rule : Rule) :
    rule.evaluateChecked table controls o = .ok (rule.evaluate controls o) := by
  induction rule with
  | empty => rfl
  | leaf condition => exact readable.condition_eq condition
  | group connective operands ih =>
    rw [Rule.evaluateChecked, Rule.evaluate, Readable.rules_eq ih]
    rfl

end

/-! ### In place -/

/-- How far a pass in place has come: the controls before a position are as the pass leaves them, the
others as it has found them, and the outcomes are those before the position. -/
structure Halfway (s : FormState) (position : Nat) (pass : List Control × List FieldOutcome) :
    Prop where
  controls : ∀ j, pass.1[j]? = if j < position then s.refreshed.controls[j]? else s.controls[j]?
  outcomes : pass.2 = s.refresh.2.fields.take position

namespace Halfway

variable {s : FormState} {position : Nat} {pass : List Control × List FieldOutcome}
  {table : List (String × Nat)}

theorem ids (halfway : Halfway s position pass) :
    pass.1.map Control.id = s.refreshed.controls.map Control.id := by
  apply List.ext_getElem?
  intro j
  have sameId := congrArg (fun ids : List String => ids[j]?) s.refreshed_solves.ids
  simp only [List.getElem?_map] at sameId ⊢
  rw [halfway.controls j]
  split
  · rfl
  · exact sameId.symm

/-- Halfway through a pass, the controls can be read without a check if they can before it and
after it. -/
theorem readable (halfway : Halfway s position pass) (before : Readable table s.controls)
    (after : Readable table s.refreshed.controls) : Readable table pass.1 where
  lookup id := by rw [after.lookup, Control.position?_congr halfway.ids]
  room c member := by
    obtain ⟨j, found⟩ := List.mem_iff_getElem?.mp member
    rw [halfway.controls j] at found
    split at found
    · exact after.room c (List.mem_of_getElem? found)
    · exact before.room c (List.mem_of_getElem? found)

/-- The pass in place settles the control at a position as the pass in order does. -/
theorem passAt (halfway : Halfway s position pass) (before : Readable table s.controls)
    (after : Readable table s.refreshed.controls) (bound : position < s.controls.length) :
    ∃ next, passAt table pass position = .ok next ∧ Halfway s (position + 1) next := by
  have foundBefore := List.getElem?_eq_getElem bound
  have found : pass.1[position]? = some s.controls[position] := by
    rw [halfway.controls position, if_neg (Nat.lt_irrefl position), foundBefore]
  have settled := s.refreshed_solves.getElem? position
  rw [foundBefore, Option.map_some] at settled
  -- The rule of the control sees the same in place as in the state that the pass leaves.
  have sameResult : s.controls[position].field.rule.evaluate pass.1 (some position) =
      s.controls[position].field.rule.evaluate s.refreshed.controls (some position) := by
    apply Rule.evaluate_eq_of_before _ halfway.ids
    intro j earlier
    rw [halfway.controls j, if_pos earlier]
  let result := s.controls[position].field.rule.evaluate s.refreshed.controls (some position)
  refine ⟨(pass.1.set position (s.controls[position].settle result),
    pass.2 ++ [s.controls[position].outcome result]), ?_, ?_, ?_⟩
  · rw [FormLogic.passAt, controlAt_eq found, Outcome.ok_bind,
      (halfway.readable before after).rule_eq, Outcome.ok_bind, sameResult]
    rfl
  · intro j
    have inPlace : position < pass.1.length := (List.getElem?_eq_some_iff.mp found).1
    rw [List.getElem?_set]
    by_cases here : position = j
    · subst here
      rw [if_pos rfl, if_pos inPlace, if_pos (Nat.lt_succ_self position), settled]
      rfl
    · rw [if_neg here, halfway.controls j]
      have sameSide : j < position + 1 ↔ j < position := by omega
      simp only [sameSide]
  · have outcome : s.refresh.2.fields[position]? = some (s.controls[position].outcome
        (s.controls[position].field.rule.evaluate s.refreshed.controls (some position))) := by
      rw [FormState.refresh_report, List.getElem?_mapIdx, foundBefore]
      rfl
    rw [List.take_add_one, outcome, ← halfway.outcomes]
    rfl

end Halfway

/-- By induction on the positions that are left to go through. -/
theorem Halfway.foldlM {s : FormState} {table : List (String × Nat)}
    (before : Readable table s.controls) (after : Readable table s.refreshed.controls) (n : Nat)
    (bound : n ≤ s.controls.length) :
    ∃ pass, (List.range n).foldlM (FormLogic.passAt table) (s.controls, []) = .ok pass ∧
      Halfway s n pass := by
  induction n with
  | zero => exact ⟨_, rfl, ⟨fun j => by rw [if_neg (Nat.not_lt_zero j)], rfl⟩⟩
  | succ n ih =>
    obtain ⟨pass, passed, halfway⟩ := ih (Nat.le_of_succ_le bound)
    obtain ⟨next, passedHere, further⟩ := halfway.passAt before after bound
    refine ⟨next, ?_, further⟩
    rw [List.range_succ, List.foldlM_append, passed, Outcome.ok_bind, List.foldlM_cons,
      passedHere]
    rfl

end FormLogic
