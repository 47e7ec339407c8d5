import FormLogic.Proofs.Intake

/-!
# Answers given again

An answer for a field replaces the earlier ones for it and leaves those of the other fields alone. So
entries that are taken one after the other come to the same as the entries of an object with their
names, which holds for each name the value that was given last.
-/

namespace FormLogic

/-! ## Last values -/

namespace Json

theorem lookup_cons_of_ne {name wanted : String} (other : wanted ≠ name) (value : Json)
    (members : List Member) : ((name, value) :: members).lookup wanted = members.lookup wanted := by
  rw [List.lookup_cons, beq_eq_false_iff_ne.mpr other]

theorem lookup_eq_none_of_before {members : List Member} {name : String}
    (before : ∀ name' ∈ members.map Prod.fst, name < name') : members.lookup name = none := by
  rw [List.lookup_eq_none_iff]
  intro entry member
  have smaller := before entry.1 (List.mem_map_of_mem member)
  rw [bne_iff_ne]
  rintro rfl
  exact String.lt_irrefl _ smaller

theorem lookup_cons_of_lt {name name' : String} {value : Json} {rest : List Member}
    (before : name < name') (sorted : (((name', value) :: rest).map Prod.fst).Pairwise (· < ·)) :
    ((name', value) :: rest).lookup name = none := by
  rw [List.map_cons, List.pairwise_cons] at sorted
  apply lookup_eq_none_of_before
  rw [List.map_cons, List.forall_mem_cons]
  exact ⟨before, fun later member => String.lt_trans before (sorted.1 later member)⟩

/-- A member is sorted in for a name that has none yet, and nothing changes for the other names. -/
theorem lookup_insertIfNew {members : List Member} (name : String) (value : Json)
    (sorted : (members.map Prod.fst).Pairwise (· < ·)) (wanted : String) :
    (insertIfNew name value members).lookup wanted =
      (members.lookup wanted).or (if wanted = name then some value else none) := by
  induction members with
  | nil =>
    rw [insertIfNew]
    by_cases same : wanted = name
    · simp [same]
    · simp [lookup_cons_of_ne same, same]
  | cons first rest ih =>
    obtain ⟨name', value'⟩ := first
    rw [insertIfNew]
    by_cases before : name < name'
    · rw [if_pos before]
      by_cases same : wanted = name
      · subst same
        simp [lookup_cons_of_lt before sorted]
      · simp [lookup_cons_of_ne same, same]
    · rw [if_neg before]
      by_cases repeated : name = name'
      · subst repeated
        rw [if_pos rfl, List.lookup_cons]
        by_cases same : wanted = name
        · simp [same]
        · simp [same]
      · rw [if_neg repeated, List.lookup_cons, List.lookup_cons, ih (List.Pairwise.of_cons sorted)]
        cases wanted == name' <;> rfl

/-- A member that is put in counts for its name, and nothing changes for the other names. -/
theorem lookup_insert (name : String) (value : Json) (members : List Member) (wanted : String) :
    (insert name value members).lookup wanted =
      if wanted = name then some value else members.lookup wanted := by
  induction members with
  | nil =>
    rw [insert]
    by_cases same : wanted = name
    · simp [same]
    · simp [lookup_cons_of_ne same, same]
  | cons first rest ih =>
    obtain ⟨name', value'⟩ := first
    rw [insert]
    by_cases same : wanted = name
    · subst same
      rw [if_pos rfl] at ih ⊢
      split
      · rw [List.lookup_cons_self]
      · split
        · rw [List.lookup_cons_self]
        · next other => rw [lookup_cons_of_ne other, ih]
    · rw [if_neg same] at ih ⊢
      split
      · rw [lookup_cons_of_ne same]
      · split
        · next repeated =>
          rw [lookup_cons_of_ne same, lookup_cons_of_ne (repeated ▸ same)]
        · rw [List.lookup_cons, List.lookup_cons, ih]

/-- Sorted members that hold the same under each name are the same. -/
theorem eq_of_lookup_eq {members others : List Member}
    (sorted : (members.map Prod.fst).Pairwise (· < ·))
    (sortedOthers : (others.map Prod.fst).Pairwise (· < ·))
    (same : ∀ name, members.lookup name = others.lookup name) : members = others := by
  induction members generalizing others with
  | nil =>
    cases others with
    | nil => rfl
    | cons first rest =>
      have found := same first.1
      rw [List.lookup_cons_self] at found
      cases found
  | cons first rest ih =>
    obtain ⟨name, value⟩ := first
    cases others with
    | nil =>
      have found := same name
      rw [List.lookup_cons_self] at found
      cases found
    | cons second rest' =>
      obtain ⟨name', value'⟩ := second
      have sameName : name = name' := by
        rcases Std.lt_trichotomy name name' with before | equal | before
        · have found := same name
          rw [List.lookup_cons_self, lookup_cons_of_lt before sortedOthers] at found
          cases found
        · exact equal
        · have found := same name'
          rw [List.lookup_cons_self, lookup_cons_of_lt before sorted] at found
          cases found
      subst sameName
      rw [List.map_cons, List.pairwise_cons] at sorted sortedOthers
      have sameValue := same name
      rw [List.lookup_cons_self, List.lookup_cons_self] at sameValue
      have sameRest : rest = rest' := by
        apply ih sorted.2 sortedOthers.2
        intro wanted
        by_cases here : wanted = name
        · rw [here, lookup_eq_none_of_before sorted.1, lookup_eq_none_of_before sortedOthers.1]
        · rw [← lookup_cons_of_ne here value, same wanted, lookup_cons_of_ne here]
      rw [Option.some.inj sameValue, sameRest]

/-- Among the entries of an object, a name has the value that is given for it last. -/
theorem lookup_sortMembers (members : List Member) (wanted : String) :
    (sortMembers members).lookup wanted =
      ((members.filter fun member => member.1 == wanted).getLast?).map Prod.snd := by
  induction members with
  | nil => rfl
  | cons first rest ih =>
    obtain ⟨name, value⟩ := first
    rw [sortMembers, lookup_insertIfNew name value (pairwise_sortMembers rest), ih,
      List.filter_cons]
    by_cases same : name = wanted
    · subst same
      simp only [beq_self_eq_true, if_true, List.getLast?_cons]
      cases (rest.filter fun member => member.1 == name).getLast? <;> rfl
    · simp [same, Ne.symm same]

end Json

/-! ## Single answers -/

namespace Control

theorem taking_comm {id id' : String} (apart : id ≠ id') (j j' : Json) (c : Control) :
    (c.taking [(id, j)]).taking [(id', j')] = (c.taking [(id', j')]).taking [(id, j)] := by
  rw [taking_cons (by simpa using apart), taking_cons (by simpa using apart.symm)]
  apply taking_congr
  by_cases same : c.id = id
  · rw [same, Json.lookup_cons_of_ne apart, List.lookup_cons_self, List.lookup_cons_self]
  · by_cases same' : c.id = id'
    · rw [same', Json.lookup_cons_of_ne apart.symm, List.lookup_cons_self, List.lookup_cons_self]
    · simp only [Json.lookup_cons_of_ne same, Json.lookup_cons_of_ne same']

/-- A control that can take the later answer does not remember the earlier one. -/
theorem taking_taking {id : String} {j' : Json} {c : Control}
    (decodes : c.id = id → ∃ answer, answerOf c.field j' = .ok answer) (j : Json) :
    (c.taking [(id, j)]).taking [(id, j')] = c.taking [(id, j')] := by
  by_cases same : c.id = id
  · obtain ⟨answer, decoded⟩ := decodes same
    have given : c.given? [(id, j')] = some answer := by
      rw [given?, same, List.lookup_cons_self, Option.bind_some, decoded]
      rfl
    have givenAgain : (c.taking [(id, j)]).given? [(id, j')] = some answer := given
    rw [taking, givenAgain, taking, taking, given]
    rfl
  · have absent (value : Json) : c.taking [(id, value)] = c := by
      rw [taking, given?_of_absent (by simpa using same)]
      rfl
    rw [absent j, absent j']

end Control

namespace FormState

variable {spec : FormSpec} {s t : FormState}

theorem Kept.field?_of_mem (kept : Kept spec s) {c : Control} {id : String} (member : c ∈ s.controls)
    (same : c.id = id) : spec.field? id = some c.field := by
  have declared : c.field ∈ spec.fields := kept.fields ▸ List.mem_map_of_mem member
  have distinct : (spec.fields.map Field.id).Nodup := kept.ids ▸ kept.distinct
  cases found : spec.field? id with
  | none =>
    rw [FormSpec.field?, List.find?_eq_none] at found
    exact absurd (beq_iff_eq.mpr same) (found c.field declared)
  | some f =>
    have sameId : f.id = id := by simpa using List.find?_some found
    have sameId : f.id = c.field.id := sameId.trans same.symm
    have equal := List.inj_on_of_nodup_map distinct (List.mem_of_find?_eq_some found) declared sameId
    rw [equal]

/-- A field that takes a value holds it afterwards; nothing else changes. -/
theorem Kept.setValue_eq_ok_iff (kept : Kept spec s) {id : String} {j : Json} :
    s.setValue id j = .ok t ↔
      spec.takes (id, j) = true ∧ t = ⟨s.controls.map (Control.taking [(id, j)]), s.policy⟩ := by
  have changes {t : FormState} (taken : s.setValue id j = .ok t) :
      t = ⟨s.controls.map (Control.taking [(id, j)]), s.policy⟩ := by
    have controls := setValue_controls kept.distinct taken
    obtain ⟨_, _, _, _, put⟩ := setValue_ok.mp taken
    cases t
    rw [mk.injEq]
    exact ⟨controls, (setAnswer_ok put).1⟩
  constructor
  · intro taken
    have alone : s.setValues [(id, j)] = .ok t := setValues_cons_ok.mpr ⟨t, taken, rfl⟩
    exact ⟨takes_of_setValues kept.fields alone _ (List.mem_singleton_self _), changes taken⟩
  · rintro ⟨takes, rfl⟩
    obtain ⟨f, declared, decodes⟩ := FormSpec.declared_of_takes takes
    rw [← map_field_control? kept.fields, Option.map_eq_some_iff] at declared
    obtain ⟨c, found, rfl⟩ := declared
    obtain ⟨answer, decoded⟩ := Outcome.isOk_iff.mp decodes
    obtain ⟨t, put⟩ := setAnswer_total found answer
    have taken : s.setValue id j = .ok t := setValue_ok.mpr ⟨c, answer, found, decoded, put⟩
    rw [taken, changes taken]

/-- Answers for two fields can be given in either order. -/
theorem Kept.setValue_comm (kept : Kept spec s) {id id' : String} {j j' : Json} {next : FormState}
    (apart : id ≠ id') (first : s.setValue id j = .ok next) (second : next.setValue id' j' = .ok t) :
    ∃ other, s.setValue id' j' = .ok other ∧ other.setValue id j = .ok t := by
  have takesSecond := ((kept.setValue first).setValue_eq_ok_iff.mp second).1
  have other := kept.setValue_eq_ok_iff.mpr ⟨takesSecond, rfl⟩
  refine ⟨_, other, (kept.setValue other).setValue_eq_ok_iff.mpr ⟨?_, ?_⟩⟩
  · exact (kept.setValue_eq_ok_iff.mp first).1
  · rw [((kept.setValue first).setValue_eq_ok_iff.mp second).2,
      (kept.setValue_eq_ok_iff.mp first).2, List.map_map, List.map_map]
    congr 2
    funext c
    exact Control.taking_comm apart j j' c

/-- Of two answers for a field the later one counts. -/
theorem Kept.setValue_setValue (kept : Kept spec s) {id : String} {j j' : Json} {next : FormState}
    (first : s.setValue id j = .ok next) (second : next.setValue id j' = .ok t) :
    s.setValue id j' = .ok t := by
  obtain ⟨takes, rfl⟩ := (kept.setValue first).setValue_eq_ok_iff.mp second
  rw [kept.setValue_eq_ok_iff]
  refine ⟨takes, ?_⟩
  rw [(kept.setValue_eq_ok_iff.mp first).2, List.map_map]
  congr 1
  apply List.map_congr_left
  intro c member
  apply Control.taking_taking
  intro same
  obtain ⟨f, declared, decodes⟩ := FormSpec.declared_of_takes takes
  have sameField := Option.some.inj (declared.symm.trans (kept.field?_of_mem member same))
  rw [sameField] at decodes
  exact Outcome.isOk_iff.mp decodes

/-! ## Entries in a row -/

/-- An entry is taken ahead of others just as well when it is sorted in among them, or left out where
they give the field another value. -/
theorem Kept.setValues_insertIfNew (kept : Kept spec s) {id : String} {j : Json}
    {next : FormState} {members : List Json.Member} (first : s.setValue id j = .ok next)
    (others : next.setValues members = .ok t) :
    s.setValues (Json.insertIfNew id j members) = .ok t := by
  induction members generalizing s next with
  | nil => exact setValues_cons_ok.mpr ⟨next, first, others⟩
  | cons entry rest ih =>
    obtain ⟨id', j'⟩ := entry
    rw [Json.insertIfNew]
    by_cases before : id < id'
    · rw [if_pos before]
      exact setValues_cons_ok.mpr ⟨next, first, others⟩
    · rw [if_neg before]
      obtain ⟨afterBoth, second, remaining⟩ := setValues_cons_ok.mp others
      by_cases same : id = id'
      · subst same
        rw [if_pos rfl]
        exact setValues_cons_ok.mpr ⟨afterBoth, kept.setValue_setValue first second, remaining⟩
      · rw [if_neg same]
        obtain ⟨other, ahead, after⟩ := kept.setValue_comm same first second
        exact setValues_cons_ok.mpr ⟨other, ahead, ih (kept.setValue ahead) after remaining⟩

/-- Entries that are taken in a row come to the entries of the object that they make. -/
theorem Kept.setValues_sortMembers (kept : Kept spec s) {members : List Json.Member}
    (taken : s.setValues members = .ok t) : s.setValues (Json.sortMembers members) = .ok t := by
  induction members generalizing s with
  | nil => exact taken
  | cons entry rest ih =>
    obtain ⟨id, j⟩ := entry
    obtain ⟨next, first, others⟩ := setValues_cons_ok.mp taken
    exact kept.setValues_insertIfNew first (ih (kept.setValue first) others)

end FormState

end FormLogic
