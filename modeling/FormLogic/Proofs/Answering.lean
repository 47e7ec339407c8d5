import FormLogic.Operator.Basic

/-!
# Operators as questions

Each operator puts a question to a value and a literal, and holds if the answer is the one that it
waits for, yes or no. An operator and its opposite put one question and wait for different answers.
Where there is no answer, neither of them holds: a negation never holds of what cannot be compared
(`operators_cohere`).
-/

namespace FormLogic

namespace FieldValue

/-- Numbers and moments, which are ordered. -/
def isOrdered : FieldValue → Bool
  | number _ | timestamp _ => true
  | text _ | checked _ | choice _ | choices _ | notComparable => false

/-- Texts and picked options, which are compared as texts. -/
def isWorded : FieldValue → Bool
  | text _ | choice _ | choices _ => true
  | number _ | timestamp _ | checked _ | notComparable => false

/-- Ordered values are equal to what they are ordered with as equal. -/
theorem equals?_of_isOrdered {value : FieldValue} (ordered : value.isOrdered = true)
    (literal : Literal) : value.equals? literal = (value.order? literal).map Ordering.isEq := by
  cases value with
  | number value => cases literal <;> rfl
  | timestamp seconds => cases literal <;> rfl
  | _ => cases ordered

theorem order?_of_not_isOrdered {value : FieldValue} (unordered : value.isOrdered = false)
    (literal : Literal) : value.order? literal = none := by
  cases value with
  | number value => cases unordered
  | timestamp seconds => cases unordered
  | _ => rfl

end FieldValue

namespace Operator

/-! ## Questions -/

/-- The answer to the question that an operator puts, if there is one. -/
def answer? (op : Operator) (value : FieldValue) (literal? : Option Literal) : Option Bool :=
  match op with
  | equal | notEqual | is | isNot => literal?.bind value.equals?
  | lower | before => (literal?.bind value.order?).map Ordering.isLT
  | lowerOrEqual | beforeOrEqual => (literal?.bind value.order?).map Ordering.isLE
  | upper | after => (literal?.bind value.order?).map Ordering.isGT
  | upperOrEqual | afterOrEqual => (literal?.bind value.order?).map Ordering.isGE
  | contains | lacks => literal?.bind value.contains?
  | oneOf | noneOf => literal?.bind value.memberOf?
  | checked | unchecked => value.checked?

/-- The answer that an operator waits for. -/
def awaited : Operator → Bool
  | notEqual | isNot | lacks | noneOf | unchecked => false
  | _ => true

/-- An operator holds if its question is answered as it waits for. -/
theorem holds_eq (op : Operator) (value : FieldValue) (literal? : Option Literal) :
    op.holds value literal? = (op.answer? value literal? == some op.awaited) := by
  have any_eq : ∀ (order? : Option Ordering) (p : Ordering → Bool),
      order?.any p = (order?.map p == some true) := by
    intro order? p
    cases order? with
    | none => rfl
    | some order => cases h : p order <;> simp [h]
  cases op with
  | lower | lowerOrEqual | upper | upperOrEqual | before | beforeOrEqual | after | afterOrEqual =>
    exact any_eq _ _
  | _ => rfl

theorem answer?_notComparable (op : Operator) (literal? : Option Literal) :
    op.answer? .notComparable literal? = none := by
  cases literal? with
  | none => cases op <;> rfl
  | some literal => cases op <;> cases literal <;> rfl

/-- Only whether a box is checked can be asked without a literal. -/
theorem answer?_none {op : Operator} (needed : op.standsAlone = false) (value : FieldValue) :
    op.answer? value none = none := by
  cases op with
  | checked | unchecked => cases needed
  | _ => rfl

theorem answer?_standsAlone {op : Operator} (alone : op.standsAlone = true) (value : FieldValue)
    (literal? other? : Option Literal) : op.answer? value literal? = op.answer? value other? := by
  cases op with
  | checked | unchecked => rfl
  | _ => cases alone

/-! ## Opposites -/

/-- An operator and the one that holds for the other answer. -/
inductive Opposed : Operator → Operator → Prop where
  | equal : Opposed equal notEqual
  | is : Opposed is isNot
  | contains : Opposed contains lacks
  | oneOf : Opposed oneOf noneOf
  | checked : Opposed checked unchecked

namespace Opposed

variable {op opposite : Operator}

theorem answer?_eq (opposed : Opposed op opposite) (value : FieldValue)
    (literal? : Option Literal) : opposite.answer? value literal? = op.answer? value literal? := by
  cases opposed <;> rfl

theorem holds_eq (opposed : Opposed op opposite) (value : FieldValue)
    (literal? : Option Literal) :
    op.holds value literal? = (op.answer? value literal? == some true) ∧
      opposite.holds value literal? = (op.answer? value literal? == some false) := by
  have awaited : op.awaited = true ∧ opposite.awaited = false := by
    cases opposed <;> exact ⟨rfl, rfl⟩
  rw [Operator.holds_eq, Operator.holds_eq, opposed.answer?_eq, awaited.1, awaited.2]
  exact ⟨rfl, rfl⟩

/-- Where a value is worded, every question about a text is answered. -/
theorem answer?_isSome (opposed : Opposed op opposite) (needed : op.standsAlone = false)
    {value : FieldValue} (worded : value.isWorded = true) (text : String) :
    (op.answer? value (some (.text text))).isSome = true := by
  cases opposed with
  | checked => cases needed
  | equal | is | contains | oneOf =>
    cases value with
    | text value | choice key | choices keys => rfl
    | number value | timestamp seconds | checked value | notComparable => cases worded

end Opposed

/-- Operators that mean the same. -/
inductive Synonymous : Operator → Operator → Prop where
  | is : Synonymous is equal
  | isNot : Synonymous isNot notEqual
  | before : Synonymous before lower
  | beforeOrEqual : Synonymous beforeOrEqual lowerOrEqual
  | after : Synonymous after upper
  | afterOrEqual : Synonymous afterOrEqual upperOrEqual

theorem Synonymous.holds_eq {op op' : Operator} (synonymous : Synonymous op op')
    (value : FieldValue) (literal? : Option Literal) :
    op.holds value literal? = op'.holds value literal? := by
  cases synonymous <;> rfl

/-! ## Order -/

/-- The operators that ask how a value is ordered. -/
def isOrdering : Operator → Bool
  | lower | lowerOrEqual | upper | upperOrEqual | before | beforeOrEqual | after | afterOrEqual =>
    true
  | _ => false

theorem holds_of_not_isOrdered {op : Operator} (ordering : op.isOrdering = true)
    {value : FieldValue} (unordered : value.isOrdered = false) (literal? : Option Literal) :
    op.holds value literal? = false := by
  have noOrder : literal?.bind value.order? = none := by
    cases literal? with
    | none => rfl
    | some literal => exact FieldValue.order?_of_not_isOrdered unordered literal
  cases op with
  | lower | lowerOrEqual | upper | upperOrEqual | before | beforeOrEqual | after | afterOrEqual =>
    simp only [holds, noOrder, Option.any_none]
  | _ => cases ordering

/-- How many of some operators hold. -/
def countHolding (ops : List Operator) (value : FieldValue) (literal? : Option Literal) : Nat :=
  ops.countP (·.holds value literal?)

/-- Either one of three operators holds, and the others of six as that one tells; or, where the
order is not known, none of the six. -/
structure Trichotomy (value : FieldValue) (literal? : Option Literal) : Prop where
  atMostOne : countHolding [lower, equal, upper] value literal? ≤ 1
  notEqual : notEqual.holds value literal? =
    (lower.holds value literal? || upper.holds value literal?)
  lowerOrEqual : lowerOrEqual.holds value literal? =
    (lower.holds value literal? || equal.holds value literal?)
  upperOrEqual : upperOrEqual.holds value literal? =
    (upper.holds value literal? || equal.holds value literal?)
  oneOrNone : countHolding [lower, equal, upper] value literal? = 1 ∨
    countHolding [equal, .notEqual, lower, .lowerOrEqual, upper, .upperOrEqual] value literal? = 0

theorem trichotomy_of_isOrdered {value : FieldValue} (ordered : value.isOrdered = true)
    (literal? : Option Literal) : Trichotomy value literal? := by
  have equality : literal?.bind value.equals? =
      (literal?.bind value.order?).map Ordering.isEq := by
    cases literal? with
    | none => rfl
    | some literal => exact FieldValue.equals?_of_isOrdered ordered literal
  cases order : literal?.bind value.order? with
  | none => constructor <;> simp [countHolding, holds, equality, order]
  | some order' => cases order' <;> constructor <;> simp [countHolding, holds, equality, order]

/-- The operators make up one comparison with three outcomes: yes, no, and no answer. An operator
and its opposite never hold together, and neither holds of what cannot be compared or, where a
literal is needed, without one. Some operators have two names. Of numbers and moments, those that
are no number included, one of three operators holds or none of six; nothing else is ordered. Of
texts and picked options, either an operator or its opposite holds with any text. -/
theorem operators_cohere (value : FieldValue) (literal? : Option Literal) :
    (∀ op opposite, Opposed op opposite →
      ¬ (op.holds value literal? = true ∧ opposite.holds value literal? = true) ∧
      (value = .notComparable →
        op.holds value literal? = false ∧ opposite.holds value literal? = false) ∧
      (op.standsAlone = false → literal? = none →
        op.holds value literal? = false ∧ opposite.holds value literal? = false) ∧
      (op.standsAlone = true → ∀ other?, op.holds value literal? = op.holds value other? ∧
        opposite.holds value literal? = opposite.holds value other?)) ∧
    (∀ op op', Synonymous op op' → op.holds value literal? = op'.holds value literal?) ∧
    (value.isOrdered = true → Trichotomy value literal?) ∧
    (value.isOrdered = false → ∀ op, isOrdering op = true → op.holds value literal? = false) ∧
    (value.isWorded = true → ∀ text, literal? = some (.text text) →
      ∀ op opposite, Opposed op opposite → op.standsAlone = false →
        opposite.holds value literal? = !op.holds value literal?) := by
  refine ⟨?_, fun op op' synonymous => synonymous.holds_eq value literal?,
    fun ordered => trichotomy_of_isOrdered ordered literal?,
    fun unordered op ordering => holds_of_not_isOrdered ordering unordered literal?, ?_⟩
  · intro op opposite opposed
    obtain ⟨holds, holdsNot⟩ := opposed.holds_eq value literal?
    rw [holds, holdsNot]
    refine ⟨?_, ?_, ?_, ?_⟩
    · rintro ⟨yes, no⟩
      rw [eq_of_beq yes] at no
      cases no
    · rintro rfl
      rw [answer?_notComparable]
      exact ⟨rfl, rfl⟩
    · rintro needed rfl
      rw [answer?_none needed]
      exact ⟨rfl, rfl⟩
    · intro alone other?
      obtain ⟨holds', holdsNot'⟩ := opposed.holds_eq value other?
      rw [holds', holdsNot', answer?_standsAlone alone value literal? other?]
      exact ⟨rfl, rfl⟩
  · rintro worded text rfl op opposite opposed needed
    obtain ⟨holds, holdsNot⟩ := opposed.holds_eq value (some (.text text))
    obtain ⟨answer, answered⟩ :=
      Option.isSome_iff_exists.mp (opposed.answer?_isSome needed worded text)
    rw [holds, holdsNot, answered]
    cases answer <;> rfl

end Operator

end FormLogic
