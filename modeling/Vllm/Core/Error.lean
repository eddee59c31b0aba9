/-!
# Python exceptions

Fallible operations of the source return `Except PyError`.  A raising call
leaves no successor state: the engine does not continue after one.
-/

namespace Vllm.Core

/-- The exception classes raised by the modelled code, with their texts where
the source gives one. -/
inductive PyError where
  | assertionError
  | valueError (message : String)
  | runtimeError (message : String)
  | notImplementedError (message : String)
  | indexError
  | keyError
  | zeroDivisionError
  | stopIteration
  deriving DecidableEq, Repr

/-- The `assert` statement. -/
def pyAssert (condition : Prop) [Decidable condition] : Except PyError Unit :=
  if condition then .ok () else .error .assertionError

/-- Indexing a Python list with a non-negative index. -/
def pyIndex {α : Type} (values : List α) (index : Nat) : Except PyError α :=
  match values[index]? with
  | some value => .ok value
  | none => .error .indexError

/-- The list position that a possibly negative Python index denotes; an index
before the start denotes no position. -/
def pyNormalizeIndex {α : Type} (values : List α) (index : Int) : Nat :=
  if 0 ≤ index then index.toNat
  else if -index ≤ values.length then (values.length + index).toNat
  else values.length

/-- Ceiling division, `vllm.utils.math_utils.cdiv`. -/
def cdiv (numerator denominator : Nat) : Nat :=
  (numerator + denominator - 1) / denominator

variable {denominator index numerator : Nat} {α β : Type} {failure : PyError}

theorem le_cdiv_mul (positive : 0 < denominator) (numerator : Nat) :
    numerator ≤ cdiv numerator denominator * denominator := by
  have rounded := Nat.lt_div_mul_add positive (a := numerator + denominator - 1)
  unfold cdiv
  omega

theorem lt_cdiv_iff (positive : 0 < denominator) :
    index < cdiv numerator denominator ↔ index * denominator < numerator := by
  have product : (index + 1) * denominator = index * denominator + denominator := Nat.succ_mul ..
  rw [cdiv, Nat.lt_iff_add_one_le, Nat.le_div_iff_mul_le positive]
  omega

theorem cdiv_mul (positive : 0 < denominator) (count : Nat) :
    cdiv (count * denominator) denominator = count := by
  apply Nat.le_antisymm
  · rw [← Nat.not_lt, lt_cdiv_iff positive]
    exact Nat.lt_irrefl _
  · exact Nat.le_of_mul_le_mul_right (le_cdiv_mul positive _) positive

theorem cdiv_mono {larger : Nat} (le : numerator ≤ larger) (denominator : Nat) :
    cdiv numerator denominator ≤ cdiv larger denominator :=
  Nat.div_le_div_right (by omega)

variable {step : Except PyError α} {rest : α → Except PyError β} {result state final : β}
  {round : β → α → Except PyError β} {entries values : List α}

/-- A sequence of fallible steps succeeds when the first step and the rest do. -/
theorem bind_eq_ok :
    (step >>= rest) = .ok result ↔ ∃ value, step = .ok value ∧ rest value = .ok result := by
  cases step with
  | error failure => simp [bind, Except.bind]
  | ok value => simp [bind, Except.bind]

/-- It fails when the first step fails, or the rest after it. -/
theorem bind_eq_error :
    (step >>= rest) = .error failure ↔
      step = .error failure ∨ ∃ value, step = .ok value ∧ rest value = .error failure := by
  cases step with
  | error raised => simp [bind, Except.bind]
  | ok value => simp [bind, Except.bind]

variable {transform : α → β} {condition : Prop}

/-- Mapping the result of a step keeps its failures. -/
theorem map_eq_error :
    step.map transform = .error failure ↔ step = .error failure := by
  cases step <;> simp [Except.map]

theorem map_eq_ok :
    step.map transform = .ok result ↔ ∃ value, step = .ok value ∧ transform value = result := by
  cases step <;> simp [Except.map]

theorem toOption_eq_some {result : α} : step.toOption = some result ↔ step = .ok result := by
  cases step <;> simp [Except.toOption]

/-- The rule for loops: a property of the remaining entries and the state that every
round keeps holds at the end. -/
theorem foldlM_rule (property : List α → β → Prop)
    (kept : ∀ entry rest state next, property (entry :: rest) state →
      round state entry = .ok next → property rest next) (holds : property entries state)
    (ran : entries.foldlM round state = .ok final) : property [] final := by
  induction entries generalizing state with
  | nil =>
      cases ran
      exact holds
  | cons entry rest ih =>
      rcases bind_eq_ok.mp ran with ⟨next, first, ran⟩
      exact ih (kept entry rest state next holds first) ran

/-- The same for a property of the state alone. -/
theorem foldlM_invariant (property : β → Prop)
    (kept : ∀ entry ∈ entries, ∀ state next, property state → round state entry = .ok next →
      property next) (holds : property state) (ran : entries.foldlM round state = .ok final) :
    property final := by
  have all : ∀ entry ∈ entries, entry ∈ entries := fun _ member => member
  refine (foldlM_rule (fun rest state => (∀ entry ∈ rest, entry ∈ entries) ∧ property state) ?_
    ⟨all, holds⟩ ran).2
  rintro entry rest state next ⟨within, holds⟩ first
  constructor
  · exact fun other member => within other (List.mem_cons_of_mem _ member)
  · exact kept entry (within entry List.mem_cons_self) state next holds first

/-- The exception that a step raises. -/
def errorOf {α : Type} : Except PyError α → Option PyError
  | .ok _ => none
  | .error failure => some failure

theorem errorOf_eq_some : errorOf step = some failure ↔ step = .error failure := by
  cases step <;> simp [errorOf]

@[simp]
theorem pyAssert_eq_ok [Decidable condition] {value : Unit} :
    pyAssert condition = .ok value ↔ condition := by
  unfold pyAssert
  split <;> simp_all

theorem eq_assertionError_of_pyAssert [Decidable condition]
    (raised : pyAssert condition = .error failure) : failure = .assertionError := by
  unfold pyAssert at raised
  split at raised
  · contradiction
  · exact (Except.error.inj raised).symm

theorem eq_indexError_of_pyIndex (raised : pyIndex values index = .error failure) :
    failure = .indexError := by
  unfold pyIndex at raised
  split at raised
  · contradiction
  · exact (Except.error.inj raised).symm

@[simp]
theorem pyIndex_eq_ok {value : α} :
    pyIndex values index = .ok value ↔ values[index]? = some value := by
  unfold pyIndex
  cases values[index]? <;> simp

end Vllm.Core
