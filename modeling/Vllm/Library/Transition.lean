import Mathlib.Logic.Relation

/-!
# Transition systems

A system is a set of start states and a step relation; `Reachable` collects the
states of all its finite runs.  `Reachable.invariant` is the one induction that
the safety results of a development need.
-/

namespace Vllm.Library

universe u v

/-- Start states and steps. -/
structure System (σ : Type u) where
  start : σ → Prop
  step : σ → σ → Prop

/-- The states of the finite runs of a system. -/
inductive Reachable {σ : Type u} (system : System σ) : σ → Prop
  | start {state : σ} (starts : system.start state) : Reachable system state
  | step {state next : σ} (reached : Reachable system state)
      (steps : system.step state next) : Reachable system next

/-- Execute a list of actions one after the other. -/
def replay {σ : Type u} {label : Type v} (execute : σ → label → Option σ) :
    List label → σ → Option σ
  | [], state => some state
  | action :: rest, state => (execute state action).bind (replay execute rest)

/-- What every move keeps, a chain of moves keeps. -/
theorem chain_keeps {σ : Type u} {move : σ → σ → Prop} (property : σ → Prop)
    (kept : ∀ {state next}, move state next → property state → property next) {state next : σ}
    (chain : Relation.ReflTransGen move state next) (holds : property state) : property next := by
  induction chain with
  | refl => exact holds
  | tail _ last ih => exact kept last ih

namespace Reachable

variable {σ : Type u} {system : System σ}

/-- What holds at the start and is kept by every step holds in every run. -/
theorem invariant {property : σ → Prop} (atStart : ∀ state, system.start state → property state)
    (kept : ∀ state next, property state → system.step state next → property next)
    {state : σ} (reached : Reachable system state) : property state := by
  induction reached with
  | start starts => exact atStart _ starts
  | step _ steps ih => exact kept _ _ ih steps

/-- A replayed run ends in a reachable state. -/
theorem replay {label : Type v} {execute : σ → label → Option σ}
    (sound : ∀ state action next, execute state action = some next → system.step state next)
    {actions : List label} {state final : σ} (reached : Reachable system state)
    (ran : Library.replay execute actions state = some final) : Reachable system final := by
  induction actions generalizing state with
  | nil =>
      cases ran
      exact reached
  | cons action rest ih =>
      obtain ⟨next, executed, ran⟩ := Option.bind_eq_some_iff.mp ran
      exact ih (reached.step (sound state action next executed)) ran

end Reachable

end Vllm.Library
