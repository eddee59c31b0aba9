import Mathlib.MeasureTheory.Constructions.Pi
import Mathlib.MeasureTheory.Measure.Lebesgue.Basic

/-!
# Uniform draws

Independent draws from the half-open unit interval, with the first draw split off the rest.
-/

namespace Vllm.Library

open MeasureTheory Set
open scoped ENNReal

/-- The uniform measure on the half-open unit interval. -/
noncomputable def uniform : Measure ℝ :=
  volume.restrict (Ico 0 1)

instance : IsProbabilityMeasure uniform where
  measure_univ := by simp [uniform]

/-- Independent uniform draws. -/
noncomputable def uniforms (n : Nat) : Measure (Fin n → ℝ) :=
  Measure.pi fun _ => uniform

instance (n : Nat) : IsProbabilityMeasure (uniforms n) :=
  inferInstanceAs (IsProbabilityMeasure (Measure.pi _))

theorem uniform_Iic (bound : ℝ) : uniform (Iic bound) = ENNReal.ofReal (min bound 1) := by
  rw [uniform, Measure.restrict_apply measurableSet_Iic]
  rcases lt_or_ge bound 1 with inside | outside
  · have part : Iic bound ∩ Ico 0 1 = Icc 0 bound := by
      ext draw
      constructor
      · rintro ⟨below, above, _⟩
        exact ⟨above, below⟩
      · rintro ⟨above, below⟩
        exact ⟨below, above, below.trans_lt inside⟩
    rw [part, Real.volume_Icc, sub_zero, min_eq_left inside.le]
  · have whole : Iic bound ∩ Ico 0 1 = Ico 0 1 := by
      rw [inter_eq_right]
      exact fun draw member => member.2.le.trans outside
    rw [whole, Real.volume_Ico, sub_zero, min_eq_right outside]

section Cons

variable {E : Type*} [MeasurableSpace E] (rest : Measure E) [SFinite rest] (n : Nat)

/-- The first draw and the others with what follows them. -/
noncomputable def splitDraws :
    (Fin (n + 1) → ℝ) × E ≃ᵐ ℝ × ((Fin n → ℝ) × E) :=
  ((MeasurableEquiv.piFinSuccAbove (fun _ => ℝ) 0).prodCongr (MeasurableEquiv.refl E)).trans
    MeasurableEquiv.prodAssoc

theorem splitDraws_preserving :
    MeasurePreserving (splitDraws n) ((uniforms (n + 1)).prod rest)
      (uniform.prod ((uniforms n).prod rest)) := by
  have head : MeasurePreserving (MeasurableEquiv.piFinSuccAbove (fun _ => ℝ) 0)
      (uniforms (n + 1)) (uniform.prod (uniforms n)) :=
    measurePreserving_piFinSuccAbove (fun _ : Fin (n + 1) => uniform) 0
  have both := head.prod (MeasurePreserving.id rest)
  exact (measurePreserving_prodAssoc uniform (uniforms n) rest).comp both

/-- The first draw is independent of the others and of what follows them. -/
theorem uniforms_cons (first : Set ℝ) (others : Set ((Fin n → ℝ) × E)) :
    (uniforms (n + 1)).prod rest
        {draw | draw.1 0 ∈ first ∧ (Fin.tail draw.1, draw.2) ∈ others} =
      uniform first * (uniforms n).prod rest others := by
  rw [← Measure.prod_prod, ← (splitDraws_preserving rest n).measure_preimage_equiv]
  rfl

/-- A test of the first draw decides which event of the others counts. -/
theorem uniforms_test {first : Set ℝ} (measurable : MeasurableSet first)
    (yes no : Set ((Fin n → ℝ) × E)) :
    (uniforms (n + 1)).prod rest
        {draw | draw.1 0 ∈ first ∧ (Fin.tail draw.1, draw.2) ∈ yes ∨
          draw.1 0 ∈ firstᶜ ∧ (Fin.tail draw.1, draw.2) ∈ no} =
      uniform first * (uniforms n).prod rest yes +
        (1 - uniform first) * (uniforms n).prod rest no := by
  have tested : MeasurableSet {draw : (Fin (n + 1) → ℝ) × E | draw.1 0 ∈ first} :=
    measurable.preimage ((measurable_pi_apply 0).comp measurable_fst)
  rw [← prob_compl_eq_one_sub measurable, ← uniforms_cons rest n first yes,
    ← uniforms_cons rest n firstᶜ no, ← measure_inter_add_diff _ tested]
  congr 2
  · ext draw
    simp only [mem_inter_iff, mem_setOf_eq, mem_compl_iff]
    tauto
  · ext draw
    simp only [mem_diff, mem_setOf_eq, mem_compl_iff]
    tauto

end Cons

end Vllm.Library
