import Mathlib.Probability.Distributions.Exponential
import Mathlib.MeasureTheory.Constructions.Pi

/-!
# Exponential races

Independent standard exponential clocks, one for each index, run against weights: the index whose
weight divided by its clock is largest is drawn in proportion to the weights.
-/

namespace Vllm.Library

open MeasureTheory ProbabilityTheory Set
open scoped ENNReal

/-- Independent standard exponential clocks. -/
noncomputable def clocks (n : Nat) : Measure (Fin n → ℝ) :=
  Measure.pi fun _ => expMeasure 1

instance expMeasure_probability : IsProbabilityMeasure (expMeasure 1) :=
  isProbabilityMeasure_expMeasure one_pos

instance clocks_probability (n : Nat) : IsProbabilityMeasure (clocks n) :=
  inferInstanceAs (IsProbabilityMeasure (Measure.pi _))

theorem expMeasure_Ioi {bound : ℝ} (nonneg : 0 ≤ bound) :
    expMeasure 1 (Ioi bound) = ENNReal.ofReal (Real.exp (-bound)) := by
  have below : expMeasure 1 (Iic bound) = ENNReal.ofReal (1 - Real.exp (-bound)) := by
    rw [← ofReal_cdf, cdf_expMeasure_eq one_pos, if_pos nonneg, one_mul]
  have small : Real.exp (-bound) ≤ 1 := by
    rw [Real.exp_le_one_iff]
    linarith
  rw [← compl_Iic, prob_compl_eq_one_sub measurableSet_Iic, below, ← ENNReal.ofReal_one,
    ← ENNReal.ofReal_sub _ (by linarith)]
  congr 1
  ring

variable {n : Nat}

variable {ratio : Fin n → ℝ}

/-- The clocks of all indices are later than their ratio to a given time. -/
theorem clocks_later (nonneg : ∀ j, 0 ≤ ratio j) {time : ℝ} (after : 0 ≤ time) :
    clocks n {clock | ∀ j, ratio j * time < clock j} =
      ENNReal.ofReal (Real.exp (-((∑ j, ratio j) * time))) := by
  have box : {clock : Fin n → ℝ | ∀ j, ratio j * time < clock j} =
      Set.pi univ fun j => Ioi (ratio j * time) := by
    ext clock
    simp
  rw [box, clocks, Measure.pi_pi]
  have each : ∀ j, expMeasure 1 (Ioi (ratio j * time)) =
      ENNReal.ofReal (Real.exp (-(ratio j * time))) := fun j =>
    expMeasure_Ioi (mul_nonneg (nonneg j) after)
  simp only [each]
  rw [← ENNReal.ofReal_prod_of_nonneg fun j _ => (Real.exp_pos _).le, ← Real.exp_sum,
    Finset.sum_neg_distrib, Finset.sum_mul]

/-- One clock rings first, in units of the ratios. -/
theorem clock_first (nonneg : ∀ j, 0 ≤ ratio j) :
    (expMeasure 1).prod (clocks n) {pair | 0 < pair.1 ∧ ∀ j, ratio j * pair.1 < pair.2 j} =
      ENNReal.ofReal (1 + ∑ j, ratio j)⁻¹ := by
  have total : 0 ≤ ∑ j, ratio j := Finset.sum_nonneg fun j _ => nonneg j
  have measurable : MeasurableSet
      {pair : ℝ × (Fin n → ℝ) | 0 < pair.1 ∧ ∀ j, ratio j * pair.1 < pair.2 j} := by
    have parts : {pair : ℝ × (Fin n → ℝ) | 0 < pair.1 ∧ ∀ j, ratio j * pair.1 < pair.2 j} =
        {pair | 0 < pair.1} ∩ ⋂ j, {pair | ratio j * pair.1 < pair.2 j} := by
      ext pair
      simp
    rw [parts]
    apply MeasurableSet.inter
    · exact measurableSet_lt measurable_const measurable_fst
    · apply MeasurableSet.iInter
      intro j
      exact measurableSet_lt (measurable_fst.const_mul _)
        ((measurable_pi_apply j).comp measurable_snd)
  have density : expMeasure 1 = volume.withDensity (exponentialPDF 1) := rfl
  have pdf : ∀ rate, Measurable (exponentialPDF rate) := fun rate =>
    (measurable_exponentialPDFReal rate).ennreal_ofReal
  rw [Measure.prod_apply measurable, density,
    lintegral_withDensity_eq_lintegral_mul _ (pdf 1) (measurable_measure_prodMk_left measurable)]
  have scaled : ∀ᵐ time ∂(volume : Measure ℝ),
      (exponentialPDF 1 * fun time => clocks n (Set.preimage (Prod.mk time)
        {pair : ℝ × (Fin n → ℝ) | 0 < pair.1 ∧ ∀ j, ratio j * pair.1 < pair.2 j})) time =
        ENNReal.ofReal (1 + ∑ j, ratio j)⁻¹ * exponentialPDF (1 + ∑ j, ratio j) time := by
    have nonzero : ∀ᵐ time ∂(volume : Measure ℝ), time ≠ 0 :=
      compl_mem_ae_iff.mpr (measure_singleton 0)
    filter_upwards [nonzero] with time different
    rw [Pi.mul_apply]
    rcases lt_or_gt_of_ne different with before | after
    · rw [exponentialPDF_of_neg before, exponentialPDF_of_neg before, zero_mul, mul_zero]
    · have section_ : Set.preimage (Prod.mk time)
          {pair : ℝ × (Fin n → ℝ) | 0 < pair.1 ∧ ∀ j, ratio j * pair.1 < pair.2 j} =
            {clock | ∀ j, ratio j * time < clock j} := by
        ext clock
        simp [after]
      rw [section_, clocks_later nonneg after.le, exponentialPDF_of_nonneg after.le,
        exponentialPDF_of_nonneg after.le, ← ENNReal.ofReal_mul (by positivity),
        ← ENNReal.ofReal_mul (by positivity)]
      congr 1
      rw [one_mul, ← mul_assoc, inv_mul_cancel₀ (by positivity), one_mul, one_mul, ← Real.exp_add]
      congr 1
      ring
  rw [lintegral_congr_ae scaled, lintegral_const_mul _ (pdf _),
    lintegral_exponentialPDF_eq_one (by positivity), mul_one]

/-- Where events of total probability one decide a choice, the choice has their probabilities. -/
theorem measure_choice {Ω ι : Type*} [MeasurableSpace Ω] {μ : Measure Ω} [IsProbabilityMeasure μ]
    [Fintype ι] [DecidableEq ι] {event : ι → Set Ω} (measurable : ∀ i, MeasurableSet (event i))
    {choice : Ω → ι} (decides : ∀ i ω, ω ∈ event i → choice ω = i) (total : ∑ i, μ (event i) = 1)
    (i : ι) : μ {ω | choice ω = i} = μ (event i) := by
  apply le_antisymm
  · have outside : {ω | choice ω = i} ⊆ (⋃ j ∈ Finset.univ.erase i, event j)ᶜ := by
      intro ω chosen member
      simp only [mem_iUnion] at member
      rcases member with ⟨j, other, member⟩
      exact (Finset.mem_erase.mp other).1 ((decides j ω member).symm.trans chosen)
    have disjoint : (↑(Finset.univ.erase i) : Set ι).PairwiseDisjoint event := by
      intro j _ k _ different
      apply disjoint_left.mpr
      intro ω first second
      exact different ((decides j ω first).symm.trans (decides k ω second))
    have rest : μ (⋃ j ∈ Finset.univ.erase i, event j) = ∑ j ∈ Finset.univ.erase i, μ (event j) :=
      measure_biUnion_finset disjoint fun j _ => measurable j
    have union : MeasurableSet (⋃ j ∈ Finset.univ.erase i, event j) :=
      Finset.measurableSet_biUnion _ fun j _ => measurable j
    rw [← Finset.add_sum_erase _ _ (Finset.mem_univ i), ← rest] at total
    apply (measure_mono outside).trans
    rw [prob_compl_eq_one_sub union]
    exact (ENNReal.eq_sub_of_add_eq (measure_ne_top _ _) total).ge
  · apply measure_mono
    exact fun ω member => decides i ω member

/-- The clock of an index wins its race against all the others. -/
def RaceWon (weight : Fin (n + 1) → ℝ) (i : Fin (n + 1)) : Set (Fin (n + 1) → ℝ) :=
  {clock | 0 < weight i ∧ 0 < clock i ∧
    ∀ j : Fin n, weight (i.succAbove j) / weight i * clock i < clock (i.succAbove j)}

theorem RaceWon.measurableSet (weight : Fin (n + 1) → ℝ) (i : Fin (n + 1)) :
    MeasurableSet (RaceWon weight i) := by
  have parts : RaceWon weight i = {clock | 0 < weight i} ∩ ({clock | 0 < clock i} ∩
      ⋂ j : Fin n, {clock | weight (i.succAbove j) / weight i * clock i <
        clock (i.succAbove j)}) := by
    ext clock
    simp [RaceWon]
  rw [parts]
  apply MeasurableSet.inter (MeasurableSet.const _)
  apply MeasurableSet.inter
  · exact measurableSet_lt measurable_const (measurable_pi_apply i)
  · apply MeasurableSet.iInter
    intro j
    exact measurableSet_lt ((measurable_pi_apply i).const_mul _) (measurable_pi_apply _)

variable {weight : Fin (n + 1) → ℝ}

/-- The winner's weight by its clock is the largest. -/
theorem RaceWon.score_lt (nonneg : ∀ i, 0 ≤ weight i) {i j : Fin (n + 1)} {clock : Fin (n + 1) → ℝ}
    (won : clock ∈ RaceWon weight i) (different : j ≠ i) :
    weight j * (clock j)⁻¹ < weight i * (clock i)⁻¹ := by
  rcases won with ⟨heavy, rings, first⟩
  rcases Fin.exists_succAbove_eq different with ⟨k, rfl⟩
  have later := first k
  have positive : 0 < clock (i.succAbove k) :=
    lt_of_le_of_lt (mul_nonneg (div_nonneg (nonneg _) heavy.le) rings.le) later
  rw [← div_eq_mul_inv, ← div_eq_mul_inv, div_lt_div_iff₀ positive rings]
  rw [div_mul_eq_mul_div, div_lt_iff₀ heavy] at later
  linarith

theorem clocks_raceWon (nonneg : ∀ i, 0 ≤ weight i) (i : Fin (n + 1)) :
    clocks (n + 1) (RaceWon weight i) = ENNReal.ofReal (weight i / ∑ j, weight j) := by
  rcases (nonneg i).eq_or_lt with light | heavy
  · have empty : RaceWon weight i = ∅ := by
      ext clock
      simp [RaceWon, ← light]
    rw [empty, measure_empty, ← light, zero_div, ENNReal.ofReal_zero]
  · have preserved := measurePreserving_piFinSuccAbove
      (fun _ : Fin (n + 1) => expMeasure 1) i
    have split : RaceWon weight i =
        Set.preimage (MeasurableEquiv.piFinSuccAbove (fun _ => ℝ) i)
          {pair | 0 < pair.1 ∧ ∀ j : Fin n, weight (i.succAbove j) / weight i * pair.1 <
            pair.2 j} := by
      ext clock
      simp [RaceWon, heavy, Fin.removeNth]
    have first : (expMeasure 1).prod (clocks n) {pair | 0 < pair.1 ∧ ∀ j : Fin n,
        weight (i.succAbove j) / weight i * pair.1 < pair.2 j} = _ :=
      clock_first fun j => div_nonneg (nonneg (i.succAbove j)) heavy.le
    rw [split, clocks, preserved.measure_preimage_equiv]
    refine first.trans ?_
    congr 1
    rw [Fin.sum_univ_succAbove weight i, ← Finset.sum_div]
    field_simp

/-- A choice of the largest weight by its clock draws in proportion to the weights. -/
theorem race_law (nonneg : ∀ i, 0 ≤ weight i) (total : 0 < ∑ i, weight i)
    {choice : (Fin (n + 1) → ℝ) → Fin (n + 1)}
    (largest : ∀ clock i, (∀ j, j ≠ i → weight j * (clock j)⁻¹ < weight i * (clock i)⁻¹) →
      choice clock = i) (i : Fin (n + 1)) :
    clocks (n + 1) {clock | choice clock = i} = ENNReal.ofReal (weight i / ∑ j, weight j) := by
  rw [← clocks_raceWon nonneg i]
  apply measure_choice (RaceWon.measurableSet weight)
  · intro j clock won
    exact largest clock j fun k different => RaceWon.score_lt nonneg won different
  · simp only [clocks_raceWon nonneg]
    rw [← ENNReal.ofReal_sum_of_nonneg fun j _ => div_nonneg (nonneg j) total.le,
      ← Finset.sum_div, div_self total.ne', ENNReal.ofReal_one]

end Vllm.Library
