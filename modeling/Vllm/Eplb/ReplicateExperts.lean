import Vllm.Library.FirstExtremum
import Mathlib.Algebra.Order.Field.Rat
import Mathlib.Algebra.Order.BigOperators.Group.List
import Mathlib.Data.Rat.Cast.Order

/-!
# Replication of experts

The policy gives each redundant replica to the expert whose replicas carry the largest load.  The
greedy choice minimises the largest load of a replica.
-/

namespace Vllm.Eplb

open Vllm.Library
open List (Forall₂)

/-- The replicas of one layer while they are handed out. -/
structure Replication where
  weight : List ℚ
  phy2log : List Nat
  logcnt : List Nat

def Replication.start (num_phy : Nat) (weight : List ℚ) : Replication where
  weight := weight
  phy2log := List.range num_phy
  logcnt := List.replicate weight.length 1

/-- The load of one replica of each expert. -/
def replicaLoads (weight : List ℚ) (logcnt : List Nat) : List ℚ :=
  List.zipWith (fun (load : ℚ) (count : Nat) => load / count) weight logcnt

/-- Slot `i` goes to the expert with the largest load of a replica. -/
def Replication.replicate (i : Nat) (layer : Replication) : Replication :=
  let redundant_index := firstMaximum (replicaLoads layer.weight layer.logcnt)
  { layer with
    phy2log := layer.phy2log.set i redundant_index
    logcnt := layer.logcnt.modify redundant_index (· + 1) }

/-- `replicate_experts`: the slots and the counts of each layer. -/
def replicateExperts (num_log : Nat) (weight : List (List ℚ)) (num_phy : Nat) :
    Option (List Replication) :=
  if num_phy < num_log then none
  else (List.range' num_log (num_phy - num_log)).foldlM
    -- The largest of no loads is an error.
    (fun layers i => if num_log = 0 then none else some (layers.map (Replication.replicate i)))
    (weight.map (Replication.start num_phy))

/-! ## Allocations -/

/-- Each expert has a replica, and all replicas are given. -/
structure Allocation (num_log num_phy : Nat) (counts : List Nat) : Prop where
  length : counts.length = num_log
  positive : ∀ count ∈ counts, 1 ≤ count
  total : counts.sum = num_phy

/-- The largest load of a replica. -/
def maxReplicaLoad (weight : List ℚ) (counts : List Nat) : ℚ :=
  (replicaLoads weight counts).foldr max 0

theorem foldr_max_le_iff {loads : List ℚ} {bound : ℚ} :
    loads.foldr max 0 ≤ bound ↔ 0 ≤ bound ∧ ∀ load ∈ loads, load ≤ bound := by
  induction loads with
  | nil => simp
  | cons load loads inductionHypothesis =>
      rw [List.foldr_cons, max_le_iff, inductionHypothesis, List.forall_mem_cons]
      exact and_left_comm

variable {weight : List ℚ} {counts others : List Nat} {num_phy num_log : Nat}

theorem mem_replicaLoads {load : ℚ} :
    load ∈ replicaLoads weight counts ↔ ∃ (i : Nat) (total : ℚ) (count : Nat), weight[i]? = some total ∧
      counts[i]? = some count ∧ load = total / (count : ℚ) := by
  rw [replicaLoads, List.mem_iff_getElem?]
  constructor
  · rintro ⟨i, read⟩
    rw [List.getElem?_zipWith] at read
    split at read
    · rename_i total count atWeight atCount
      exact ⟨i, total, count, atWeight, atCount, (Option.some.inj read).symm⟩
    · cases read
  · rintro ⟨i, total, count, atWeight, atCount, rfl⟩
    refine ⟨i, ?_⟩
    rw [List.getElem?_zipWith, atWeight, atCount]

/-- A smaller sum has a smaller entry. -/
theorem exists_lt_of_sum_lt (length : counts.length = others.length)
    (sums : others.sum < counts.sum) : ∃ (j fewer greater : Nat),
      counts[j]? = some greater ∧ others[j]? = some fewer ∧ fewer < greater := by
  by_contra none_
  have below : counts.sum ≤ others.sum := by
    apply List.Forall₂.sum_le_sum
    rw [List.forall₂_iff_get]
    refine ⟨length, ?_⟩
    intro j left right
    by_contra less
    exact none_ ⟨j, _, _, List.getElem?_eq_getElem left, List.getElem?_eq_getElem right,
      Nat.not_le.mp less⟩
  omega

/-- Of two allocations of the same sum, a larger entry leaves a smaller one. -/
theorem exists_lt_of_sum_le (length : counts.length = others.length)
    (sums : others.sum ≤ counts.sum) {i count other : Nat} (here : counts[i]? = some count)
    (there : others[i]? = some other) (more : count < other) : ∃ (j fewer greater : Nat),
      counts[j]? = some greater ∧ others[j]? = some fewer ∧ fewer < greater := by
  induction counts generalizing others i with
  | nil => cases here
  | cons first counts inductionHypothesis =>
      cases others with
      | nil => cases there
      | cons second others =>
          have rest : counts.length = others.length := Nat.succ.inj length
          rw [List.sum_cons, List.sum_cons] at sums
          cases i with
          | zero =>
              cases here
              cases there
              rcases exists_lt_of_sum_lt rest (by omega) with ⟨j, found⟩
              exact ⟨j + 1, found⟩
          | succ i =>
              by_cases less : second < first
              · exact ⟨0, second, first, rfl, rfl, less⟩
              · rcases inductionHypothesis rest (by omega) here there with ⟨j, found⟩
                exact ⟨j + 1, found⟩

/-! ## The greedy choice -/

/-- No expert's load exceeds the load that another one had before its last replica. -/
def Greedy (weight : List ℚ) (counts : List Nat) : Prop :=
  ∀ (j : Nat) (total : ℚ) (count : Nat), weight[j]? = some total → counts[j]? = some (count + 1) →
    1 ≤ count → ∀ load ∈ replicaLoads weight counts, load ≤ total / (count : ℚ)

/-- A greedy allocation is optimal. -/
theorem Greedy.maxReplicaLoad_le (greedy : Greedy weight counts)
    (nonneg : ∀ load ∈ weight, 0 ≤ load) (allocation : Allocation weight.length num_phy counts)
    (other : Allocation weight.length num_phy others) :
    maxReplicaLoad weight counts ≤ maxReplicaLoad weight others := by
  have largest := foldr_max_le_iff.mp (le_refl (maxReplicaLoad weight others))
  rw [maxReplicaLoad, foldr_max_le_iff]
  refine ⟨largest.1, ?_⟩
  intro load member
  rcases mem_replicaLoads.mp member with ⟨i, total, count, atWeight, atCount, rfl⟩
  have inside : i < others.length := by
    rw [other.length]
    exact (List.getElem?_eq_some_iff.mp atWeight).1
  have positive := other.positive _ (List.getElem_mem inside)
  have atOther := List.getElem?_eq_getElem inside
  rcases Nat.lt_or_ge count others[i] with more | less
  · -- Another expert has fewer replicas than it was given.
    have lengths : counts.length = others.length := allocation.length.trans other.length.symm
    have sums : others.sum ≤ counts.sum := (other.total.trans allocation.total.symm).le
    rcases exists_lt_of_sum_le lengths sums atCount atOther more with
      ⟨j, fewer, greater, atGreater, atFewer, below⟩
    have one_le := other.positive _ (List.mem_of_getElem? atFewer)
    have within : j < weight.length := by
      rw [← other.length]
      exact (List.getElem?_eq_some_iff.mp atFewer).1
    have atTotal := List.getElem?_eq_getElem within
    have place : greater - 1 + 1 = greater := Nat.sub_add_cancel (by omega)
    calc total / (count : ℚ)
        ≤ weight[j] / ((greater - 1 : Nat) : ℚ) :=
          greedy j _ (greater - 1) atTotal (by rw [place]; exact atGreater) (by omega) _ member
      _ ≤ weight[j] / (fewer : ℚ) := by
          apply div_le_div_of_nonneg_left (nonneg _ (List.getElem_mem within))
          · exact_mod_cast one_le
          · exact_mod_cast Nat.le_sub_one_of_lt below
      _ ≤ maxReplicaLoad weight others :=
          largest.2 _ (mem_replicaLoads.mpr ⟨j, _, _, atTotal, atFewer, rfl⟩)
  · calc total / (count : ℚ)
        ≤ total / (others[i] : ℚ) := by
          apply div_le_div_of_nonneg_left (nonneg _ (List.mem_of_getElem? atWeight))
          · exact_mod_cast positive
          · exact_mod_cast less
      _ ≤ maxReplicaLoad weight others :=
          largest.2 _ (mem_replicaLoads.mpr ⟨i, _, _, atWeight, atOther, rfl⟩)

theorem replicaLoads_length (length : counts.length = weight.length) :
    (replicaLoads weight counts).length = weight.length := by
  rw [replicaLoads, List.length_zipWith, length, Nat.min_self]

theorem sum_modify_succ {index : Nat} (inside : index < counts.length) :
    (counts.modify index (· + 1)).sum = counts.sum + 1 := by
  induction counts generalizing index with
  | nil => exact absurd inside (Nat.not_lt_zero _)
  | cons count counts inductionHypothesis =>
      cases index with
      | zero =>
          rw [List.modify_zero_cons, List.sum_cons, List.sum_cons]
          omega
      | succ index =>
          rw [List.modify_succ_cons, List.sum_cons, List.sum_cons,
            inductionHypothesis (Nat.lt_of_succ_lt_succ inside)]
          omega

/-- What holds of a layer when `given` of its slots are handed out. -/
structure Replication.Valid (num_log num_phy given : Nat) (layer : Replication) : Prop where
  weights : layer.weight.length = num_log
  allocation : Allocation num_log given layer.logcnt
  greedy : Greedy layer.weight layer.logcnt
  length : layer.phy2log.length = num_phy
  own : ∀ expert < num_log, layer.phy2log[expert]? = some expert
  experts : ∀ slot < given, ∃ expert < num_log, layer.phy2log[slot]? = some expert

theorem Replication.valid_start (enough : num_log ≤ num_phy) (length : weight.length = num_log) :
    (Replication.start num_phy weight).Valid num_log num_phy num_log where
  weights := length
  allocation := by
    constructor
    · exact List.length_replicate.trans length
    · intro count member
      exact (List.eq_of_mem_replicate member).ge
    · rw [Replication.start, List.sum_replicate_nat, length, Nat.mul_one]
  greedy := by
    intro j total count _ atCount many
    have single := List.eq_of_mem_replicate (List.mem_of_getElem? atCount)
    omega
  length := List.length_range
  own := fun expert small => List.getElem?_range (by omega)
  experts := fun slot small => ⟨slot, small, List.getElem?_range (by omega)⟩

/-- The next slot goes to an expert with the largest load. -/
theorem Replication.Valid.replicate {given : Nat} {layer : Replication}
    (valid : layer.Valid num_log num_phy given) (some_ : num_log ≠ 0)
    (nonneg : ∀ load ∈ layer.weight, 0 ≤ load) (later : num_log ≤ given)
    (inside_ : given < num_phy) :
    (layer.replicate given).Valid num_log num_phy (given + 1) := by
  have lengths : layer.logcnt.length = layer.weight.length :=
    valid.allocation.length.trans valid.weights.symm
  have loads := replicaLoads_length lengths
  have nonempty : replicaLoads layer.weight layer.logcnt ≠ [] := by
    apply List.ne_nil_of_length_pos
    rw [loads, valid.weights]
    exact Nat.pos_of_ne_zero some_
  have inside := firstMaximum_lt nonempty
  have within : firstMaximum (replicaLoads layer.weight layer.logcnt) < layer.logcnt.length := by
    rwa [loads, ← lengths] at inside
  -- No load grows.
  have lower : ∀ load ∈ replicaLoads layer.weight (layer.replicate given).logcnt,
      ∃ old ∈ replicaLoads layer.weight layer.logcnt, load ≤ old := by
    intro load member
    rcases mem_replicaLoads.mp member with ⟨k, total, count, atWeight, atCount, rfl⟩
    rw [Replication.replicate, List.getElem?_modify] at atCount
    rcases Option.map_eq_some_iff.mp atCount with ⟨old, atOld, grown⟩
    refine ⟨_, mem_replicaLoads.mpr ⟨k, total, old, atWeight, atOld, rfl⟩, ?_⟩
    have one_le := valid.allocation.positive _ (List.mem_of_getElem? atOld)
    apply div_le_div_of_nonneg_left (nonneg _ (List.mem_of_getElem? atWeight))
    · exact_mod_cast one_le
    · have more : old ≤ count := by
        split at grown <;> omega
      exact_mod_cast more
  constructor
  · exact valid.weights
  · constructor
    · rw [Replication.replicate, List.length_modify, valid.allocation.length]
    · intro count member
      rcases List.mem_iff_getElem?.mp member with ⟨k, atCount⟩
      rw [Replication.replicate, List.getElem?_modify] at atCount
      rcases Option.map_eq_some_iff.mp atCount with ⟨old, atOld, grown⟩
      have one_le := valid.allocation.positive _ (List.mem_of_getElem? atOld)
      split at grown <;> omega
    · rw [Replication.replicate, sum_modify_succ within, valid.allocation.total]
  · intro j total count atWeight atCount many load member
    rcases lower load member with ⟨old, inOld, below⟩
    apply below.trans
    rw [Replication.replicate, List.getElem?_modify] at atCount
    rcases Option.map_eq_some_iff.mp atCount with ⟨previous, atPrevious, grown⟩
    split at grown
    · -- The chosen expert had the largest load before.
      rename_i chosen
      have same : previous = count := Nat.succ.inj grown
      have atWeight : layer.weight[j]? = some total := atWeight
      have largest := le_firstMaximum inside inOld
      have read : (replicaLoads layer.weight layer.logcnt)[j]? = some (total / (count : ℚ)) := by
        rw [replicaLoads, List.getElem?_zipWith, atWeight, atPrevious, same]
      rw [← chosen, List.getElem?_eq_getElem inside, Option.some.injEq] at read
      rw [← read]
      exact largest
    · exact valid.greedy j total count atWeight (by rw [atPrevious, grown]) many old inOld
  · rw [Replication.replicate, List.length_set, valid.length]
  · intro expert small
    rw [Replication.replicate, List.getElem?_set_ne (by omega)]
    exact valid.own expert small
  · intro slot small
    by_cases now : given = slot
    · subst now
      refine ⟨_, ?_, List.getElem?_set_self (by rw [valid.length]; exact inside_)⟩
      rw [← valid.weights, ← loads]
      exact inside
    · rw [Replication.replicate, List.getElem?_set_ne now]
      exact valid.experts slot (by omega)

/-- Handing out slots to all layers keeps what holds of each. -/
theorem replicate_layers (some_ : num_log ≠ 0) {rows : List (List ℚ)}
    (nonneg : ∀ row ∈ rows, ∀ load ∈ row, 0 ≤ load) (slots : Nat) :
    ∀ (given : Nat) (layers : List Replication), num_log ≤ given → given + slots ≤ num_phy →
      Forall₂ (fun row layer => layer.weight = row ∧ layer.Valid num_log num_phy given) rows layers →
      ∃ after, (List.range' given slots).foldlM (fun layers i =>
          if num_log = 0 then none else some (layers.map (Replication.replicate i))) layers =
        some after ∧
        Forall₂ (fun row layer => layer.weight = row ∧
          layer.Valid num_log num_phy (given + slots)) rows after := by
  induction slots with
  | zero => exact fun given layers _ _ each => ⟨layers, rfl, each⟩
  | succ slots inductionHypothesis =>
      intro given layers later room each
      have next : Forall₂ (fun row layer => layer.weight = row ∧
          layer.Valid num_log num_phy (given + 1))
          rows (layers.map (Replication.replicate given)) := by
        rw [List.forall₂_map_right_iff]
        apply ((List.forall₂_and_left _ _).mpr ⟨nonneg, each⟩).imp
        rintro row layer ⟨positive, rfl, valid⟩
        exact ⟨rfl, valid.replicate some_ positive later (by omega)⟩
      rcases inductionHypothesis (given + 1) _ (by omega) (by omega) next with ⟨after, run, done⟩
      refine ⟨after, ?_, ?_⟩
      · rw [List.range'_succ, List.foldlM_cons, if_neg some_]
        exact run
      · rw [Nat.add_assoc, Nat.add_comm 1] at done
        exact done

/-- The loads of the experts in each layer. -/
structure ExpertLoads (num_log : Nat) where
  rows : List (List ℚ)
  shaped : ∀ row ∈ rows, row.length = num_log
  nonneg : ∀ row ∈ rows, ∀ load ∈ row, 0 ≤ load

/-- With experts to replicate, every layer gets a valid greedy allocation. -/
theorem replicateExperts_spec (enough : num_log ≤ num_phy) (some_ : num_log ≠ 0)
    (loads : ExpertLoads num_log) :
    ∃ layers, replicateExperts num_log loads.rows num_phy = some layers ∧
      Forall₂ (fun row layer => layer.weight = row ∧ layer.Valid num_log num_phy num_phy)
        loads.rows layers := by
  have started : Forall₂ (fun row layer => layer.weight = row ∧
      layer.Valid num_log num_phy num_log) loads.rows
      (loads.rows.map (Replication.start num_phy)) := by
    rw [List.forall₂_map_right_iff, List.forall₂_same]
    exact fun row member => ⟨rfl, Replication.valid_start enough (loads.shaped row member)⟩
  rcases replicate_layers some_ loads.nonneg (num_phy - num_log) num_log _ (le_refl _) (by omega)
    started with ⟨after, run, done⟩
  rw [Nat.add_sub_cancel' enough] at done
  refine ⟨after, ?_, done⟩
  rw [replicateExperts, if_neg (Nat.not_lt.mpr enough)]
  exact run

/-- The greedy counts minimise the largest load of a replica over all allocations; without experts
there is no allocation of a positive number of slots. -/
theorem replicateExperts_optimal {num_log num_phy : Nat} (enough : num_log ≤ num_phy)
    (loads : ExpertLoads num_log) :
    (∃ layers, replicateExperts num_log loads.rows num_phy = some layers ∧
      Forall₂ (fun weight layer => Allocation num_log num_phy layer.logcnt ∧
        ∀ counts, Allocation num_log num_phy counts →
          maxReplicaLoad weight layer.logcnt ≤ maxReplicaLoad weight counts)
        loads.rows layers) ∨
      replicateExperts num_log loads.rows num_phy = none ∧
        ∀ counts, ¬ Allocation num_log num_phy counts := by
  by_cases none_ : num_log = 0
  · subst none_
    cases num_phy with
    | zero =>
        refine Or.inl ⟨_, rfl, ?_⟩
        rw [List.forall₂_map_right_iff, List.forall₂_same]
        intro weight member
        have empty := List.eq_nil_of_length_eq_zero (loads.shaped weight member)
        subst empty
        have valid : (Replication.start 0 []).Valid 0 0 0 :=
          Replication.valid_start (le_refl 0) rfl
        refine ⟨valid.allocation, ?_⟩
        intro counts _
        exact le_refl _
    | succ num_phy =>
        refine Or.inr ⟨?_, ?_⟩
        · rw [replicateExperts, if_neg (Nat.not_lt_zero _), Nat.sub_zero, List.range'_succ,
            List.foldlM_cons, if_pos rfl]
          rfl
        · intro counts allocation
          have empty := List.eq_nil_of_length_eq_zero allocation.length
          have total := allocation.total
          rw [empty, List.sum_nil] at total
          cases total
  · rcases replicateExperts_spec enough none_ loads with ⟨layers, run, each⟩
    refine Or.inl ⟨layers, run, ?_⟩
    have rows : ∀ row ∈ loads.rows, row.length = num_log ∧ ∀ load ∈ row, 0 ≤ load :=
      fun row member => ⟨loads.shaped row member, loads.nonneg row member⟩
    apply ((List.forall₂_and_left _ _).mpr ⟨rows, each⟩).imp
    rintro weight layer ⟨⟨rfl, nonneg⟩, rfl, valid⟩
    refine ⟨valid.allocation, ?_⟩
    intro counts allocation
    exact valid.greedy.maxReplicaLoad_le nonneg valid.allocation allocation

/-- Three experts with loads 6, 0 and 3 on five slots. -/
theorem skewed_replicateExperts_optimal :
    3 ≤ 5 ∧ ((∃ layers, replicateExperts 3 [[6, 0, 3]] 5 = some layers ∧
      Forall₂ (fun weight layer => Allocation 3 5 layer.logcnt ∧
        ∀ counts, Allocation 3 5 counts →
          maxReplicaLoad weight layer.logcnt ≤ maxReplicaLoad weight counts)
        [[6, 0, 3]] layers) ∨
      replicateExperts 3 [[6, 0, 3]] 5 = none ∧ ∀ counts, ¬ Allocation 3 5 counts) :=
  ⟨by decide, replicateExperts_optimal (by decide)
    ⟨[[6, 0, 3]], by decide +kernel, by decide +kernel⟩⟩

example : (replicateExperts 3 [[6, 0, 3]] 5).map (List.map Replication.logcnt) =
    some [[3, 1, 1]] := by
  decide +kernel

end Vllm.Eplb
