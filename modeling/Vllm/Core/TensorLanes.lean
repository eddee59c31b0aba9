import Mathlib.Order.CompletePartialOrder
import Vllm.Core.TensorPlacement

/-!
# Tensors of one group share no byte

Every layer of a group is placed once.  The tensors of a group occupy consecutive
lanes, so neither two layers nor two blocks of one layer share a byte, and every page
lies inside the backing allocation that all tensors name as their size.
-/

namespace Vllm.Core.CachePlan

open Vllm.Library

/-- `interleaved_block_stride`. -/
def interleavedBlockStride (layout : KVCacheLayout) (bytesPerBlock : Nat) : Option Nat :=
  if layout.isBlockOutermost then some bytesPerBlock else none

/-- A tensor as the loop places it, with what the placement was computed from. -/
structure Placement (layout : KVCacheLayout) (numBlocks bytesPerBlock : Nat) where
  spec : LayerSpec
  pageSizeBytes : Nat
  byteOffset : Nat
  strides : Dim → Nat
  tensor : KVCacheTensor
  sized : spec.pageSizeBytes = .ok pageSizeBytes
  positive : 0 < pageSizeBytes
  computed : computeLayoutStrides spec numBlocks tensor.layers.length layout
    (interleavedStrides (interleavedBlockStride layout bytesPerBlock)) = .ok strides
  layerStride : tensor.layerStride = strides .l
  blockStride : tensor.blockStride = strides .b
  offset : tensor.offset = byteOffset * max (strides .l) pageSizeBytes / pageSizeBytes

/-- The lane of a byte: its place in the block, or the place of its run of blocks. -/
def lane (layout : KVCacheLayout) (numBlocks bytesPerBlock byte : Nat) : Nat :=
  if layout.isBlockOutermost then byte % bytesPerBlock else byte / numBlocks

namespace Placement

variable {layout : KVCacheLayout} {numBlocks bytesPerBlock : Nat}

/-- Where the lanes of the next tensor begin. -/
def finish (placement : Placement layout numBlocks bytesPerBlock) : Nat :=
  placement.byteOffset + placement.tensor.layers.length * placement.pageSizeBytes

/-- The bytes of a page of the tensor. -/
def page (placement : Placement layout numBlocks bytesPerBlock) (layer block : Nat) : Set Nat :=
  pageBytes placement.spec placement.strides (placement.tensor.offset +
    layer * placement.tensor.layerStride + block * placement.tensor.blockStride)

section Layout

variable (placement : Placement layout numBlocks bytesPerBlock)
variable (blocks : 0 < numBlocks) (layers : 0 < placement.tensor.layers.length)

include blocks layers

/-- The spread of the tensor, with the stride of the outermost axis. -/
theorem spread (bytes : 0 < bytesPerBlock) :
    (∃ between tail, Spread placement.spec numBlocks placement.tensor.layers.length
      placement.pageSizeBytes layout placement.strides between tail) ∧
    placement.strides layout.outerDim =
      if layout.isBlockOutermost then bytesPerBlock else placement.pageSizeBytes * numBlocks := by
  have free (dim : Dim) (inner : dim ≠ layout.outerDim) :
      interleavedStrides (interleavedBlockStride layout bytesPerBlock) dim = none := by
    unfold interleavedBlockStride
    unfold KVCacheLayout.outerDim at inner
    cases dim with
    | b =>
        split at inner
        · contradiction
        · rename_i first
          rw [if_neg first]
          rfl
    | _ => rfl
  rcases computeLayoutStrides_spread placement.computed placement.sized free blocks layers with
    ⟨spread, outer⟩
  refine ⟨spread, ?_⟩
  rw [outer]
  unfold KVCacheLayout.outerDim KVCacheLayout.gridDim interleavedBlockStride
  split
  · exact fixedOr_some bytes
  · rfl

/-- The offset counts bytes of a block, or runs of blocks. -/
theorem offset_eq (bytes : 0 < bytesPerBlock) :
    placement.tensor.offset =
      if layout.isBlockOutermost then placement.byteOffset
      else placement.byteOffset * numBlocks := by
  rcases placement.spread blocks layers bytes with ⟨⟨between, tail, spread⟩, outer⟩
  have positive := placement.positive
  rw [placement.offset]
  split
  · rename_i first
    have grid : layout.gridDim = .l := if_pos first
    have short : placement.strides .l ≤ placement.pageSizeBytes := by
      rw [← grid]
      exact Nat.le_of_dvd positive ⟨_, spread.whole.symm⟩
    rw [Nat.max_eq_right short, Nat.mul_div_cancel _ positive]
  · rename_i first
    rw [if_neg first, show layout.outerDim = .l from if_neg first] at outer
    rw [outer, Nat.max_eq_left (Nat.le_mul_of_pos_right _ blocks), ← Nat.mul_assoc,
      Nat.mul_right_comm, Nat.mul_div_cancel _ positive]

/-- The views of the tensor use the strides that placed it. -/
theorem viewStrides_eq (bytes : 0 < bytesPerBlock) :
    viewStrides placement.spec numBlocks layout placement.tensor = .ok placement.strides := by
  rcases placement.spread blocks layers bytes with ⟨⟨between, tail, spread⟩, outer⟩
  have outerPositive : 0 < placement.strides layout.outerDim := by
    rw [outer]
    split
    · exact bytes
    · exact Nat.mul_pos placement.positive blocks
  have gridPositive : 0 < placement.strides layout.gridDim := by
    apply Nat.pos_of_ne_zero
    intro zero
    have positive := placement.positive
    rw [← spread.whole, zero, Nat.zero_mul] at positive
    exact Nat.lt_irrefl 0 positive
  have both : 0 < placement.strides .l ∧ 0 < placement.strides .b := by
    unfold KVCacheLayout.outerDim at outerPositive
    unfold KVCacheLayout.gridDim at gridPositive
    split at outerPositive
    · rename_i first
      rw [if_pos first] at gridPositive
      exact ⟨gridPositive, outerPositive⟩
    · rename_i first
      rw [if_neg first] at gridPositive
      exact ⟨outerPositive, gridPositive⟩
  have computed := placement.computed
  rcases bind_eq_ok.mp computed with ⟨_, _, computed⟩
  rcases bind_eq_ok.mp computed with ⟨size, sizes, computed⟩
  rcases bind_eq_ok.mp computed with ⟨_, asserted, computed⟩
  rcases bind_eq_ok.mp computed with ⟨⟨strides, current⟩, looped, computed⟩
  replace computed : strides = placement.strides := Except.ok.inj computed
  subst computed
  refine bind_eq_ok.mpr ⟨(), ?_, bind_eq_ok.mpr ⟨size, sizes, bind_eq_ok.mpr ⟨_, asserted,
    bind_eq_ok.mpr ⟨(placement.strides, current), ?_, rfl⟩⟩⟩⟩
  · apply pyAssert_eq_ok.mpr
    rintro (_ | _) _
    · exact fun zero => absurd (Option.some.inj zero) (placement.layerStride ▸ Nat.ne_of_gt both.1)
    · exact fun zero => absurd (Option.some.inj zero) (placement.blockStride ▸ Nat.ne_of_gt both.2)
    all_goals nofun
  · apply stridesLoop_fixed looped
    · rw [List.zipIdx_map_fst]
      cases layout <;> decide
    · rintro (_ | _) _
      · exact .inr ⟨both.1, by rw [placement.layerStride]⟩
      · exact .inr ⟨both.2, by rw [placement.blockStride]⟩
      all_goals exact .inl rfl

/-- The pages of a tensor keep to its lanes and to the allocation. -/
theorem page_lane (bytes : 0 < bytesPerBlock) (room : placement.finish ≤ bytesPerBlock)
    {layer block byte : Nat} (inLayers : layer < placement.tensor.layers.length)
    (inBlocks : block < numBlocks) (member : byte ∈ placement.page layer block) :
    placement.byteOffset ≤ lane layout numBlocks bytesPerBlock byte ∧
      lane layout numBlocks bytesPerBlock byte < placement.finish ∧
      byte < bytesPerBlock * numBlocks := by
  rcases placement.spread blocks layers bytes with ⟨⟨between, tail, spread⟩, outer⟩
  have offset := placement.offset_eq blocks layers bytes
  unfold page at member
  rw [placement.layerStride, placement.blockStride] at member
  rcases spread.exists_cell placement.positive inLayers inBlocks member with
    ⟨index, cell, inside, -, short, rfl⟩
  have below := spread.row.address_lt inside short
  generalize address placement.strides index (between ++ [layout.gridDim]) + cell = rest at *
  unfold finish at room ⊢
  unfold lane
  by_cases first : layout.isBlockOutermost
  · rw [if_pos first] at outer offset ⊢
    rw [outer, offset, show layout.outerDim = .b from if_pos first]
    rw [show layout.gridDim = .l from if_pos first] at below
    change rest < placement.pageSizeBytes * placement.tensor.layers.length at below
    change placement.byteOffset ≤
        (placement.byteOffset + (block * bytesPerBlock + rest)) % bytesPerBlock ∧
      (placement.byteOffset + (block * bytesPerBlock + rest)) % bytesPerBlock < _ ∧
      placement.byteOffset + (block * bytesPerBlock + rest) < _
    rw [Nat.mul_comm] at below
    have inside : placement.byteOffset + rest < bytesPerBlock := by omega
    have row : (block + 1) * bytesPerBlock ≤ numBlocks * bytesPerBlock :=
      Nat.mul_le_mul_right _ inBlocks
    rw [Nat.add_left_comm, Nat.add_comm (block * bytesPerBlock), Nat.add_mul_mod_self_right,
      Nat.mod_eq_of_lt inside, Nat.mul_comm bytesPerBlock]
    rw [Nat.succ_mul] at row
    omega
  · rw [if_neg first] at outer offset ⊢
    rw [outer, offset, show layout.outerDim = .l from if_neg first]
    rw [show layout.gridDim = .b from if_neg first] at below
    change rest < placement.pageSizeBytes * numBlocks at below
    change placement.byteOffset ≤ (placement.byteOffset * numBlocks +
        (layer * (placement.pageSizeBytes * numBlocks) + rest)) / numBlocks ∧
      (placement.byteOffset * numBlocks +
        (layer * (placement.pageSizeBytes * numBlocks) + rest)) / numBlocks < _ ∧
      placement.byteOffset * numBlocks + (layer * (placement.pageSizeBytes * numBlocks) + rest) < _
    have row : (layer + 1) * (placement.pageSizeBytes * numBlocks) ≤
        placement.tensor.layers.length * (placement.pageSizeBytes * numBlocks) :=
      Nat.mul_le_mul_right _ inLayers
    have whole : (placement.byteOffset +
        placement.tensor.layers.length * placement.pageSizeBytes) * numBlocks =
        placement.byteOffset * numBlocks +
          placement.tensor.layers.length * (placement.pageSizeBytes * numBlocks) := by ring
    have fits := Nat.mul_le_mul_right numBlocks room
    rw [Nat.succ_mul] at row
    refine ⟨(Nat.le_div_iff_mul_le blocks).mpr (Nat.le_add_right _ _),
      (Nat.div_lt_iff_lt_mul blocks).mpr ?_, ?_⟩
    · omega
    · omega

/-- Two pages of one tensor share no byte. -/
theorem page_eq (bytes : 0 < bytesPerBlock) (room : placement.finish ≤ bytesPerBlock)
    {layer layer' block block' byte : Nat} (inLayers : layer < placement.tensor.layers.length)
    (inLayers' : layer' < placement.tensor.layers.length) (inBlocks : block < numBlocks)
    (inBlocks' : block' < numBlocks) (member : byte ∈ placement.page layer block)
    (member' : byte ∈ placement.page layer' block') : layer = layer' ∧ block = block' := by
  rcases placement.spread blocks layers bytes with ⟨⟨between, tail, spread⟩, outer⟩
  unfold page at member member'
  rw [placement.layerStride, placement.blockStride] at member member'
  refine spread.pages_eq placement.positive ?_ inLayers inLayers' inBlocks inBlocks' member member'
  rw [outer]
  split
  · rename_i first
    rw [show layout.gridDim = .l from if_pos first]
    change placement.pageSizeBytes * placement.tensor.layers.length ≤ bytesPerBlock
    unfold finish at room
    rw [Nat.mul_comm]
    omega
  · rename_i first
    rw [show layout.gridDim = .b from if_neg first]
    exact Nat.le_refl _

end Layout

end Placement

/-! ## The loop over the specifications of a group -/

section Loop

variable {layout : KVCacheLayout} {numBlocks bytesPerBlock size byteOffset : Nat}

/-- The bytes of one block over the layers of the entries. -/
def entriesBytes (entries : List (LayerSpec × List String)) : Nat :=
  (entries.map fun entry => entry.2.length * (entry.1.pageSizeBytes.toOption.getD 0)).sum

/-- The loop places every entry, in consecutive lanes. -/
theorem tensorsLoop_placed {entries : List (LayerSpec × List String)} {tensors : List KVCacheTensor}
    (ran : tensorsLoop layout numBlocks size (interleavedBlockStride layout bytesPerBlock)
      byteOffset entries = .ok tensors) :
    ∃ placements : List (Placement layout numBlocks bytesPerBlock),
      placements.map (·.tensor) = tensors ∧
      placements.map (fun placement => (placement.spec, placement.tensor.layers)) = entries ∧
      (∀ placement ∈ placements, placement.tensor.size = size ∧
        byteOffset ≤ placement.byteOffset ∧
        placement.finish ≤ byteOffset + entriesBytes entries) ∧
      placements.Pairwise fun first second => first.finish ≤ second.byteOffset := by
  induction entries generalizing byteOffset tensors with
  | nil =>
      cases ran
      refine ⟨[], rfl, rfl, ?_, .nil⟩
      intro placement member
      exact absurd member List.not_mem_nil
  | cons entry rest inductionHypothesis =>
      rcases entry with ⟨spec, layerNames⟩
      rcases bind_eq_ok.mp ran with ⟨strides, computed, ran⟩
      rcases bind_eq_ok.mp ran with ⟨pageSizeBytes, sized, ran⟩
      rcases bind_eq_ok.mp ran with ⟨offset, divided, ran⟩
      rcases bind_eq_ok.mp ran with ⟨others, looped, ran⟩
      cases ran
      have positive : 0 < pageSizeBytes := by
        unfold pyFloorDiv at divided
        split at divided
        · contradiction
        · omega
      rw [pyFloorDiv, if_neg (Nat.ne_of_gt positive)] at divided
      rcases inductionHypothesis looped with ⟨placements, rfl, rfl, kept, apart⟩
      let placed : Placement layout numBlocks bytesPerBlock :=
        { spec := spec, pageSizeBytes := pageSizeBytes, byteOffset := byteOffset,
          strides := strides, tensor := ⟨size, layerNames, strides .l, strides .b, offset⟩,
          sized := sized, positive := positive, computed := computed, layerStride := rfl,
          blockStride := rfl, offset := (Except.ok.inj divided).symm }
      have bytes : entriesBytes ((spec, layerNames) :: placements.map fun placement =>
          (placement.spec, placement.tensor.layers)) = layerNames.length * pageSizeBytes +
            entriesBytes (placements.map fun placement =>
              (placement.spec, placement.tensor.layers)) := by
        have page : spec.pageSizeBytes.toOption.getD 0 = pageSizeBytes := by
          rw [sized]
          rfl
        rw [← page]
        rfl
      refine ⟨placed :: placements, rfl, rfl, ?_, .cons ?_ apart⟩
      · rw [bytes]
        rintro placement (_ | ⟨_, member⟩)
        · refine ⟨rfl, Nat.le_refl _, ?_⟩
          change byteOffset + layerNames.length * pageSizeBytes ≤ _
          omega
        · have inside := kept placement member
          omega
      · intro placement member
        exact (kept placement member).2.1

end Loop

/-! ## The layers of a group -/

variable {α β : Type}

theorem mapM_eq_ok {f : α → Except PyError β} {items : List α} {values : List β}
    (ran : items.mapM f = .ok values) : List.Forall₂ (fun item value => f item = .ok value)
      items values := by
  induction items generalizing values with
  | nil =>
      cases ran
      exact .nil
  | cons item items inductionHypothesis =>
      rw [List.mapM_cons] at ran
      rcases bind_eq_ok.mp ran with ⟨value, first, ran⟩
      rcases bind_eq_ok.mp ran with ⟨rest, others, ran⟩
      cases ran
      exact .cons first (inductionHypothesis others)

/-- The layers of the entries with their specifications. -/
def flatEntries (entries : List (LayerSpec × List String)) : List (String × LayerSpec) :=
  entries.flatMap fun entry => entry.2.map fun layerName => (layerName, entry.1)

/-- The layers of a group with their specifications. -/
def KVCacheGroupSpec.items (group : KVCacheGroupSpec) : List (String × LayerSpec) :=
  match group.kvCacheSpec with
  | .uniformType _ kvCacheSpecs => kvCacheSpecs.entries
  | .layer spec => group.layerNames.map fun layerName => (layerName, spec)

/-- A uniform type has specifications for the layers of its group and no others. -/
def KVCacheGroupSpec.Covers (group : KVCacheGroupSpec) : Prop :=
  match group.kvCacheSpec with
  | .uniformType _ kvCacheSpecs => kvCacheSpecs.keys.Perm group.layerNames
  | .layer _ => True

theorem flatEntries_insert (spec : LayerSpec) (layerName : String)
    (entries : List (LayerSpec × List String)) :
    (flatEntries (Dict.insertEntries spec
      ((Dict.lookupEntries spec entries).getD [] ++ [layerName]) entries)).Perm
      (flatEntries entries ++ [(layerName, spec)]) := by
  induction entries with
  | nil => exact .refl _
  | cons entry rest inductionHypothesis =>
      rw [Dict.insertEntries, Dict.lookupEntries]
      split
      · rename_i same
        subst same
        simp only [flatEntries, List.flatMap_cons, Option.getD_some, List.map_append,
          List.append_assoc, List.map_cons, List.map_nil]
        exact List.perm_append_comm.append_left _
      · simp only [flatEntries, List.flatMap_cons, List.append_assoc]
        exact inductionHypothesis.append_left _

theorem flatEntries_foldl (items : List (String × LayerSpec))
    (layers : Dict LayerSpec (List String)) :
    (flatEntries (items.foldl appendLayer layers).entries).Perm
      (flatEntries layers.entries ++ items) := by
  induction items generalizing layers with
  | nil =>
      rw [List.append_nil]
      exact .refl _
  | cons item items inductionHypothesis =>
      have appended := flatEntries_insert item.2 item.1 layers.entries
      have rest := inductionHypothesis (appendLayer layers item)
      apply rest.trans
      rw [List.append_cons]
      exact appended.append_right items

/-- Grouping the layers by their specification loses and adds none. -/
theorem layersBySpec_perm (group : KVCacheGroupSpec) :
    (flatEntries (layersBySpec group).entries).Perm group.items := by
  rcases group with ⟨layerNames, spec | ⟨_, kvCacheSpecs⟩⟩
  · change (flatEntries (if layerNames = [] then Dict.empty else Dict.empty.insert spec
      (Dict.empty.getD spec [] ++ layerNames)).entries).Perm
        (layerNames.map fun layerName => (layerName, spec))
    split
    · rename_i empty
      rw [empty]
      exact .refl _
    · simp [flatEntries, Dict.empty, Dict.insert, Dict.insertEntries, Dict.getD, Dict.get?,
        Dict.lookupEntries]
  · exact flatEntries_foldl kvCacheSpecs.entries Dict.empty

section Group

variable {group : KVCacheGroupSpec}

theorem KVCacheGroupSpec.items_spec {item : String × LayerSpec} (member : item ∈ group.items) :
    getPerLayerSpec group item.1 = .ok item.2 := by
  rcases group with ⟨layerNames, spec | ⟨_, kvCacheSpecs⟩⟩
  · rcases List.mem_map.mp member with ⟨layerName, _, rfl⟩
    rfl
  · have found := (kvCacheSpecs.get?_eq_some_iff item.1 item.2).mpr member
    simp only [getPerLayerSpec, found]

theorem KVCacheGroupSpec.items_names (covers : group.Covers) :
    (group.items.map Prod.fst).Perm group.layerNames := by
  rcases group with ⟨layerNames, spec | ⟨_, kvCacheSpecs⟩⟩
  · simp [KVCacheGroupSpec.items, Function.comp_def]
  · exact covers

/-- The entries of a group take as many bytes of a block as its layers. -/
theorem entriesBytes_eq (covers : group.Covers) {total : Nat}
    (summed : groupBytesPerBlock group = .ok total) :
    entriesBytes (layersBySpec group).entries = total := by
  have flat (entries : List (LayerSpec × List String)) : entriesBytes entries =
      ((flatEntries entries).map fun item => item.2.pageSizeBytes.toOption.getD 0).sum := by
    induction entries with
    | nil => rfl
    | cons entry rest inductionHypothesis =>
        rw [flatEntries, List.flatMap_cons, List.map_append, List.sum_append, List.map_map,
          ← flatEntries, ← inductionHypothesis]
        simp [entriesBytes, Function.comp_def]
  rcases bind_eq_ok.mp summed with ⟨pages, ran, summed⟩
  cases summed
  have named : pages = group.layerNames.map fun layerName =>
      (getPerLayerSpec group layerName >>= LayerSpec.pageSizeBytes).toOption.getD 0 := by
    generalize group.layerNames = names at ran
    have each := mapM_eq_ok ran
    clear ran summed
    induction each with
    | nil => rfl
    | cons first _ inductionHypothesis =>
        congr 1
        exact (congrArg (·.toOption.getD 0) first).symm
  rw [flat, ((layersBySpec_perm group).map _).sum_eq, named,
    ← ((KVCacheGroupSpec.items_names covers).map _).sum_eq, List.map_map]
  congr 1
  apply List.map_congr_left
  intro item member
  rw [Function.comp_apply, KVCacheGroupSpec.items_spec member]
  rfl

end Group

/-! ## The configuration -/

/-- A running maximum is at least its start and every member. -/
theorem foldl_max_spec (start : Nat) (sums : List Nat) :
    start ≤ sums.foldl max start ∧ ∀ total ∈ sums, total ≤ sums.foldl max start := by
  induction sums generalizing start with
  | nil => simp
  | cons total sums inductionHypothesis =>
      have after := inductionHypothesis (max start total)
      refine ⟨le_trans (Nat.le_max_left _ _) after.1, ?_⟩
      rintro other (_ | ⟨_, member⟩)
      · exact le_trans (Nat.le_max_right _ _) after.1
      · exact after.2 other member

theorem getKvCacheBytesPerBlock_spec {groups : List KVCacheGroupSpec} {bytesPerBlock : Nat}
    (ran : getKvCacheBytesPerBlock groups = .ok bytesPerBlock) :
    0 < bytesPerBlock ∧ ∀ group ∈ groups, ∃ total, groupBytesPerBlock group = .ok total ∧
      total ≤ bytesPerBlock := by
  rcases bind_eq_ok.mp ran with ⟨sums, summed, ran⟩
  have each := mapM_eq_ok summed
  cases sums with
  | nil => contradiction
  | cons first rest =>
      rcases bind_eq_ok.mp ran with ⟨_, positive, ran⟩
      cases ran
      refine ⟨pyAssert_eq_ok.mp positive, fun group member => ?_⟩
      rcases List.mem_iff_getElem.mp member with ⟨position, within, rfl⟩
      have within' : position < (first :: rest).length := each.length_eq ▸ within
      refine ⟨(first :: rest)[position], each.get within within', ?_⟩
      rcases List.mem_cons.mp (List.getElem_mem within') with same | member
      · exact le_of_eq_of_le same (foldl_max_spec first rest).1
      · exact (foldl_max_spec first rest).2 _ member

/-- Different members of a list are related in one order or the other. -/
theorem pairwise_or {R : α → α → Prop} {items : List α} (pairs : items.Pairwise R)
    {first second : α} (member : first ∈ items) (member' : second ∈ items)
    (differ : first ≠ second) :
    R first second ∨ R second first := by
  have : Std.Symm fun first second => R first second ∨ R second first := ⟨fun _ _ => Or.symm⟩
  have either : items.Pairwise fun first second => R first second ∨ R second first :=
    pairs.imp Or.inl
  exact either.forall member member' differ

theorem forall₂_mem {R : α → β → Prop} {items : List α} {others : List β}
    (each : List.Forall₂ R items others) :
    (∀ item ∈ items, ∃ other ∈ others, R item other) ∧
      ∀ other ∈ others, ∃ item ∈ items, R item other := by
  induction each with
  | nil => simp
  | cons related _ inductionHypothesis =>
      simp only [List.forall_mem_cons, List.exists_mem_cons_iff]
      exact ⟨⟨.inl related, fun item member => .inr (inductionHypothesis.1 item member)⟩,
        .inl related, fun other member => .inr (inductionHypothesis.2 other member)⟩

/-- A group whose layers have been placed in tensors of the configuration. -/
structure GroupPlaced (layout : KVCacheLayout) (numBlocks bytesPerBlock : Nat)
    (group : KVCacheGroupSpec) (tensors : List KVCacheTensor)
    (placements : List (Placement layout numBlocks bytesPerBlock)) : Prop where
  tensors : placements.map (·.tensor) = tensors
  layers : (flatEntries (placements.map fun placement =>
    (placement.spec, placement.tensor.layers))).Perm group.items
  size : ∀ placement ∈ placements, placement.tensor.size = bytesPerBlock * numBlocks
  room : ∀ placement ∈ placements, placement.finish ≤ bytesPerBlock
  apart : placements.Pairwise fun first second => first.finish ≤ second.byteOffset

section Config

variable {layout : KVCacheLayout} {numBlocks bytesPerBlock : Nat} {group : KVCacheGroupSpec}
variable {tensors : List KVCacheTensor}

theorem group_placed (covers : group.Covers) {total : Nat}
    (summed : groupBytesPerBlock group = .ok total) (most : total ≤ bytesPerBlock)
    (ran : tensorsLoop layout numBlocks (bytesPerBlock * numBlocks)
      (interleavedBlockStride layout bytesPerBlock) 0 (layersBySpec group).entries = .ok tensors) :
    ∃ placements, GroupPlaced layout numBlocks bytesPerBlock group tensors placements := by
  rcases tensorsLoop_placed ran with ⟨placements, tensors, entries, kept, apart⟩
  rw [entriesBytes_eq covers summed, Nat.zero_add] at kept
  refine ⟨placements, tensors, ?_, fun placement member => (kept placement member).1,
    fun placement member => le_trans (kept placement member).2.2 most, apart⟩
  rw [entries]
  exact layersBySpec_perm group

variable {placements : List (Placement layout numBlocks bytesPerBlock)}
variable (placed : GroupPlaced layout numBlocks bytesPerBlock group tensors placements)

include placed

theorem GroupPlaced.layers_perm (covers : group.Covers) :
    (tensors.flatMap (·.layers)).Perm group.layerNames := by
  have names := (placed.layers.map Prod.fst).trans (KVCacheGroupSpec.items_names covers)
  rw [← placed.tensors]
  simpa [flatEntries, List.map_flatMap, List.flatMap_map, Function.comp_def] using names

theorem GroupPlaced.spec {placement : Placement layout numBlocks bytesPerBlock}
    (member : placement ∈ placements) {layerName : String}
    (named : layerName ∈ placement.tensor.layers) :
    getPerLayerSpec group layerName = .ok placement.spec := by
  have item : (layerName, placement.spec) ∈ group.items := by
    apply placed.layers.subset
    rw [flatEntries, List.mem_flatMap]
    exact ⟨_, List.mem_map.mpr ⟨placement, member, rfl⟩, List.mem_map.mpr ⟨_, named, rfl⟩⟩
  exact KVCacheGroupSpec.items_spec item

end Config

section Whole

variable {cacheConfig : CacheConfig} {groups : List KVCacheGroupSpec} {availableMemory : Nat}
variable {config : KVCacheConfig}

/-- What a successful call computed for its groups. -/
theorem getKvCacheConfigFromGroups_spec (nonempty : groups ≠ [])
    (ran : getKvCacheConfigFromGroups cacheConfig groups availableMemory = .ok config) :
    ∃ layout bytesPerBlock, cacheConfig.kvCacheLayout = some layout ∧
      getKvCacheBytesPerBlock groups = .ok bytesPerBlock ∧
      config.numBlocks = mayOverrideNumBlocks cacheConfig (availableMemory / bytesPerBlock) ∧
      ∃ tensors, config.kvCacheTensors = tensors.flatten ∧
        List.Forall₂ (fun group tensors => tensorsLoop layout config.numBlocks
          (bytesPerBlock * config.numBlocks) (interleavedBlockStride layout bytesPerBlock) 0
          (layersBySpec group).entries = .ok tensors) groups tensors := by
  unfold getKvCacheConfigFromGroups at ran
  rw [if_neg nonempty] at ran
  rcases bind_eq_ok.mp ran with ⟨layout, resolved, ran⟩
  rcases bind_eq_ok.mp ran with ⟨_, _, ran⟩
  rcases bind_eq_ok.mp ran with ⟨bytesPerBlock, bytes, ran⟩
  rcases bind_eq_ok.mp ran with ⟨tensors, looped, ran⟩
  cases ran
  refine ⟨layout, bytesPerBlock, ?_, bytes, rfl, tensors, rfl, mapM_eq_ok looped⟩
  unfold CacheConfig.getResolvedKvCacheLayout at resolved
  split at resolved
  · rename_i found
    rw [found, Except.ok.inj resolved]
  · contradiction

/-- The groups with their placements. -/
theorem groups_placed (nonempty : groups ≠ []) (covers : ∀ group ∈ groups, group.Covers)
    (ran : getKvCacheConfigFromGroups cacheConfig groups availableMemory = .ok config) :
    ∃ layout bytesPerBlock, cacheConfig.kvCacheLayout = some layout ∧ 0 < bytesPerBlock ∧
      config.numBlocks = mayOverrideNumBlocks cacheConfig (availableMemory / bytesPerBlock) ∧
      (∀ tensor ∈ config.kvCacheTensors, tensor.size = bytesPerBlock * config.numBlocks) ∧
      ∃ tensors, config.kvCacheTensors = tensors.flatten ∧
        List.Forall₂ (fun group tensors => tensorsLoop layout config.numBlocks
          (bytesPerBlock * config.numBlocks) (interleavedBlockStride layout bytesPerBlock) 0
          (layersBySpec group).entries = .ok tensors ∧
          (tensors.flatMap (·.layers)).Perm group.layerNames ∧
          ∃ placements, GroupPlaced layout config.numBlocks bytesPerBlock group tensors
            placements) groups tensors := by
  rcases getKvCacheConfigFromGroups_spec nonempty ran with
    ⟨layout, bytesPerBlock, resolved, bytes, blocks, tensors, flat, each⟩
  rcases getKvCacheBytesPerBlock_spec bytes with ⟨positive, most⟩
  have all : List.Forall₂ (fun group tensors => tensorsLoop layout config.numBlocks
      (bytesPerBlock * config.numBlocks) (interleavedBlockStride layout bytesPerBlock) 0
      (layersBySpec group).entries = .ok tensors ∧
      (tensors.flatMap (·.layers)).Perm group.layerNames ∧
      ∃ placements, GroupPlaced layout config.numBlocks bytesPerBlock group tensors
        placements) groups tensors := by
    apply List.forall₂_iff_get.mpr ⟨each.length_eq, fun position within within' => ?_⟩
    have looped := each.get within within'
    have member : groups.get ⟨position, within⟩ ∈ groups := List.get_mem ..
    rcases most _ member with ⟨total, summed, room⟩
    rcases group_placed (covers _ member) summed room looped with ⟨placements, placed⟩
    exact ⟨looped, placed.layers_perm (covers _ member), placements, placed⟩
  refine ⟨layout, bytesPerBlock, resolved, positive, blocks, ?_, tensors, flat, all⟩
  intro tensor inside
  rw [flat] at inside
  rcases List.mem_flatten.mp inside with ⟨listed, member, inside⟩
  rcases (forall₂_mem all).2 listed member with ⟨_, _, _, _, _, placed⟩
  rw [← placed.tensors] at inside
  rcases List.mem_map.mp inside with ⟨placement, chosen, rfl⟩
  exact placed.size placement chosen

variable {group : KVCacheGroupSpec}

/-- A group with its placements, in a configuration with distinct layers. -/
theorem exists_placements (covers : ∀ group ∈ groups, group.Covers)
    (distinct : (groups.flatMap (·.layerNames)).Nodup)
    (ran : getKvCacheConfigFromGroups cacheConfig groups availableMemory = .ok config)
    (member : group ∈ groups) :
    ∃ layout bytesPerBlock tensors placements, cacheConfig.kvCacheLayout = some layout ∧
      0 < bytesPerBlock ∧
      GroupPlaced layout config.numBlocks bytesPerBlock group tensors placements ∧
      (∀ tensor ∈ tensors, tensor ∈ config.kvCacheTensors) ∧
      (∀ tensor ∈ config.kvCacheTensors, tensor.size = bytesPerBlock * config.numBlocks) ∧
      ∀ tensor ∈ config.kvCacheTensors, ∀ layerName ∈ tensor.layers,
        layerName ∈ group.layerNames → tensor ∈ tensors := by
  rcases groups_placed (List.ne_nil_of_mem member) covers ran with
    ⟨layout, bytesPerBlock, resolved, bytes, -, sizes, lists, flat, each⟩
  rcases (forall₂_mem each).1 group member with ⟨tensors, listed, looped, -, placements, placed⟩
  refine ⟨layout, bytesPerBlock, tensors, placements, resolved, bytes, placed, ?_, sizes, ?_⟩
  · intro tensor inside
    rw [flat]
    exact List.mem_flatten.mpr ⟨tensors, listed, inside⟩
  · intro tensor inside layerName named layerMember
    rw [flat] at inside
    rcases List.mem_flatten.mp inside with ⟨others, listed', inside⟩
    rcases (forall₂_mem each).2 others listed' with ⟨group', member', looped', names, -⟩
    have layerMember' : layerName ∈ group'.layerNames :=
      names.subset (List.mem_flatMap.mpr ⟨tensor, inside, named⟩)
    -- A layer belongs to one group only.
    have same : group = group' := by
      by_contra differ
      rcases pairwise_or (List.nodup_flatMap.mp distinct).2 member member' differ with
        disjoint | disjoint
      · exact disjoint layerMember layerMember'
      · exact disjoint layerMember' layerMember
    subst same
    rw [looped] at looped'
    rw [Except.ok.inj looped']
    exact inside

variable {layerName : String}

/-- Every page of a layer belongs to one of the placements of its group. -/
theorem IsPage.placed {layout : KVCacheLayout} {bytesPerBlock block : Nat}
    {tensors : List KVCacheTensor}
    {placements : List (Placement layout config.numBlocks bytesPerBlock)}
    (resolved : cacheConfig.kvCacheLayout = some layout) (bytes : 0 < bytesPerBlock)
    (placed : GroupPlaced layout config.numBlocks bytesPerBlock group tensors placements)
    (own : ∀ tensor ∈ config.kvCacheTensors, ∀ layerName ∈ tensor.layers,
      layerName ∈ group.layerNames → tensor ∈ tensors) (member : layerName ∈ group.layerNames)
    (inBlocks : block < config.numBlocks) {page : Set Nat}
    (isPage : IsPage cacheConfig config group layerName block page) :
    ∃ placement ∈ placements, ∃ layer, placement.tensor.layers[layer]? = some layerName ∧
      page = placement.page layer block := by
  rcases isPage with
    ⟨layout', spec, strides, tensor, inside, layer, resolved', found, named, viewed, rfl⟩
  rw [resolved] at resolved'
  cases resolved'
  rcases List.getElem?_eq_some_iff.mp named with ⟨within, rfl⟩
  have listed := own tensor inside _ (List.getElem_mem within) member
  rw [← placed.tensors] at listed
  rcases List.mem_map.mp listed with ⟨placement, chosen, rfl⟩
  have blocks : 0 < config.numBlocks := Nat.zero_lt_of_lt inBlocks
  have layers : 0 < placement.tensor.layers.length := Nat.zero_lt_of_lt within
  have same := placed.spec chosen (List.getElem_mem within)
  rw [found] at same
  cases same
  rw [placement.viewStrides_eq blocks layers bytes] at viewed
  cases viewed
  exact ⟨placement, chosen, layer, named, rfl⟩

/-- Every layer has pages. -/
theorem exists_page (covers : ∀ group ∈ groups, group.Covers)
    (distinct : (groups.flatMap (·.layerNames)).Nodup)
    (ran : getKvCacheConfigFromGroups cacheConfig groups availableMemory = .ok config)
    (member : group ∈ groups) (named : layerName ∈ group.layerNames) {block : Nat}
    (inBlocks : block < config.numBlocks) :
    ∃ page, IsPage cacheConfig config group layerName block page := by
  rcases exists_placements covers distinct ran member with
    ⟨layout, bytesPerBlock, tensors, placements, resolved, bytes, placed, listed, -, -⟩
  have inTensor := (placed.layers_perm (covers group member)).symm.subset named
  rcases List.mem_flatMap.mp inTensor with ⟨tensor, inside, layer⟩
  have own := listed tensor inside
  rw [← placed.tensors] at inside
  rcases List.mem_map.mp inside with ⟨placement, chosen, rfl⟩
  rcases List.mem_iff_getElem?.mp layer with ⟨index, at'⟩
  exact ⟨_, layout, placement.spec, placement.strides, placement.tensor, own, index, resolved,
    placed.spec chosen layer, at', placement.viewStrides_eq (Nat.zero_lt_of_lt inBlocks)
      (List.length_pos_of_mem layer) bytes, rfl⟩

/-- Two pages of a group that share a byte are the same page. -/
theorem page_unique (covers : ∀ group ∈ groups, group.Covers)
    (distinct : (groups.flatMap (·.layerNames)).Nodup)
    (ran : getKvCacheConfigFromGroups cacheConfig groups availableMemory = .ok config)
    (member : group ∈ groups) {layerName' : String} (named : layerName ∈ group.layerNames)
    (named' : layerName' ∈ group.layerNames) {block block' : Nat}
    (inBlocks : block < config.numBlocks) (inBlocks' : block' < config.numBlocks)
    {page page' : Set Nat} (isPage : IsPage cacheConfig config group layerName block page)
    (isPage' : IsPage cacheConfig config group layerName' block' page') {byte : Nat}
    (inside : byte ∈ page) (inside' : byte ∈ page') : layerName = layerName' ∧ block = block' := by
  rcases exists_placements covers distinct ran member with
    ⟨layout, bytesPerBlock, tensors, placements, resolved, bytes, placed, -, -, own⟩
  rcases isPage.placed resolved bytes placed own named inBlocks with
    ⟨placement, chosen, layer, at', rfl⟩
  rcases isPage'.placed resolved bytes placed own named' inBlocks' with
    ⟨placement', chosen', layer', at'', rfl⟩
  have blocks : 0 < config.numBlocks := Nat.zero_lt_of_lt inBlocks
  rcases List.getElem?_eq_some_iff.mp at' with ⟨within, rfl⟩
  rcases List.getElem?_eq_some_iff.mp at'' with ⟨within', rfl⟩
  have lanes := placement.page_lane blocks (Nat.zero_lt_of_lt within) bytes
    (placed.room _ chosen) within inBlocks inside
  have lanes' := placement'.page_lane blocks (Nat.zero_lt_of_lt within') bytes
    (placed.room _ chosen') within' inBlocks' inside'
  have same : placement = placement' := by
    by_contra differ
    have apart := pairwise_or placed.apart chosen chosen' differ
    omega
  subst same
  rcases placement.page_eq blocks (Nat.zero_lt_of_lt within) bytes (placed.room _ chosen) within
    within' inBlocks inBlocks' inside inside' with ⟨rfl, rfl⟩
  exact ⟨rfl, rfl⟩

/-- Every layer is placed once and its views can be taken; distinct layers of one group,
and distinct blocks of one layer, share no byte; every page lies inside the allocation,
which all tensors share and which the available memory bounds unless the number of
blocks is overridden. -/
theorem getKvCacheConfigFromGroups_disjoint (covers : ∀ group ∈ groups, group.Covers)
    (distinct : (groups.flatMap (·.layerNames)).Nodup)
    (ran : getKvCacheConfigFromGroups cacheConfig groups availableMemory = .ok config) :
    (config.kvCacheTensors.flatMap (·.layers)).Perm (groups.flatMap (·.layerNames)) ∧
    (∀ group ∈ groups, ∀ layerName ∈ group.layerNames, ∀ block < config.numBlocks,
      ∃ page, IsPage cacheConfig config group layerName block page) ∧
    (∀ group ∈ groups, ∀ layerName ∈ group.layerNames, ∀ layerName' ∈ group.layerNames,
      ∀ block < config.numBlocks, ∀ block' < config.numBlocks,
        (layerName, block) ≠ (layerName', block') → ∀ page page',
          IsPage cacheConfig config group layerName block page →
          IsPage cacheConfig config group layerName' block' page' → Disjoint page page') ∧
    (∀ group ∈ groups, ∀ layerName ∈ group.layerNames, ∀ block < config.numBlocks, ∀ page,
      IsPage cacheConfig config group layerName block page →
        ∀ tensor ∈ config.kvCacheTensors, ∀ byte ∈ page, byte < tensor.size) ∧
    ∃ size, (∀ tensor ∈ config.kvCacheTensors, tensor.size = size) ∧
      (cacheConfig.numGpuBlocksOverride = none → size ≤ availableMemory) := by
  refine ⟨?_, fun group member layerName named block inBlocks =>
    exists_page covers distinct ran member named inBlocks, ?_, ?_, ?_⟩
  · rcases eq_or_ne groups [] with rfl | nonempty
    · cases ran
      exact .refl _
    · rcases groups_placed nonempty covers ran with ⟨_, _, _, _, _, _, tensors, flat, each⟩
      rw [flat]
      clear flat ran nonempty distinct covers
      induction each with
      | nil => exact .refl _
      | cons first _ inductionHypothesis =>
          rw [List.flatten_cons, List.flatMap_append, List.flatMap_cons]
          exact first.2.1.append inductionHypothesis
  · intro group member layerName named layerName' named' block inBlocks block' inBlocks' differ
      page page' isPage isPage'
    apply Set.disjoint_left.mpr
    intro byte inside inside'
    rcases page_unique covers distinct ran member named named' inBlocks inBlocks' isPage isPage'
      inside inside' with ⟨rfl, rfl⟩
    exact differ rfl
  · intro group member layerName named block inBlocks page isPage tensor listed byte inside
    rcases exists_placements covers distinct ran member with
      ⟨layout, bytesPerBlock, tensors, placements, resolved, bytes, placed, -, sizes, own⟩
    rcases isPage.placed resolved bytes placed own named inBlocks with
      ⟨placement, chosen, layer, at', rfl⟩
    rcases List.getElem?_eq_some_iff.mp at' with ⟨within, _⟩
    rw [sizes tensor listed]
    exact (placement.page_lane (Nat.zero_lt_of_lt inBlocks) (Nat.zero_lt_of_lt within) bytes
      (placed.room _ chosen) within inBlocks inside).2.2
  · rcases eq_or_ne groups [] with rfl | nonempty
    · cases ran
      exact ⟨0, nofun, fun _ => Nat.zero_le _⟩
    · rcases groups_placed nonempty covers ran with
        ⟨_, bytesPerBlock, _, _, blocks, sizes, _⟩
      refine ⟨bytesPerBlock * config.numBlocks, sizes, fun free => ?_⟩
      rw [blocks, mayOverrideNumBlocks, free]
      exact Nat.mul_div_le availableMemory bytesPerBlock

end Whole

/-- Two heads of two bytes each in a page. -/
def narrowLayer : LayerSpec :=
  .attention
    { blockSize := 1, numKvHeads := 2, headSize := 1, headSizeV := 1, dtype := ⟨"fp8", 1⟩ }
    (.full {})

theorem getKvCacheConfigFromGroups_disjoint_interleaved :
    ∃ config, getKvCacheConfigFromGroups { kvCacheLayout := some .bhlnc }
        [⟨["first", "second"], .layer narrowLayer⟩] 20 = .ok config ∧ config.numBlocks = 2 ∧
      ∀ block < 2, ∀ block' < 2, ∀ page page', IsPage { kvCacheLayout := some .bhlnc } config
          ⟨["first", "second"], .layer narrowLayer⟩ "first" block page →
        IsPage { kvCacheLayout := some .bhlnc } config
          ⟨["first", "second"], .layer narrowLayer⟩ "second" block' page' →
        Disjoint page page' := by
  have answer : (getKvCacheConfigFromGroups { kvCacheLayout := some .bhlnc }
      [⟨["first", "second"], .layer narrowLayer⟩] 20).map (·.numBlocks) = .ok 2 := by
    decide +kernel
  rcases map_eq_ok.mp answer with ⟨config, ran, blocks⟩
  have covers : ∀ group ∈ [(⟨["first", "second"], .layer narrowLayer⟩ : KVCacheGroupSpec)],
      group.Covers := by
    intro group member
    cases List.mem_singleton.mp member
    trivial
  have disjoint := (getKvCacheConfigFromGroups_disjoint covers (by decide) ran).2.2.1 _
    List.mem_cons_self "first" List.mem_cons_self "second" (.tail _ List.mem_cons_self)
  rw [blocks] at disjoint
  exact ⟨config, ran, blocks, fun block inBlocks block' inBlocks' page page' =>
    disjoint block inBlocks block' inBlocks' (by simp) page page'⟩

/-- Two groups share one allocation, so the sizes of their tensors add up to more than
the available memory. -/
theorem getKvCacheConfigFromGroups_shared :
    (getKvCacheConfigFromGroups { kvCacheLayout := some .lbnhc }
      [⟨["first"], .layer narrowLayer⟩, ⟨["second"], .layer narrowLayer⟩] 8).map
        (fun config => (config.kvCacheTensors.map (·.size)).sum) = .ok 16 := by
  decide +kernel

end Vllm.Core.CachePlan
