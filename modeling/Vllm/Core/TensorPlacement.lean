import Vllm.Core.TensorLayout

/-!
# Where the pages lie

The strides of a tensor leave room for everything inside an axis, so two pages of
one tensor share no byte.  The tensors of one group keep to lanes of their own: a
range of every block where the blocks are outermost, and a range of the allocation
where the layers are.
-/

namespace Vllm.Core.CachePlan

open Vllm.Library

/-! ## The loop over the axes -/

section Loop

variable {shape : Dim → Nat} {fixedStrides : Dim → Option Nat} {padded : Option (Nat × Nat)}
variable {axes inner : List (Dim × Nat)} {strides : Dim → Nat} {currentStride : Nat}

theorem fixedOr_some {stride : Nat} (positive : 0 < stride) :
    fixedOr (some stride) currentStride = stride := by
  cases stride with
  | zero => exact absurd positive (Nat.lt_irrefl 0)
  | succ stride => rfl

variable {physicalIdx page : Nat}

theorem padPage_le (ran : padPage padded physicalIdx currentStride = .ok page) :
    currentStride ≤ page := by
  unfold padPage at ran
  split at ran
  · cases ran
    exact Nat.le_refl _
  · split at ran
    · dsimp only at ran
      split at ran
      · contradiction
      · rcases bind_eq_ok.mp ran with ⟨_, _, ran⟩
        cases ran
        exact Nat.le_max_left _ _
    · cases ran
      exact Nat.le_refl _

/-- Away from the end of the page grid nothing is padded. -/
theorem padPage_off
    (off : ∀ pageGridEnd paddedPageSize, padded = some (pageGridEnd, paddedPageSize) →
      physicalIdx + 1 ≠ pageGridEnd) (ran : padPage padded physicalIdx currentStride = .ok page) :
    page = currentStride := by
  unfold padPage at ran
  split at ran
  · cases ran
    rfl
  · rename_i pageGridEnd paddedPageSize
    rw [if_neg (off _ _ rfl)] at ran
    cases ran
    rfl

theorem padPage_on {paddedPageSize : Nat}
    (ran : padPage (some (physicalIdx + 1, paddedPageSize)) physicalIdx currentStride =
      .ok page) : page = max currentStride paddedPageSize := by
  unfold padPage at ran
  dsimp only at ran
  rw [if_pos rfl] at ran
  split at ran
  · contradiction
  · rcases bind_eq_ok.mp ran with ⟨_, _, ran⟩
    cases ran
    rfl

theorem stridesLoop_cons {dim : Dim}
    (ran : stridesLoop shape fixedStrides padded ((dim, physicalIdx) :: inner) =
      .ok (strides, currentStride)) :
    ∃ innerStrides innerStride page,
      stridesLoop shape fixedStrides padded inner = .ok (innerStrides, innerStride) ∧
      padPage padded physicalIdx innerStride = .ok page ∧
      strides = Function.update innerStrides dim (fixedOr (fixedStrides dim) page) ∧
      currentStride = fixedOr (fixedStrides dim) page * shape dim := by
  rcases bind_eq_ok.mp ran with ⟨⟨innerStrides, innerStride⟩, looped, ran⟩
  rcases bind_eq_ok.mp ran with ⟨page, filled, ran⟩
  cases ran
  exact ⟨innerStrides, innerStride, page, looped, filled, rfl, rfl⟩

/-- Axes without fixed strides pack what is inside them; where no page is padded they
span exactly the product of the sizes. -/
theorem stridesLoop_append {dims : List Dim} {start : Nat}
    (ran : stridesLoop shape fixedStrides padded (dims.zipIdx start ++ inner) =
      .ok (strides, currentStride))
    (distinct : dims.Nodup) (free : ∀ dim ∈ dims, fixedStrides dim = none)
    (off : ∀ pageGridEnd paddedPageSize, padded = some (pageGridEnd, paddedPageSize) →
      pageGridEnd ≤ start ∨ start + dims.length < pageGridEnd) :
    ∃ innerStrides innerStride,
      stridesLoop shape fixedStrides padded inner = .ok (innerStrides, innerStride) ∧
      Packs strides shape innerStride dims currentStride ∧
      currentStride = innerStride * (dims.map shape).prod ∧
      ∀ dim, dim ∉ dims → strides dim = innerStrides dim := by
  induction dims generalizing strides currentStride start with
  | nil => exact ⟨strides, currentStride, ran, .nil, by simp, fun _ _ => rfl⟩
  | cons dim dims inductionHypothesis =>
      rcases stridesLoop_cons ran with ⟨before, _, page, looped, filled, rfl, rfl⟩
      rw [List.nodup_cons] at distinct
      have outside (pageGridEnd paddedPageSize : Nat)
          (at' : padded = some (pageGridEnd, paddedPageSize)) :
          pageGridEnd ≤ start ∨ start + (dims.length + 1) < pageGridEnd :=
        off pageGridEnd paddedPageSize at'
      rcases inductionHypothesis looped distinct.2 (fun dim member => free dim (.tail _ member))
        (fun pageGridEnd size at' => by have := outside pageGridEnd size at'; omega) with
        ⟨innerStrides, innerStride, ended, packed, product, kept⟩
      have whole := padPage_off
        (fun pageGridEnd size at' => by have := outside pageGridEnd size at'; omega) filled
      subst whole
      rw [free dim List.mem_cons_self] at *
      have stride : Function.update before dim page dim = page := Function.update_self ..
      refine ⟨innerStrides, innerStride, ended, ?_, ?_, ?_⟩
      · have outer : Packs (Function.update before dim page) shape innerStride
            (dim :: dims) (Function.update before dim page dim * shape dim) := by
          apply Packs.cons (packed.congr _) (Nat.le_of_eq stride.symm)
          intro other member
          apply Function.update_of_ne
          rintro rfl
          exact distinct.1 member
        rw [stride] at outer
        exact outer
      · simp only [fixedOr, List.map_cons, List.prod_cons]
        rw [product, Nat.mul_assoc, Nat.mul_comm (shape dim)]
      · intro other absent
        rw [List.mem_cons, not_or] at absent
        rw [← kept other absent.2]
        exact Function.update_of_ne absent.1 ..

/-- Fixing some strides at the values they have anyway changes nothing. -/
theorem stridesLoop_fixed {fixedStrides' : Dim → Option Nat}
    (ran : stridesLoop shape fixedStrides padded axes = .ok (strides, currentStride))
    (distinct : (axes.map Prod.fst).Nodup)
    (same : ∀ dim ∈ axes.map Prod.fst, fixedStrides' dim = fixedStrides dim ∨
      (0 < strides dim ∧ fixedStrides' dim = some (strides dim))) :
    stridesLoop shape fixedStrides' padded axes = .ok (strides, currentStride) := by
  induction axes generalizing strides currentStride with
  | nil => exact ran
  | cons axis axes inductionHypothesis =>
      rcases axis with ⟨dim, physicalIdx⟩
      rcases stridesLoop_cons ran with ⟨before, innerStride, page, looped, filled, rfl, rfl⟩
      rw [List.map_cons, List.nodup_cons] at distinct
      have stride : fixedOr (fixedStrides' dim) page = fixedOr (fixedStrides dim) page := by
        rcases same dim List.mem_cons_self with equal | ⟨positive, equal⟩
        · rw [equal]
        · rw [Function.update_self] at positive equal
          rw [equal, fixedOr_some positive]
      have rest := inductionHypothesis looped distinct.2 (by
        intro other member
        have away : other ≠ dim := by
          rintro rfl
          exact distinct.1 member
        have kept := same other (.tail _ member)
        rw [Function.update_of_ne away] at kept
        exact kept)
      refine bind_eq_ok.mpr ⟨_, rest, bind_eq_ok.mpr ⟨page, filled, ?_⟩⟩
      rw [stride]
      rfl

/-- The strides of a grid axis, an outermost axis, and the axes between and inside them. -/
theorem stridesLoop_grid {outerDim gridDim : Dim} {between tail : List Dim}
    (looped : stridesLoop shape fixedStrides padded ((outerDim, 0) ::
      (between.zipIdx 1 ++ (gridDim, between.length + 1) :: tail.zipIdx (between.length + 2))) =
        .ok (strides, currentStride)) (distinct : (outerDim :: gridDim :: (between ++ tail)).Nodup)
    (free : ∀ dim, dim ≠ outerDim → fixedStrides dim = none)
    (padAt : ∀ pageGridEnd paddedPageSize, padded = some (pageGridEnd, paddedPageSize) →
      pageGridEnd = between.length + 2) :
    ∃ run row, Packs strides shape 1 tail run ∧ run = (tail.map shape).prod ∧
      padPage padded (between.length + 1) run = .ok (strides gridDim) ∧
      Packs strides shape (strides gridDim) (between ++ [gridDim]) row ∧
      row = strides gridDim * shape gridDim * (between.map shape).prod ∧
      strides outerDim = fixedOr (fixedStrides outerDim) row := by
  simp only [List.nodup_cons, List.mem_cons, List.mem_append, not_or] at distinct
  rcases distinct with ⟨⟨outerGrid, outerBetween, outerTail⟩, ⟨gridBetween, gridTail⟩, disjoint⟩
  rw [List.nodup_append] at disjoint
  have freeInner (dim : Dim) (member : dim ∈ between ∨ dim ∈ tail) : fixedStrides dim = none := by
    apply free
    rintro rfl
    exact member.elim outerBetween outerTail
  -- From the outermost axis inwards.
  rcases stridesLoop_cons looped with ⟨before, _, row, rest, filled, rfl, -⟩
  have outerOff := padPage_off (fun _ _ found => by have := padAt _ _ found; omega) filled
  subst outerOff
  rcases stridesLoop_append rest disjoint.1 (fun dim member => freeInner dim (.inl member))
    (fun _ _ found => by have := padAt _ _ found; omega) with
    ⟨middle, _, gridLoop, packedBetween, product, keptBetween⟩
  rcases stridesLoop_cons gridLoop with ⟨last, run, page, tailLoop, filledPage, rfl, rfl⟩
  rw [free _ (Ne.symm outerGrid)] at packedBetween product keptBetween
  rw [← List.append_nil (tail.zipIdx _)] at tailLoop
  rcases stridesLoop_append tailLoop disjoint.2.1 (fun dim member => freeInner dim (.inr member))
    (fun _ _ found => by have := padAt _ _ found; omega) with
    ⟨_, _, ended, packedTail, tailProduct, -⟩
  cases ended
  have grid : Function.update before outerDim (fixedOr (fixedStrides outerDim) row) gridDim =
      page := by
    rw [Function.update_of_ne (Ne.symm outerGrid), keptBetween _ gridBetween]
    exact Function.update_self ..
  refine ⟨run, row, packedTail.congr ?_, ?_, ?_, ?_, ?_, Function.update_self ..⟩
  · intro dim member
    have outside : dim ∉ between := fun between => disjoint.2.2 _ between _ member rfl
    have other : dim ≠ outerDim := by
      rintro rfl
      exact outerTail member
    have inside : dim ≠ gridDim := by
      rintro rfl
      exact gridTail member
    rw [Function.update_of_ne other, keptBetween _ outside, Function.update_of_ne inside]
  · rw [tailProduct, Nat.one_mul]
  · rw [grid, filledPage]
  · rw [grid]
    have single : Packs (Function.update before outerDim (fixedOr (fixedStrides outerDim) row))
        shape page [gridDim] (page * shape gridDim) := by
      nth_rewrite 2 [← grid]
      exact .cons .nil (Nat.le_of_eq grid.symm)
    apply single.append (packedBetween.congr _)
    intro dim member
    apply Function.update_of_ne
    rintro rfl
    exact outerBetween member
  · rw [grid, product]
    rfl

end Loop

/-! ## The strides of a layout -/

namespace KVCacheLayout

/-- The outermost of the two axes of the page grid. -/
def outerDim (layout : KVCacheLayout) : Dim :=
  if layout.isBlockOutermost then .b else .l

/-- The other axis of the page grid. -/
def gridDim (layout : KVCacheLayout) : Dim :=
  if layout.isBlockOutermost then .l else .b

/-- The axes of a page lie between the two axes of the grid, or inside it. -/
theorem strideOrder_split (layout : KVCacheLayout) :
    ∃ between tail, (between ++ tail).Perm pageDims ∧
      (layout.outerDim :: layout.gridDim :: (between ++ tail)).Nodup ∧
      layout.strideOrder = layout.outerDim :: (between ++ layout.gridDim :: tail) ∧
      max (layout.strideOrder.idxOf .l) (layout.strideOrder.idxOf .b) = between.length + 1 := by
  cases layout with
  | lbhnc => exact ⟨[], [.h, .n, .c], by decide⟩
  | lbnhc => exact ⟨[], [.n, .h, .c], by decide⟩
  | lhbnc => exact ⟨[.h], [.n, .c], by decide⟩
  | blhnc => exact ⟨[], [.h, .n, .c], by decide⟩
  | blnhc => exact ⟨[], [.n, .h, .c], by decide⟩
  | bhlnc => exact ⟨[.h], [.n, .c], by decide⟩

end KVCacheLayout

theorem gridShape_mul (layout : KVCacheLayout) (spec : LayerSpec) (numBlocks numLayers : Nat) :
    layoutShape spec numBlocks numLayers layout.outerDim *
      layoutShape spec numBlocks numLayers layout.gridDim = numLayers * numBlocks := by
  unfold KVCacheLayout.outerDim KVCacheLayout.gridDim
  split
  · exact Nat.mul_comm numBlocks numLayers
  · rfl

theorem pageDims_prod (spec : LayerSpec) (numBlocks numLayers : Nat) :
    (pageDims.map (layoutShape spec numBlocks numLayers)).prod = spec.unpaddedPageSizeBytes := by
  simp [pageDims, layoutShape, LayerSpec.unpaddedPageSizeBytes, Nat.mul_assoc]

/-- How the bytes of a tensor are spread: runs of `strides gridDim` bytes have room for
the innermost axes and for the padding, the axes between the grid axes make a page of
them, and the outermost axis has room for a row of pages. -/
structure Spread (spec : LayerSpec) (numBlocks numLayers pageSizeBytes : Nat)
    (layout : KVCacheLayout) (strides : Dim → Nat) (between tail : List Dim) : Prop where
  page : (between ++ tail).Perm pageDims
  run : ∃ run, Packs strides (layoutShape spec numBlocks numLayers) 1 tail run ∧
    run ≤ strides layout.gridDim
  padding : ∀ paddedPageSize, spec.pageSizePadded = some paddedPageSize →
    paddedPageSize ≤ strides layout.gridDim
  whole : strides layout.gridDim * (between.map (layoutShape spec numBlocks numLayers)).prod =
    pageSizeBytes
  row : Packs strides (layoutShape spec numBlocks numLayers) (strides layout.gridDim)
    (between ++ [layout.gridDim])
    (pageSizeBytes * layoutShape spec numBlocks numLayers layout.gridDim)

variable {numBlocks numLayers pageSizeBytes : Nat} {layout : KVCacheLayout}

variable {spec : LayerSpec}

/-- The runs of a page are as long as its padding, or as its innermost axes together. -/
theorem run_mul_between {run page : Nat} {between tail : List Dim} (blocks : 0 < numBlocks)
    (layers : 0 < numLayers) (sized : spec.pageSizeBytes = .ok pageSizeBytes)
    (dims : (between ++ tail).Perm pageDims)
    (product : run = (tail.map (layoutShape spec numBlocks numLayers)).prod)
    (unpadded : spec.pageSizePadded = none → page = run)
    (grown : ∀ paddedPageSize, spec.pageSizePadded = some paddedPageSize →
      page = max run paddedPageSize ∧
        ((layout.outerDim :: (between ++ [layout.gridDim])).map
          (layoutShape spec numBlocks numLayers)).prod = numLayers * numBlocks) :
    page * (between.map (layoutShape spec numBlocks numLayers)).prod = pageSizeBytes := by
  have total := (dims.map (layoutShape spec numBlocks numLayers)).prod_eq
  rw [List.map_append, List.prod_append, ← product, pageDims_prod] at total
  unfold LayerSpec.pageSizeBytes at sized
  cases padding : spec.pageSizePadded with
  | none =>
      rw [padding] at sized
      cases sized
      rw [unpadded padding, Nat.mul_comm, total]
  | some padded =>
      rw [padding] at sized
      rcases bind_eq_ok.mp sized with ⟨_, holds, sized⟩
      cases sized
      have fits := pyAssert_eq_ok.mp holds
      rcases grown _ padding with ⟨rfl, grid⟩
      have area := gridShape_mul layout spec numBlocks numLayers
      have positive : 0 < numLayers * numBlocks := Nat.mul_pos layers blocks
      -- The grid holds nothing but layers and blocks, so what lies between is singleton.
      have single : (between.map (layoutShape spec numBlocks numLayers)).prod = 1 := by
        rw [List.map_cons, List.map_append, List.prod_cons, List.prod_append, List.map_cons,
          List.map_nil, List.prod_singleton, Nat.mul_left_comm, area] at grid
        exact Nat.eq_of_mul_eq_mul_right positive (by rw [grid, Nat.one_mul])
      rw [single, Nat.one_mul] at total
      rw [single, Nat.mul_one, total]
      exact Nat.max_eq_right fits

/-- What `compute_layout_strides` returns for a tensor with at least one page. -/
theorem computeLayoutStrides_spread {fixedStrides : Dim → Option Nat} {strides : Dim → Nat}
    (ran : computeLayoutStrides spec numBlocks numLayers layout fixedStrides = .ok strides)
    (sized : spec.pageSizeBytes = .ok pageSizeBytes)
    (free : ∀ dim, dim ≠ layout.outerDim → fixedStrides dim = none) (blocks : 0 < numBlocks)
    (layers : 0 < numLayers) :
    (∃ between tail, Spread spec numBlocks numLayers pageSizeBytes layout strides between tail) ∧
      strides layout.outerDim = fixedOr (fixedStrides layout.outerDim)
        (pageSizeBytes * layoutShape spec numBlocks numLayers layout.gridDim) := by
  rcases layout.strideOrder_split with ⟨between, tail, dims, distinct, order, gridEnd⟩
  unfold computeLayoutStrides at ran
  dsimp only at ran
  rw [gridEnd] at ran
  rcases bind_eq_ok.mp ran with ⟨_, _, ran⟩
  rcases bind_eq_ok.mp ran with ⟨_, _, ran⟩
  rcases bind_eq_ok.mp ran with ⟨_, asserted, ran⟩
  rcases bind_eq_ok.mp ran with ⟨⟨final, current⟩, looped, ran⟩
  replace ran : final = strides := Except.ok.inj ran
  subst ran
  replace asserted := pyAssert_eq_ok.mp asserted
  rw [order] at looped asserted
  rw [List.zipIdx_cons, List.zipIdx_append, List.zipIdx_cons,
    show 0 + 1 + between.length = between.length + 1 by omega] at looped
  have padAt (pageGridEnd paddedPageSize : Nat)
      (found : spec.pageSizePadded.map (fun size => (between.length + 1 + 1, size)) =
        some (pageGridEnd, paddedPageSize)) : pageGridEnd = between.length + 2 := by
    rcases Option.map_eq_some_iff.mp found with ⟨_, _, same⟩
    exact (Prod.mk.inj same).1.symm
  rcases stridesLoop_grid looped distinct free padAt with
    ⟨run, row, packedTail, tailProduct, filled, packed, product, outer⟩
  have whole : final layout.gridDim * (between.map (layoutShape spec numBlocks numLayers)).prod =
      pageSizeBytes := by
    apply run_mul_between blocks layers sized dims tailProduct
    · intro unpadded
      rw [unpadded] at filled
      exact padPage_off (by simp) filled
    · intro size found
      rw [found] at filled asserted
      refine ⟨padPage_on filled, ?_⟩
      have taken : (between ++ layout.gridDim :: tail).take (between.length + 1) =
          between ++ [layout.gridDim] := by
        rw [List.append_cons, List.take_left' (by simp)]
      rw [← asserted.resolve_left (Option.some_ne_none size), List.take_succ_cons, taken]
  have rowLength : row = pageSizeBytes * layoutShape spec numBlocks numLayers layout.gridDim := by
    rw [product, ← whole]
    ring
  subst rowLength
  refine ⟨⟨between, tail, dims, ⟨run, packedTail, padPage_le filled⟩, ?_, whole, packed⟩, outer⟩
  intro size found
  rw [found] at filled
  rw [padPage_on filled]
  exact Nat.le_max_right _ _

/-! ## The bytes of a page -/

/-- The index of a page along the axes of the grid. -/
def position (layer block : Nat) : Dim → Nat
  | .l => layer
  | .b => block
  | _ => 0

theorem gridOffset (layout : KVCacheLayout) (strides : Dim → Nat) (layer block : Nat) :
    layer * strides .l + block * strides .b =
      position layer block layout.outerDim * strides layout.outerDim +
        position layer block layout.gridDim * strides layout.gridDim := by
  unfold KVCacheLayout.outerDim KVCacheLayout.gridDim
  split
  · exact Nat.add_comm _ _
  · rfl

theorem layoutShape_pageDims (spec : LayerSpec) (numBlocks numLayers : Nat) {dim : Dim}
    (member : dim ∈ pageDims) :
    layoutShape spec 0 0 dim = layoutShape spec numBlocks numLayers dim := by
  simp only [pageDims, List.mem_cons, List.not_mem_nil, or_false] at member
  rcases member with rfl | rfl | rfl <;> rfl

section Page

variable {spec : LayerSpec} {numBlocks numLayers pageSizeBytes : Nat} {layout : KVCacheLayout}
variable {strides : Dim → Nat} {between tail : List Dim} {byte : Nat}

/-- A byte of a page lies in one of the runs. -/
theorem Spread.exists_run
    (spread : Spread spec numBlocks numLayers pageSizeBytes layout strides between tail)
    (positive : 0 < pageSizeBytes) {start : Nat} (member : byte ∈ pageBytes spec strides start) :
    ∃ index cell, (∀ dim ∈ between, index dim < layoutShape spec numBlocks numLayers dim) ∧
      cell < strides layout.gridDim ∧ byte = start + (address strides index between + cell) := by
  rcases member with ⟨index, inside, rfl⟩ | ⟨padded, found, lower, upper⟩
  · rcases spread.run with ⟨run, packed, short⟩
    have insideAll (dim : Dim) (member : dim ∈ between ++ tail) :
        index dim < layoutShape spec numBlocks numLayers dim := by
      have page := spread.page.subset member
      rw [← layoutShape_pageDims spec numBlocks numLayers page]
      exact inside dim page
    have below := packed.address_lt
      (fun dim member => insideAll dim (List.mem_append_right _ member)) Nat.one_pos
    refine ⟨index, address strides index tail,
      fun dim member => insideAll dim (List.mem_append_left _ member),
      Nat.lt_of_lt_of_le below short, ?_⟩
    rw [← address_append, address_perm spread.page]
  · refine ⟨fun _ => 0, byte - start, ?_, ?_, ?_⟩
    · intro dim member
      apply Nat.pos_of_ne_zero
      intro empty
      have zero : (between.map (layoutShape spec numBlocks numLayers)).prod = 0 :=
        List.prod_eq_zero_iff_exists_zero_nat.mpr
          ⟨_, List.mem_map.mpr ⟨dim, member, rfl⟩, empty⟩
      rw [← spread.whole, zero] at positive
      exact Nat.lt_irrefl 0 positive
    · have room := spread.padding padded found
      omega
    · rw [address_zero]
      omega

variable {offset layer block : Nat}

/-- The same relative to the row of pages that the outermost axis selects. -/
theorem Spread.exists_cell
    (spread : Spread spec numBlocks numLayers pageSizeBytes layout strides between tail)
    (positive : 0 < pageSizeBytes) (inLayers : layer < numLayers) (inBlocks : block < numBlocks)
    (member : byte ∈ pageBytes spec strides
      (offset + layer * strides .l + block * strides .b)) :
    ∃ index cell, (∀ dim ∈ between ++ [layout.gridDim],
        index dim < layoutShape spec numBlocks numLayers dim) ∧
      index layout.gridDim = position layer block layout.gridDim ∧
      cell < strides layout.gridDim ∧
      byte = offset + (position layer block layout.outerDim * strides layout.outerDim +
        (address strides index (between ++ [layout.gridDim]) + cell)) := by
  rcases spread.exists_run positive member with ⟨index, cell, inside, short, rfl⟩
  have away (dim : Dim) (member : dim ∈ between) : dim ≠ layout.gridDim := by
    rintro rfl
    have page := spread.page.subset (List.mem_append_left tail member)
    revert page
    cases layout <;> decide
  let filled := Function.update index layout.gridDim (position layer block layout.gridDim)
  refine ⟨filled, cell, ?_, Function.update_self .., short, ?_⟩
  · intro dim member
    rcases List.mem_append.mp member with member | member
    · rw [show filled dim = index dim from Function.update_of_ne (away dim member) ..]
      exact inside dim member
    · rw [List.mem_singleton.mp member, show filled layout.gridDim = _ from Function.update_self ..]
      unfold KVCacheLayout.gridDim
      split
      · exact inLayers
      · exact inBlocks
  · have kept : address strides filled between = address strides index between := by
      unfold address
      congr 1
      apply List.map_congr_left
      intro dim member
      rw [show filled dim = index dim from Function.update_of_ne (away dim member) ..]
    have last : address strides filled [layout.gridDim] =
        position layer block layout.gridDim * strides layout.gridDim := by
      rw [address_cons, show filled layout.gridDim = _ from Function.update_self ..]
      rfl
    have grid := gridOffset layout strides layer block
    rw [address_append, kept, last]
    omega

/-- Two pages of one tensor share no byte. -/
theorem Spread.pages_eq
    (spread : Spread spec numBlocks numLayers pageSizeBytes layout strides between tail)
    (positive : 0 < pageSizeBytes)
    (room : pageSizeBytes * layoutShape spec numBlocks numLayers layout.gridDim ≤
      strides layout.outerDim) {layer' block' : Nat} (inLayers : layer < numLayers)
    (inLayers' : layer' < numLayers) (inBlocks : block < numBlocks) (inBlocks' : block' < numBlocks)
    (member : byte ∈ pageBytes spec strides (offset + layer * strides .l + block * strides .b))
    (member' : byte ∈ pageBytes spec strides (offset + layer' * strides .l + block' * strides .b)) :
    layer = layer' ∧ block = block' := by
  rcases spread.exists_cell positive inLayers inBlocks member with
    ⟨index, cell, inside, grid, short, at'⟩
  rcases spread.exists_cell positive inLayers' inBlocks' member' with
    ⟨index', cell', inside', grid', short', at''⟩
  have below := Nat.lt_of_lt_of_le (spread.row.address_lt inside short) room
  have below' := Nat.lt_of_lt_of_le (spread.row.address_lt inside' short') room
  rcases digits_eq below below' (Nat.add_left_cancel (at'.symm.trans at'')) with ⟨outer, rest⟩
  have digits := (spread.row.address_injective inside inside' short short' rest).1
    layout.gridDim (List.mem_append_right _ List.mem_cons_self)
  rw [grid, grid'] at digits
  unfold KVCacheLayout.outerDim at outer
  unfold KVCacheLayout.gridDim at digits
  split at outer
  · rename_i first
    rw [if_pos first] at digits
    exact ⟨digits, outer⟩
  · rename_i first
    rw [if_neg first] at digits
    exact ⟨outer, digits⟩

end Page

end Vllm.Core.CachePlan
