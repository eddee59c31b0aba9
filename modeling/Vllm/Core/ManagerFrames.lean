import Vllm.Core.ManagerRefs

/-!
# Frames of the manager calls

Every call of a manager serves one request.  `OnlyFor` says that the books of
all the other requests stay as they are, for every call and every class.
-/

namespace Vllm.Core.SingleTypeKVCacheManager

open Vllm.Library BlockPool

variable {H : Type}

/-- Only the books of one request may change. -/
structure OnlyFor (requestId : RequestId) (manager manager' : SingleTypeKVCacheManager H) :
    Prop where
  settings : manager'.settings = manager.settings
  blocksOf : ∀ other, other ≠ requestId → manager'.blocksOf other = manager.blocksOf other
  numCachedBlock : ∀ other, other ≠ requestId →
    manager'.numCachedBlock.get? other = manager.numCachedBlock.get? other
  partialHitReqs : ∀ other, other ≠ requestId →
    manager'.partialHitReqs.get? other = manager.partialHitReqs.get? other
  allocatedBlockReqs : ∀ other, other ≠ requestId →
    (other ∈ manager'.allocatedBlockReqs ↔ other ∈ manager.allocatedBlockReqs)

namespace OnlyFor

variable {requestId : RequestId} {manager manager' : SingleTypeKVCacheManager H}

theorem refl (requestId : RequestId) (manager : SingleTypeKVCacheManager H) :
    OnlyFor requestId manager manager :=
  ⟨rfl, fun _ _ => rfl, fun _ _ => rfl, fun _ _ => rfl, fun _ _ => Iff.rfl⟩

theorem trans {middle : SingleTypeKVCacheManager H} (left : OnlyFor requestId manager middle)
    (right : OnlyFor requestId middle manager') : OnlyFor requestId manager manager' where
  settings := right.settings.trans left.settings
  blocksOf other differ := (right.blocksOf other differ).trans (left.blocksOf other differ)
  numCachedBlock other differ :=
    (right.numCachedBlock other differ).trans (left.numCachedBlock other differ)
  partialHitReqs other differ :=
    (right.partialHitReqs other differ).trans (left.partialHitReqs other differ)
  allocatedBlockReqs other differ :=
    (right.allocatedBlockReqs other differ).trans (left.allocatedBlockReqs other differ)

/-- Calls that leave the books alone altogether. -/
theorem of_eq (settings : manager'.settings = manager.settings)
    (tables : manager'.reqToBlocks = manager.reqToBlocks)
    (cached : manager'.numCachedBlock = manager.numCachedBlock)
    (hits : manager'.partialHitReqs = manager.partialHitReqs)
    (allocated : manager'.allocatedBlockReqs = manager.allocatedBlockReqs) :
    OnlyFor requestId manager manager' where
  settings := settings
  blocksOf other _ := by rw [SingleTypeKVCacheManager.blocksOf, tables]; rfl
  numCachedBlock other _ := by rw [cached]
  partialHitReqs other _ := by rw [hits]
  allocatedBlockReqs other _ := by rw [allocated]

/-- A change of fields outside the books before the call. -/
theorem after {first : SingleTypeKVCacheManager H} (right : OnlyFor requestId manager manager')
    (settings : manager.settings = first.settings)
    (tables : manager.reqToBlocks = first.reqToBlocks)
    (cached : manager.numCachedBlock = first.numCachedBlock)
    (hits : manager.partialHitReqs = first.partialHitReqs)
    (allocated : manager.allocatedBlockReqs = first.allocatedBlockReqs) :
    OnlyFor requestId first manager' :=
  (of_eq settings tables cached hits allocated).trans right

/-- A change of fields outside the books after the call. -/
theorem before {last : SingleTypeKVCacheManager H} (left : OnlyFor requestId manager manager')
    (settings : last.settings = manager'.settings)
    (tables : last.reqToBlocks = manager'.reqToBlocks)
    (cached : last.numCachedBlock = manager'.numCachedBlock)
    (hits : last.partialHitReqs = manager'.partialHitReqs)
    (allocated : last.allocatedBlockReqs = manager'.allocatedBlockReqs) :
    OnlyFor requestId manager last :=
  left.trans (of_eq settings tables cached hits allocated)

end OnlyFor

/-! ## Elementary updates -/

theorem setBlocks_onlyFor (manager : SingleTypeKVCacheManager H) (requestId : RequestId)
    (blocks : List BlockId) : OnlyFor requestId manager (manager.setBlocks requestId blocks) where
  settings := rfl
  blocksOf _ differ := blocksOf_setBlocks_of_ne _ _ differ.symm
  numCachedBlock _ _ := rfl
  partialHitReqs _ _ := rfl
  allocatedBlockReqs _ _ := Iff.rfl

theorem ensureBlocks_onlyFor (manager : SingleTypeKVCacheManager H) (requestId : RequestId) :
    OnlyFor requestId manager (manager.ensureBlocks requestId) :=
  setBlocks_onlyFor ..

theorem recordBlocks_onlyFor (requestId : RequestId) (manager : SingleTypeKVCacheManager H)
    (blocks : List BlockId) : OnlyFor requestId manager (manager.recordBlocks blocks) := by
  unfold recordBlocks
  split
  · exact .of_eq rfl rfl rfl rfl rfl
  · exact .refl requestId manager

theorem setNumCachedBlock_onlyFor (manager : SingleTypeKVCacheManager H) (requestId : RequestId)
    (count : Nat) : OnlyFor requestId manager
      { manager with numCachedBlock := manager.numCachedBlock.insert requestId count } where
  settings := rfl
  blocksOf _ _ := rfl
  numCachedBlock _ differ := Dict.get?_insert_of_ne _ _ differ.symm
  partialHitReqs _ _ := rfl
  allocatedBlockReqs _ _ := Iff.rfl

theorem setPartialHit_onlyFor (manager : SingleTypeKVCacheManager H) (requestId : RequestId)
    (hit : Nat × BlockId) : OnlyFor requestId manager
      { manager with partialHitReqs := manager.partialHitReqs.insert requestId hit } where
  settings := rfl
  blocksOf _ _ := rfl
  numCachedBlock _ _ := rfl
  partialHitReqs _ differ := Dict.get?_insert_of_ne _ _ differ.symm
  allocatedBlockReqs _ _ := Iff.rfl

theorem erasePartialHit_onlyFor (manager : SingleTypeKVCacheManager H) (requestId : RequestId) :
    OnlyFor requestId manager
      { manager with partialHitReqs := manager.partialHitReqs.erase requestId } where
  settings := rfl
  blocksOf _ _ := rfl
  numCachedBlock _ _ := rfl
  partialHitReqs _ differ := Dict.get?_erase_of_ne _ differ.symm
  allocatedBlockReqs _ _ := Iff.rfl

theorem pinCopy_onlyFor (requestId : RequestId) (manager : SingleTypeKVCacheManager H)
    (sourceBlock cowBlock : BlockId) :
    OnlyFor requestId manager (manager.pinCopy sourceBlock cowBlock) :=
  .of_eq rfl rfl rfl rfl rfl

theorem withLocalHits_onlyFor (manager : SingleTypeKVCacheManager H) (requestId : RequestId)
    (newComputedBlocks : List BlockId) (numLocal numComputed : Nat) :
    OnlyFor requestId manager
      (manager.withLocalHits requestId newComputedBlocks numLocal numComputed) := by
  unfold withLocalHits
  cases manager.partialTail newComputedBlocks numLocal numComputed with
  | none => exact (setBlocks_onlyFor ..).trans (setNumCachedBlock_onlyFor ..)
  | some hit =>
      exact ((setBlocks_onlyFor ..).trans (setPartialHit_onlyFor _ _ hit)).trans
        (setNumCachedBlock_onlyFor ..)

theorem markAllocated_onlyFor (manager : SingleTypeKVCacheManager H) (requestId : RequestId) :
    OnlyFor requestId manager (manager.markAllocated requestId) := by
  unfold markAllocated
  split
  · exact .refl requestId manager
  · refine ⟨rfl, fun _ _ => rfl, fun _ _ => rfl, fun _ _ => rfl, fun other differ => ?_⟩
    simp [differ]

theorem recordLastStateBlock_onlyFor (manager : SingleTypeKVCacheManager H)
    (requestId : RequestId) (numSpeculative : Nat) :
    OnlyFor requestId manager (manager.recordLastStateBlock requestId numSpeculative) := by
  unfold recordLastStateBlock
  dsimp only
  split
  · exact .of_eq rfl rfl rfl rfl rfl
  · split
    · exact .of_eq rfl rfl rfl rfl rfl
    · exact .refl requestId manager

/-! ## Releasing -/

theorem popBlocksForFree_onlyFor (manager : SingleTypeKVCacheManager H) (requestId : RequestId) :
    OnlyFor requestId manager (manager.popBlocksForFree requestId).2 := by
  have erased : ∀ other, other ≠ requestId →
      (manager.reqToBlocks.erase requestId).getD other [] = manager.blocksOf other :=
    fun other differ => Dict.getD_erase_of_ne _ _ differ.symm
  unfold popBlocksForFree
  split
  · refine ⟨rfl, erased, fun _ differ => Dict.get?_erase_of_ne _ differ.symm,
      fun _ differ => Dict.get?_erase_of_ne _ differ.symm, fun other differ => ?_⟩
    simp [differ]
  · exact ⟨rfl, erased, fun _ differ => Dict.get?_erase_of_ne _ differ.symm,
      fun _ differ => Dict.get?_erase_of_ne _ differ.symm, fun _ _ => Iff.rfl⟩

variable {pool pool' : BlockPool H} {manager manager' : SingleTypeKVCacheManager H}
  {requestId : RequestId}

theorem free_onlyFor (freed : free pool manager requestId = .ok (pool', manager')) :
    OnlyFor requestId manager manager' := by
  obtain ⟨after, _, freed⟩ := bind_eq_ok.mp freed
  cases freed
  exact popBlocksForFree_onlyFor manager requestId

/-- The skipped blocks lie before the computed tokens. -/
theorem getNumSkippedTokens_le (manager : SingleTypeKVCacheManager H) (numComputed : Nat) :
    manager.getNumSkippedTokens numComputed ≤ numComputed := by
  have window := manager.kvCacheSpec.hasWindow
  unfold getNumSkippedTokens
  split
  · rename_i kind
    rw [kind] at window
    have positive := of_decide_eq_true window
    omega
  · exact Nat.div_mul_le_self ..
  · exact Nat.sub_le ..
  · exact Nat.zero_le _

theorem getNumSkippedBlocks_mul_le (manager : SingleTypeKVCacheManager H) (numComputed : Nat) :
    manager.getNumSkippedBlocks numComputed * manager.blockSize ≤ numComputed :=
  (Nat.div_mul_le_self ..).trans (manager.getNumSkippedTokens_le numComputed)

/-- Entries at certain indices may have become null. -/
def Nulled (inside : Nat → Prop) (before after : List BlockId) : Prop :=
  after.length = before.length ∧
    ∀ i, after[i]? = before[i]? ∨ inside i ∧ after[i]? = some nullBlock

theorem Nulled.refl (inside : Nat → Prop) (blocks : List BlockId) : Nulled inside blocks blocks :=
  ⟨rfl, fun _ => .inl rfl⟩

variable {inside : Nat → Prop} {processed : Nat}

theorem Nulled.trans {first second third : List BlockId} (left : Nulled inside first second)
    (right : Nulled inside second third) : Nulled inside first third := by
  refine ⟨right.1.trans left.1, fun i => ?_⟩
  rcases right.2 i with same | nulled
  · rw [same]
    exact left.2 i
  · exact .inr nulled

theorem Nulled.mono {wider : Nat → Prop} {before after : List BlockId}
    (nulled : Nulled inside before after) (implies : ∀ i, inside i → wider i) :
    Nulled wider before after :=
  ⟨nulled.1, fun i => (nulled.2 i).imp id fun here => ⟨implies i here.1, here.2⟩⟩

theorem nulled_set {blocks : List BlockId} {index : Nat} {block : BlockId}
    (located : blocks[index]? = some block) :
    Nulled (· = index) blocks (blocks.set index nullBlock) := by
  refine ⟨List.length_set, fun i => ?_⟩
  by_cases same : index = i
  · subst same
    rw [List.getElem?_set_self (List.getElem?_eq_some_iff.mp located).1]
    exact .inr ⟨rfl, rfl⟩
  · rw [List.getElem?_set_ne same]
    exact .inl rfl

theorem nullRange_nulled (first count : Nat) (blocks : List BlockId) :
    Nulled (fun i => first ≤ i ∧ i < first + count) blocks (nullRange first count blocks).2 := by
  induction count generalizing blocks with
  | zero => exact .refl _ _
  | succ count ih =>
      unfold nullRange
      cases located : blocks[first + count]? with
      | none => exact .refl _ _
      | some removed =>
          dsimp only
          split
          · exact .refl _ _
          · exact ((nulled_set located).mono fun i same => by omega).trans
              ((ih _).mono fun i here => by omega)

/-- The blocks that the manager's class may release after some processed tokens. -/
def skipsBlock (manager : SingleTypeKVCacheManager H) (processedComputedTokens : Nat)
    (numPromptTokens : Option Nat) (i : Nat) : Prop :=
  match manager.kvCacheSpec.kind, numPromptTokens with
  | .circularBuffer, _ => False
  | .rswa rswaWindow, some numPromptTokens =>
      cdiv numPromptTokens manager.blockSize ≤ i ∧
        i < max numPromptTokens (processedComputedTokens - rswaWindow) / manager.blockSize
  | .mamba .align _ _, _ => True
  | _, _ => i < manager.getNumSkippedBlocks processedComputedTokens

theorem getNumSkippedBlocks_of_settings (same : manager'.settings = manager.settings)
    (numComputed : Nat) :
    manager'.getNumSkippedBlocks numComputed = manager.getNumSkippedBlocks numComputed := by
  unfold getNumSkippedBlocks getNumSkippedTokens
  rw [kvCacheSpec_of_settings same, blockSize_of_settings same]

theorem skipsBlock_of_settings (same : manager'.settings = manager.settings) :
    manager'.skipsBlock = manager.skipsBlock := by
  unfold skipsBlock getNumSkippedBlocks getNumSkippedTokens
  rw [kvCacheSpec_of_settings same, blockSize_of_settings same]

/-- Entries in the table of one request were nulled; nothing else changed in the
books. -/
structure Trimmed (requestId : RequestId) (inside : Nat → Prop)
    (manager manager' : SingleTypeKVCacheManager H) : Prop where
  frame : OnlyFor requestId manager manager'
  numCachedBlock : manager'.numCachedBlock = manager.numCachedBlock
  partialHitReqs : manager'.partialHitReqs = manager.partialHitReqs
  allocatedBlockReqs : manager'.allocatedBlockReqs = manager.allocatedBlockReqs
  table : Nulled inside (manager.blocksOf requestId) (manager'.blocksOf requestId)

theorem Trimmed.refl (requestId : RequestId) (inside : Nat → Prop)
    (manager : SingleTypeKVCacheManager H) : Trimmed requestId inside manager manager :=
  ⟨.refl _ _, rfl, rfl, rfl, .refl _ _⟩

theorem Trimmed.trans {first second third : SingleTypeKVCacheManager H}
    (left : Trimmed requestId inside first second) (right : Trimmed requestId inside second third) :
    Trimmed requestId inside first third where
  frame := left.frame.trans right.frame
  numCachedBlock := right.numCachedBlock.trans left.numCachedBlock
  partialHitReqs := right.partialHitReqs.trans left.partialHitReqs
  allocatedBlockReqs := right.allocatedBlockReqs.trans left.allocatedBlockReqs
  table := left.table.trans right.table

/-- Blocks of one request were released, and nothing else. -/
structure Released (requestId : RequestId) (inside : Nat → Prop) (pool : BlockPool H)
    (manager : SingleTypeKVCacheManager H) (pool' : BlockPool H)
    (manager' : SingleTypeKVCacheManager H) : Prop
    extends Trimmed requestId inside manager manager' where
  moved : Moved pool manager pool' manager'
  hashes : SameHashes pool pool'
  refCnt : ∀ block, (pool'.blocks block).refCnt ≤ (pool.blocks block).refCnt

namespace Released

variable {requestId : RequestId} {inside : Nat → Prop} {pool pool' : BlockPool H}
  {manager manager' : SingleTypeKVCacheManager H}

theorem refl (requestId : RequestId) (inside : Nat → Prop) (consistent : Consistent pool)
    (manager : SingleTypeKVCacheManager H) : Released requestId inside pool manager pool manager :=
  ⟨.refl _ _ _, .of_same consistent (.refl pool) (.refl manager), .refl _, fun _ => Int.le_refl _⟩

theorem trans {middle : BlockPool H} {next : SingleTypeKVCacheManager H}
    (left : Released requestId inside pool manager middle next)
    (right : Released requestId inside middle next pool' manager') :
    Released requestId inside pool manager pool' manager' where
  toTrimmed := left.toTrimmed.trans right.toTrimmed
  moved := left.moved.trans right.moved
  hashes := left.hashes.trans right.hashes
  refCnt block := Int.le_trans (right.refCnt block) (left.refCnt block)

theorem mono (released : Released requestId inside pool manager pool' manager') {wider : Nat → Prop}
    (implies : ∀ i, inside i → wider i) : Released requestId wider pool manager pool' manager' :=
  { released with table := released.table.mono implies }

/-- Reading a missing table entry releases nothing. -/
theorem ensureBlocks (requestId : RequestId) (inside : Nat → Prop) (consistent : Consistent pool)
    (manager : SingleTypeKVCacheManager H) :
    Released requestId inside pool manager pool (manager.ensureBlocks requestId) where
  moved := .of_same consistent (.refl pool) (manager.ensureBlocks_sameTables requestId)
  frame := manager.ensureBlocks_onlyFor requestId
  numCachedBlock := rfl
  partialHitReqs := rfl
  allocatedBlockReqs := rfl
  table := by
    rw [(manager.ensureBlocks_sameTables requestId).blocksOf]
    exact .refl _ _
  hashes := .refl _
  refCnt _ := Int.le_refl _

/-- Freed blocks of the table were replaced by the null block. -/
theorem of_freed (consistent : Consistent pool) (backed : Backed pool manager)
    {blocks table : List BlockId} (dropped : ∀ block, block ≠ nullBlock →
      table.count block + blocks.count block = (manager.blocksOf requestId).count block)
    (nulled : Nulled inside (manager.blocksOf requestId) table)
    (freed : pool.freeBlocks blocks = .ok pool') :
    Released requestId inside pool manager pool' (manager.setBlocks requestId table) := by
  have exchanged : ∀ block, block ≠ nullBlock →
      (manager.setBlocks requestId table).refs block + blocks.count block =
        manager.refs block := by
    intro block nonNull
    have := manager.refs_setBlocks requestId table block
    have := dropped block nonNull
    omega
  have held : ∀ block, block ≠ nullBlock →
      (blocks.count block : Int) ≤ (pool.blocks block).refCnt := by
    intro block nonNull
    have := backed block nonNull
    have := exchanged block nonNull
    omega
  rcases consistent.freeBlocks held freed with ⟨_, hashes, counts⟩
  refine ⟨⟨setBlocks_onlyFor .., rfl, rfl, rfl, ?_⟩,
    moved_of_freed consistent backed rfl exchanged freed,
    hashes, fun block => ?_⟩
  · rw [blocksOf_setBlocks_self]
    exact nulled
  · rw [counts]
    omega

end Released

theorem removeBlocksInRange_released {firstBlock lastBlock : Nat} (consistent : Consistent pool)
    (backed : Backed pool manager)
    (removed : removeBlocksInRange pool manager requestId firstBlock lastBlock =
      .ok (pool', manager')) :
    Released requestId (fun i => firstBlock ≤ i ∧ i < lastBlock) pool manager pool' manager' := by
  unfold removeBlocksInRange at removed
  split at removed
  · cases removed
    exact .refl _ _ consistent manager
  · rename_i blocks stored
    have table : manager.blocksOf requestId = blocks := by
      simp [blocksOf, Dict.getD, stored]
    dsimp only at removed
    split at removed
    · cases removed
      exact .refl _ _ consistent manager
    · obtain ⟨after, freed, removed⟩ := bind_eq_ok.mp removed
      cases removed
      have nulled := nullRange_nulled firstBlock (min lastBlock blocks.length - firstBlock) blocks
      refine .of_freed consistent backed (fun block nonNull => ?_) ?_ freed
      · rw [table]
        exact nullRange_count _ _ _ nonNull
      · rw [table]
        exact nulled.mono fun i here => by omega

theorem baseRemoveSkippedBlocks_released (consistent : Consistent pool)
    (backed : Backed pool manager)
    (removed : baseRemoveSkippedBlocks pool manager requestId processed = .ok (pool', manager')) :
    Released requestId (· < manager.getNumSkippedBlocks processed) pool manager pool' manager' := by
  unfold baseRemoveSkippedBlocks at removed
  split at removed
  · cases removed
    exact .refl _ _ consistent manager
  · have ensured := Released.ensureBlocks requestId (· < manager.getNumSkippedBlocks processed)
      consistent manager
    have range := removeBlocksInRange_released consistent (ensured.moved.backed backed) removed
    exact ensured.trans (range.mono fun i here => here.2.trans_le (Nat.min_le_left ..))

theorem removeLastStateBlock_released (consistent : Consistent pool) (backed : Backed pool manager)
    (removed : removeLastStateBlock pool manager requestId processed = .ok (pool', manager')) :
    Released requestId (fun _ => True) pool manager pool' manager' := by
  have ensured := Released.ensureBlocks requestId (fun _ => True) consistent manager
  unfold removeLastStateBlock at removed
  split at removed
  · cases removed
    exact .refl _ _ consistent manager
  · split at removed
    · obtain ⟨block, located, removed⟩ := bind_eq_ok.mp removed
      have found := pyIndex_eq_ok.mp located
      split at removed
      · cases removed
        exact ensured
      · obtain ⟨after, freed, removed⟩ := bind_eq_ok.mp removed
        cases removed
        refine ensured.trans (.of_freed consistent (ensured.moved.backed backed) ?_
          ((nulled_set found).mono fun _ _ => trivial) freed)
        intro other nonNull
        have replaced := count_set_add nullBlock found other
        have notNull : [nullBlock].count other = 0 := by
          simpa [List.count_singleton] using nonNull.symm
        omega
    · cases removed
      exact .refl _ _ consistent manager

/-- Only blocks that the class skips are released. -/
theorem removeSkippedBlocks_released {numPromptTokens : Option Nat} (consistent : Consistent pool)
    (backed : Backed pool manager)
    (removed : removeSkippedBlocks pool manager requestId processed numPromptTokens =
      .ok (pool', manager')) :
    Released requestId (manager.skipsBlock processed numPromptTokens) pool manager pool'
      manager' := by
  unfold removeSkippedBlocks at removed
  split at removed
  · cases removed
    exact .refl _ _ consistent manager
  · rename_i rswaWindow kind
    cases numPromptTokens with
    | none =>
        refine (baseRemoveSkippedBlocks_released consistent backed removed).mono fun i here => ?_
        simp only [skipsBlock, kind]
        exact here
    | some numPromptTokens =>
        refine (removeBlocksInRange_released consistent backed removed).mono fun i here => ?_
        simp only [skipsBlock, kind]
        exact here
  · rename_i kind
    obtain ⟨⟨middle, next⟩, first, removed⟩ := bind_eq_ok.mp removed
    have skipped : Released requestId (fun _ => True) pool manager middle next :=
      (baseRemoveSkippedBlocks_released consistent backed first).mono fun _ _ => trivial
    have last := removeLastStateBlock_released skipped.moved.consistent
      (skipped.moved.backed backed) removed
    refine (skipped.trans last).mono fun i _ => ?_
    simp only [skipsBlock, kind]
  · rename_i notRing notRswa notAlign
    refine (baseRemoveSkippedBlocks_released consistent backed removed).mono fun i here => ?_
    unfold skipsBlock
    split
    · rename_i kind
      exact absurd kind notRing
    · rename_i kind
      exact absurd kind (notRswa _)
    · trivial
    · exact here

/-! ## Adding and allocating -/

theorem addLocalComputedBlocks_onlyFor {newComputedBlocks : List BlockId}
    {numLocal numExternal : Nat}
    (added : addLocalComputedBlocks pool manager requestId newComputedBlocks numLocal numExternal =
      .ok (pool', manager')) : OnlyFor requestId manager manager' := by
  unfold addLocalComputedBlocks at added
  split at added
  · cases added
    exact .refl requestId manager
  · obtain ⟨_, _, added⟩ := bind_eq_ok.mp added
    cases added
    exact .refl requestId manager
  · rcases addLocalHits_eq_ok added with ⟨_, _, rfl⟩
    exact withLocalHits_onlyFor ..

theorem applyCow_onlyFor {blockIdx : Nat} {sourceBlock cowBlock : BlockId}
    (applied : applyCow pool manager requestId blockIdx sourceBlock cowBlock =
      .ok (pool', manager')) : OnlyFor requestId manager manager' := by
  rcases applyCow_eq_ok applied with ⟨_, _, _, _, rfl⟩
  exact (setBlocks_onlyFor ..).trans (pinCopy_onlyFor ..)

section Allocation

variable [DecidableEq H]

variable {pool pool' : BlockPool H} {manager manager' : SingleTypeKVCacheManager H}
  {requestId : RequestId} {align applyAdmissionCap : Bool}
  {numTokens numTokensMainModel totalComputed numLocal : Nat}
  {newBlocks newComputedBlocks : List BlockId} {request : Request H}
  {retentionInterval : Option Nat}

theorem privatizePartialHit_onlyFor {blocksAllocated : Bool} {blockIdx : Nat}
    {sourceBlock cowBlock : BlockId}
    (ran : privatizePartialHit pool manager requestId blocksAllocated blockIdx sourceBlock
      cowBlock = .ok (pool', manager')) : OnlyFor requestId manager manager' := by
  rcases privatizePartialHit_cases ran with
    ⟨_, _, _, _, _, tables, hits, cached, allocated⟩ | ⟨_, applied⟩
  · refine ⟨tables.settings, fun other _ => tables.blocksOf other, fun other _ => ?_,
      fun other _ => ?_, fun other _ => ?_⟩
    · rw [cached]
    · rw [hits]
    · rw [allocated]
  · exact applyCow_onlyFor applied

variable [BlockHashing H]

theorem extendBlocks_onlyFor {count : Nat}
    (extended : extendBlocks pool manager requestId count = .ok (newBlocks, pool', manager')) :
    OnlyFor requestId manager manager' := by
  rcases extendBlocks_eq_ok extended with ⟨_, rfl⟩
  exact (setBlocks_onlyFor ..).trans (recordBlocks_onlyFor ..)

theorem claimRingBlock_onlyFor
    (claimed : claimRingBlock pool manager requestId = .ok (newBlocks, pool', manager')) :
    OnlyFor requestId manager manager' := by
  unfold claimRingBlock at claimed
  split at claimed
  · cases claimed
    exact .refl requestId manager
  · exact extendBlocks_onlyFor claimed

theorem redirectPartialHit_onlyFor {cowBlocks : List BlockId} (consistent : Consistent pool)
    (redirected : redirectPartialHit pool manager requestId = .ok (cowBlocks, pool', manager')) :
    OnlyFor requestId manager manager' := by
  rcases redirectPartialHit_cases consistent redirected with
    ⟨_, _, _, rfl⟩ | ⟨_, _, _, _, _, _, _, applied, _, rfl⟩
  · exact .refl requestId manager'
  · exact ((erasePartialHit_onlyFor ..).trans (applyCow_onlyFor applied)).before rfl rfl rfl rfl rfl

theorem baseAllocateNewBlocks_onlyFor (consistent : Consistent pool)
    (allocated : baseAllocateNewBlocks pool manager requestId numTokens =
      .ok (newBlocks, pool', manager')) : OnlyFor requestId manager manager' := by
  rcases baseAllocateNewBlocks_cases allocated with ⟨_, _, redirected, ran, rest⟩
  have first := (redirectPartialHit_onlyFor consistent ran).trans
    (redirected.ensureBlocks_onlyFor requestId)
  rcases rest with ⟨_, _, _, rfl⟩ | ⟨_, extended, _⟩
  · exact first
  · exact first.trans (extendBlocks_onlyFor extended)

omit [DecidableEq H] [BlockHashing H] in
theorem alignFinished_onlyFor (manager : SingleTypeKVCacheManager H) (requestId : RequestId)
    (newBlocks : List BlockId) :
    OnlyFor requestId manager (manager.alignFinished requestId newBlocks) := by
  have marked := ((manager.setBlocks_onlyFor requestId
    (manager.blocksOf requestId ++ newBlocks)).trans (markAllocated_onlyFor _ requestId))
  exact ⟨marked.settings, marked.blocksOf, marked.numCachedBlock,
    fun other differ => Dict.get?_erase_of_ne _ differ.symm, marked.allocatedBlockReqs⟩

theorem alignAllocateNewBlocks_onlyFor {numSpeculative : Nat} {returned : List BlockId}
    (allocated : alignAllocateNewBlocks pool manager requestId numTokens numSpeculative =
      .ok (returned, pool', manager')) : OnlyFor requestId manager manager' := by
  have ensured := manager.ensureBlocks_onlyFor requestId
  rcases alignAllocateNewBlocks_cases allocated with
    ⟨_, _, _, _, rfl⟩ | ⟨table, newBlocks, middle, _, _, _, _, rest⟩
  · exact ensured.trans (markAllocated_onlyFor ..)
  · have tabled := (ensured.trans (recordLastStateBlock_onlyFor _ requestId numSpeculative)).trans
      (setBlocks_onlyFor _ requestId table)
    rcases rest with ⟨_, _, _, rfl⟩ | ⟨_, _, _, others, privatized, _, _, ran, _, rfl⟩
    · exact tabled.trans (alignFinished_onlyFor ..)
    · exact (tabled.trans (privatizePartialHit_onlyFor ran)).trans (alignFinished_onlyFor ..)

theorem allocateNewBlocks_onlyFor (consistent : Consistent pool)
    (allocated : allocateNewBlocks pool manager requestId numTokens numTokensMainModel =
      .ok (newBlocks, pool', manager')) : OnlyFor requestId manager manager' := by
  unfold allocateNewBlocks at allocated
  split at allocated
  · exact claimRingBlock_onlyFor allocated
  · split at allocated
    · exact alignAllocateNewBlocks_onlyFor allocated
    · exact baseAllocateNewBlocks_onlyFor consistent allocated
  · exact baseAllocateNewBlocks_onlyFor consistent allocated

/-! ## Caching and predicting -/

theorem baseCacheBlocks_onlyFor
    (cached : baseCacheBlocks pool manager request numTokens retentionInterval =
      .ok (pool', manager')) : OnlyFor request.requestId manager manager' := by
  unfold baseCacheBlocks at cached
  dsimp only at cached
  split at cached
  · cases cached
    exact .refl _ manager
  · obtain ⟨blockMask, _, cached⟩ := bind_eq_ok.mp cached
    obtain ⟨after, _, cached⟩ := bind_eq_ok.mp cached
    cases cached
    exact (ensureBlocks_onlyFor ..).trans (setNumCachedBlock_onlyFor ..)

theorem cachePartialTailBlock_onlyFor
    (cached : cachePartialTailBlock pool manager request numTokens = .ok (pool', manager')) :
    OnlyFor request.requestId manager manager' := by
  unfold cachePartialTailBlock at cached
  dsimp only at cached
  split at cached
  · cases cached
    exact .refl _ manager
  · split at cached
    · cases cached
      exact ensureBlocks_onlyFor ..
    · obtain ⟨⟨key, after⟩, _, cached⟩ := bind_eq_ok.mp cached
      cases cached
      exact ensureBlocks_onlyFor ..

theorem cacheMambaTailBlock_onlyFor {partialHash : Option (BlockHashWithGroupId H)}
    (cached : cacheMambaTailBlock pool manager request numTokens =
      .ok (partialHash, pool', manager')) : OnlyFor request.requestId manager manager' := by
  have ensured := manager.ensureBlocks_onlyFor request.requestId
  unfold cacheMambaTailBlock at cached
  dsimp only at cached
  split at cached
  · cases cached
    exact .refl _ manager
  · split at cached
    · cases cached
      exact ensured
    · split at cached
      · cases cached
        exact ensured
      · obtain ⟨⟨key, after⟩, _, cached⟩ := bind_eq_ok.mp cached
        split at cached
        · cases cached
          exact ((ensured.trans (setPartialHit_onlyFor _ _ _)).trans
            (setNumCachedBlock_onlyFor ..)).before rfl rfl rfl rfl rfl
        · cases cached
          exact ensured

omit [DecidableEq H] [BlockHashing H] in
theorem noteCachedStates_onlyFor {indices : List Nat}
    (noted : noteCachedStates pool requestId align indices manager = .ok manager') :
    OnlyFor requestId manager manager' := by
  induction indices generalizing manager with
  | nil =>
      cases noted
      exact .refl _ _
  | cons idx rest ih =>
      obtain ⟨block, _, noted⟩ := bind_eq_ok.mp noted
      split at noted
      · exact ih noted
      · split at noted
        · exact ih noted
        · exact OnlyFor.after (ih noted) rfl rfl rfl rfl rfl

theorem mambaCacheBlocks_onlyFor
    (cached : mambaCacheBlocks pool manager request numTokens align retentionInterval =
      .ok (pool', manager')) : OnlyFor request.requestId manager manager' := by
  obtain ⟨⟨pool1, manager1⟩, base, cached⟩ := bind_eq_ok.mp cached
  obtain ⟨⟨key, pool2, manager2⟩, tail, cached⟩ := bind_eq_ok.mp cached
  obtain ⟨manager3, noted, cached⟩ := bind_eq_ok.mp cached
  cases cached
  have second : OnlyFor request.requestId manager1 manager2 := by
    cases align with
    | true => exact cacheMambaTailBlock_onlyFor tail
    | false =>
        cases tail
        exact .refl _ _
  have third := noteCachedStates_onlyFor noted
  exact ((baseCacheBlocks_onlyFor base).trans second).trans (third.after rfl rfl rfl rfl rfl)

theorem cacheBlocks_onlyFor (cached : cacheBlocks pool manager request numTokens retentionInterval =
      .ok (pool', manager')) : OnlyFor request.requestId manager manager' := by
  apply cacheBlocks_rule (.refl _ manager) _ _ _ cached
  · exact fun _ _ => baseCacheBlocks_onlyFor
  · exact fun _ _ _ _ only tail => only.trans (cachePartialTailBlock_onlyFor tail)
  · exact fun _ _ _ _ => mambaCacheBlocks_onlyFor

variable {count : Int}

omit [BlockHashing H] in
/-- A prediction at most notes the checkpoint of an align-mode manager. -/
theorem getNumBlocksToAllocate_books
    (predicted : getNumBlocksToAllocate pool manager requestId numTokens newComputedBlocks
      totalComputed numLocal numTokensMainModel applyAdmissionCap = .ok (count, manager')) :
    manager'.numCachedBlock = manager.numCachedBlock ∧
      manager'.partialHitReqs = manager.partialHitReqs ∧
      manager'.allocatedBlockReqs = manager.allocatedBlockReqs := by
  have base : ∀ {numTokens : Nat},
      (baseNumBlocksToAllocate pool manager requestId numTokens newComputedBlocks totalComputed
        numLocal applyAdmissionCap).map (fun (count : Nat) => ((count : Int), manager)) =
          .ok (count, manager') → manager' = manager := by
    intro numTokens predicted
    cases result : baseNumBlocksToAllocate pool manager requestId numTokens newComputedBlocks
        totalComputed numLocal applyAdmissionCap with
    | error failure => simp [result, Except.map] at predicted
    | ok value =>
        rw [result] at predicted
        cases predicted
        rfl
  unfold getNumBlocksToAllocate at predicted
  dsimp only at predicted
  split at predicted
  · cases predicted
    exact ⟨rfl, rfl, rfl⟩
  · split at predicted
    · cases predicted
      exact ⟨rfl, rfl, rfl⟩
    · split at predicted
      · cases predicted
        cases applyAdmissionCap <;> exact ⟨rfl, rfl, rfl⟩
      · rw [base predicted]
        exact ⟨rfl, rfl, rfl⟩
  · rw [base predicted]
    exact ⟨rfl, rfl, rfl⟩

omit [BlockHashing H] in
/-- A prediction trims nothing. -/
theorem getNumBlocksToAllocate_trimmed
    (predicted : getNumBlocksToAllocate pool manager requestId numTokens newComputedBlocks
      totalComputed numLocal numTokensMainModel applyAdmissionCap = .ok (count, manager'))
    (inside : Nat → Prop) : Trimmed requestId inside manager manager' := by
  have tables := getNumBlocksToAllocate_sameTables predicted
  rcases getNumBlocksToAllocate_books predicted with ⟨cached, hits, allocated⟩
  refine ⟨⟨tables.settings, fun other _ => tables.blocksOf other, fun _ _ => by rw [cached],
    fun _ _ => by rw [hits], fun _ _ => by rw [allocated]⟩, cached, hits, allocated, ?_⟩
  rw [tables.blocksOf]
  exact .refl _ _

end Allocation

end Vllm.Core.SingleTypeKVCacheManager
