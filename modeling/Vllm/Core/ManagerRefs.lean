import Vllm.Core.KVCacheManager
import Vllm.Core.BlockPoolHashes

/-!
# References held by the managers

A manager holds one reference for every occurrence of a block in its tables and
one for each end of a pending copy.  `Moved` says that a call changes the
reference counts of the pool by exactly what it changes here, so that
references are conserved whatever a manager's class does.
-/

namespace Vllm.Core.SingleTypeKVCacheManager

open Vllm.Library BlockPool

variable {H : Type}

/-! ## Tables and pins -/

/-- The occurrences of a block in the tables of all requests. -/
def occurrences (manager : SingleTypeKVCacheManager H) (block : BlockId) : Nat :=
  manager.reqToBlocks.sumOn fun _ blocks => blocks.count block

/-- Both ends of every copy, in order. -/
def copyEnds (copies : List (BlockId × BlockId)) : List BlockId :=
  copies.flatMap fun copy => [copy.1, copy.2]

/-- The references that a manager holds to a block. -/
def refs (manager : SingleTypeKVCacheManager H) (block : BlockId) : Nat :=
  manager.occurrences block + (copyEnds manager.pendingCowCopies).count block

/-- The fields that no call changes; all the others at their initial values. -/
def settings (manager : SingleTypeKVCacheManager H) : SingleTypeKVCacheManager H where
  kvCacheSpec := manager.kvCacheSpec
  blockSize := manager.blockSize
  blockSize_pos := manager.blockSize_pos
  dcpWorldSize := manager.dcpWorldSize
  enableCaching := manager.enableCaching
  kvCacheGroupId := manager.kvCacheGroupId
  cacheHitAlignmentTokens := manager.cacheHitAlignmentTokens
  maxAdmissionBlocksPerRequest := manager.maxAdmissionBlocksPerRequest
  recordNewBlockIds := manager.recordNewBlockIds
  useEagle := manager.useEagle

variable {manager manager' : SingleTypeKVCacheManager H} {requestId : RequestId}
  {pool pool' : BlockPool H} {newComputedBlocks : List BlockId} {numLocal numExternal : Nat}

theorem kvCacheSpec_of_settings (same : manager'.settings = manager.settings) :
    manager'.kvCacheSpec = manager.kvCacheSpec :=
  (SingleTypeKVCacheManager.mk.inj same).1

theorem blockSize_of_settings (same : manager'.settings = manager.settings) :
    manager'.blockSize = manager.blockSize :=
  (SingleTypeKVCacheManager.mk.inj same).2.1

@[simp]
theorem blocksOf_setBlocks_self (manager : SingleTypeKVCacheManager H) (requestId : RequestId)
    (blocks : List BlockId) : (manager.setBlocks requestId blocks).blocksOf requestId = blocks :=
  Dict.getD_insert_self ..

theorem blocksOf_setBlocks_of_ne (manager : SingleTypeKVCacheManager H) {other : RequestId}
    (blocks : List BlockId) (differ : requestId ≠ other) :
    (manager.setBlocks requestId blocks).blocksOf other = manager.blocksOf other :=
  Dict.getD_insert_of_ne _ _ _ differ

/-- Writing a table exchanges the old occurrences for the new ones. -/
theorem occurrences_setBlocks (manager : SingleTypeKVCacheManager H) (requestId : RequestId)
    (blocks : List BlockId) (block : BlockId) :
    (manager.setBlocks requestId blocks).occurrences block +
        (manager.blocksOf requestId).count block =
      manager.occurrences block + blocks.count block := by
  have swapped := manager.reqToBlocks.sumOn_insert (fun _ blocks => blocks.count block)
    requestId blocks
  unfold occurrences blocksOf setBlocks Dict.getD
  cases stored : manager.reqToBlocks.get? requestId with
  | none => simpa [stored] using swapped
  | some old => simpa [stored] using swapped

/-- The same, for all the references. -/
theorem refs_setBlocks (manager : SingleTypeKVCacheManager H) (requestId : RequestId)
    (blocks : List BlockId) (block : BlockId) :
    (manager.setBlocks requestId blocks).refs block +
        (manager.blocksOf requestId).count block = manager.refs block + blocks.count block := by
  have swapped := manager.occurrences_setBlocks requestId blocks block
  have pins : (manager.setBlocks requestId blocks).pendingCowCopies =
      manager.pendingCowCopies := rfl
  unfold refs
  rw [pins]
  omega

/-- A table never holds more references than its manager. -/
theorem count_blocksOf_le_occurrences (manager : SingleTypeKVCacheManager H)
    (requestId : RequestId) (block : BlockId) :
    (manager.blocksOf requestId).count block ≤ manager.occurrences block := by
  have emptied := manager.occurrences_setBlocks requestId [] block
  rw [List.count_nil] at emptied
  omega

/-- Agreement on every table and on the pending copies. -/
structure SameTables (manager manager' : SingleTypeKVCacheManager H) : Prop where
  settings : manager'.settings = manager.settings
  blocksOf : ∀ requestId, manager'.blocksOf requestId = manager.blocksOf requestId
  occurrences : ∀ block, manager'.occurrences block = manager.occurrences block
  pendingCowCopies : manager'.pendingCowCopies = manager.pendingCowCopies

namespace SameTables

theorem refl (manager : SingleTypeKVCacheManager H) : SameTables manager manager :=
  ⟨rfl, fun _ => rfl, fun _ => rfl, rfl⟩

variable {manager manager' first second third : SingleTypeKVCacheManager H}

/-- Calls that leave the two fields alone. -/
theorem of_eq (settings : manager'.settings = manager.settings)
    (tables : manager'.reqToBlocks = manager.reqToBlocks)
    (pins : manager'.pendingCowCopies = manager.pendingCowCopies) :
    SameTables manager manager' where
  settings := settings
  blocksOf requestId := by rw [SingleTypeKVCacheManager.blocksOf, tables]; rfl
  occurrences block := by rw [SingleTypeKVCacheManager.occurrences, tables]; rfl
  pendingCowCopies := pins

theorem trans (left : SameTables first second) (right : SameTables second third) :
    SameTables first third where
  settings := right.settings.trans left.settings
  blocksOf requestId := (right.blocksOf requestId).trans (left.blocksOf requestId)
  occurrences block := (right.occurrences block).trans (left.occurrences block)
  pendingCowCopies := right.pendingCowCopies.trans left.pendingCowCopies

/-- The same with a change of other fields first. -/
theorem after (right : SameTables second third) (settings : second.settings = first.settings)
    (tables : second.reqToBlocks = first.reqToBlocks)
    (pins : second.pendingCowCopies = first.pendingCowCopies) : SameTables first third :=
  (of_eq settings tables pins).trans right

theorem refs (same : SameTables manager manager') (block : BlockId) :
    manager'.refs block = manager.refs block := by
  unfold SingleTypeKVCacheManager.refs
  rw [same.occurrences, same.pendingCowCopies]

end SameTables

/-- Reading a missing table creates an empty one. -/
theorem ensureBlocks_sameTables (manager : SingleTypeKVCacheManager H) (requestId : RequestId) :
    SameTables manager (manager.ensureBlocks requestId) where
  settings := rfl
  blocksOf other := by
    by_cases same : requestId = other
    · subst same
      exact blocksOf_setBlocks_self ..
    · exact blocksOf_setBlocks_of_ne _ _ same
  occurrences block := by
    have swapped := manager.occurrences_setBlocks requestId (manager.blocksOf requestId) block
    exact Nat.add_right_cancel swapped
  pendingCowCopies := rfl

theorem recordBlocks_sameTables (manager : SingleTypeKVCacheManager H) (blocks : List BlockId) :
    SameTables manager (manager.recordBlocks blocks) := by
  unfold recordBlocks
  split
  · exact .of_eq rfl rfl rfl
  · exact .refl manager

/-! ## Moving references -/

/-- The pool knows at least the references that the manager holds. -/
def Backed (pool : BlockPool H) (manager : SingleTypeKVCacheManager H) : Prop :=
  ∀ block, block ≠ nullBlock → (manager.refs block : Int) ≤ (pool.blocks block).refCnt

/-- Reference counts and held references change by the same amounts. -/
structure Moved (pool : BlockPool H) (manager : SingleTypeKVCacheManager H)
    (pool' : BlockPool H) (manager' : SingleTypeKVCacheManager H) : Prop where
  config : SameConfig pool pool'
  settings : manager'.settings = manager.settings
  consistent : Consistent pool'
  balance : ∀ block, block ≠ nullBlock →
    (pool'.blocks block).refCnt + manager.refs block =
      (pool.blocks block).refCnt + manager'.refs block

namespace Moved

variable {pool pool' : BlockPool H} {manager manager' : SingleTypeKVCacheManager H}

/-- Neither side changes. -/
theorem of_same (consistent : Consistent pool) (pools : SameRefs pool pool')
    (tables : SameTables manager manager') : Moved pool manager pool' manager' where
  config := pools.toSameConfig
  settings := tables.settings
  consistent := consistent.sameRefs pools
  balance block _ := by rw [pools.refCnt, tables.refs]

/-- The manager keeps the references that were taken. -/
theorem of_referenced {blocks : List BlockId} (taken : Referenced pool pool' blocks)
    (settings : manager'.settings = manager.settings) (kept : ∀ block, block ≠ nullBlock →
      manager'.refs block = manager.refs block + blocks.count block) :
    Moved pool manager pool' manager' where
  config := taken.toSameConfig
  settings := settings
  consistent := taken.consistent
  balance block nonNull := by
    rw [taken.refCnt, kept block nonNull]
    omega

theorem trans {middlePool : BlockPool H} {middle : SingleTypeKVCacheManager H}
    (left : Moved pool manager middlePool middle) (right : Moved middlePool middle pool' manager') :
    Moved pool manager pool' manager' where
  config := left.config.trans right.config
  settings := right.settings.trans left.settings
  consistent := right.consistent
  balance block nonNull := by
    have first := left.balance block nonNull
    have second := right.balance block nonNull
    omega

theorem backed (moved : Moved pool manager pool' manager') (backed : Backed pool manager) :
    Backed pool' manager' := by
  intro block nonNull
  have := moved.balance block nonNull
  have := backed block nonNull
  omega

end Moved

/-- Freed references leave the manager. -/
theorem moved_of_freed {blocks : List BlockId} (consistent : Consistent pool)
    (backed : Backed pool manager) (settings : manager'.settings = manager.settings)
    (dropped : ∀ block, block ≠ nullBlock →
      manager'.refs block + blocks.count block = manager.refs block)
    (freed : pool.freeBlocks blocks = .ok pool') : Moved pool manager pool' manager' := by
  have held : ∀ block, block ≠ nullBlock →
      (blocks.count block : Int) ≤ (pool.blocks block).refCnt := by
    intro block nonNull
    have := backed block nonNull
    have := dropped block nonNull
    omega
  rcases consistent.freeBlocks held freed with ⟨after, hashes, counts⟩
  refine ⟨hashes.toSameConfig, settings, after, fun block nonNull => ?_⟩
  have := dropped block nonNull
  rw [counts]
  omega

/-! ## Adding computed blocks -/

/-- What `add_local_computed_blocks` leaves in the table. -/
def localTable (manager : SingleTypeKVCacheManager H) (newComputedBlocks : List BlockId)
    (numComputedTokens : Nat) : List BlockId :=
  List.replicate (manager.getNumSkippedBlocks numComputedTokens) nullBlock ++
    newComputedBlocks.drop (manager.getNumSkippedBlocks numComputedTokens)

/-- The tail of a partial hit, remembered for the copy-on-write redirect. -/
def partialTail (manager : SingleTypeKVCacheManager H) (newComputedBlocks : List BlockId)
    (numLocalComputedTokens numComputedTokens : Nat) : Option (Nat × BlockId) :=
  if numLocalComputedTokens % manager.blockSize ≠ 0 then
    (newComputedBlocks.drop (manager.getNumSkippedBlocks numComputedTokens)).getLast?.map
      fun tail => (numLocalComputedTokens / manager.blockSize, tail)
  else
    none

/-- The manager after `add_local_computed_blocks`. -/
def withLocalHits (manager : SingleTypeKVCacheManager H) (requestId : RequestId)
    (newComputedBlocks : List BlockId)
    (numLocalComputedTokens numComputedTokens : Nat) : SingleTypeKVCacheManager H :=
  let table := manager.localTable newComputedBlocks numComputedTokens
  let tail := manager.partialTail newComputedBlocks numLocalComputedTokens numComputedTokens
  { manager.setBlocks requestId table with
    partialHitReqs := (tail.map (manager.partialHitReqs.insert requestId)).getD
      manager.partialHitReqs
    numCachedBlock := manager.numCachedBlock.insert requestId
      ((tail.map Prod.fst).getD table.length) }

/-- What a successful `add_local_computed_blocks` did. -/
theorem addLocalHits_eq_ok
    (added : addLocalHits pool manager requestId newComputedBlocks numLocal numExternal =
      .ok (pool', manager')) :
    manager.blocksOf requestId = [] ∧
      BlockPool.touch (newComputedBlocks.drop
        (manager.getNumSkippedBlocks (numLocal + numExternal))) pool = .ok pool' ∧
      manager' = manager.withLocalHits requestId newComputedBlocks numLocal
        (numLocal + numExternal) := by
  obtain ⟨_, empty, added⟩ := bind_eq_ok.mp added
  obtain ⟨touchedPool, touched, added⟩ := bind_eq_ok.mp added
  have isTouch : BlockPool.touch (newComputedBlocks.drop
      (manager.getNumSkippedBlocks (numLocal + numExternal))) pool = .ok touchedPool := by
    split at touched
    · exact touched
    · by_cases none : newComputedBlocks.drop
          (manager.getNumSkippedBlocks (numLocal + numExternal)) = []
      · rw [none] at touched ⊢
        exact touched
      · simp [pyAssert, none, Except.map] at touched
  refine ⟨List.length_eq_zero_iff.mp (pyAssert_eq_ok.mp empty), ?_⟩
  unfold withLocalHits partialTail
  cases last : (newComputedBlocks.drop
      (manager.getNumSkippedBlocks (numLocal + numExternal))).getLast? with
  | none =>
      rw [last] at added
      cases added
      refine ⟨isTouch, ?_⟩
      split <;> rfl
  | some tail =>
      rw [last] at added
      dsimp only at added
      split at added
      · rename_i remainder
        cases added
        have remainder : numLocal % manager.blockSize ≠ 0 := remainder
        simp only [remainder, ne_eq, not_false_eq_true, if_true]
        exact ⟨isTouch, rfl⟩
      · rename_i remainder
        cases added
        have remainder : ¬ numLocal % manager.blockSize ≠ 0 := remainder
        simp only [remainder, if_false]
        exact ⟨isTouch, rfl⟩

theorem addLocalHits_moved (consistent : Consistent pool)
    (valid : ∀ block ∈ newComputedBlocks, block < pool.numGpuBlocks)
    (added : addLocalHits pool manager requestId newComputedBlocks numLocal numExternal =
      .ok (pool', manager')) : Moved pool manager pool' manager' := by
  rcases addLocalHits_eq_ok added with ⟨empty, touched, rfl⟩
  have taken := consistent.touch (fun block member => valid block (List.mem_of_mem_drop member))
    touched
  refine .of_referenced taken rfl fun block nonNull => ?_
  have swapped := manager.refs_setBlocks requestId
    (manager.localTable newComputedBlocks (numLocal + numExternal)) block
  rw [empty, List.count_nil, Nat.add_zero] at swapped
  refine swapped.trans ?_
  rw [localTable, List.count_append, List.count_replicate, if_neg (by simpa using nonNull.symm),
    Nat.zero_add]

theorem addLocalComputedBlocks_moved (consistent : Consistent pool)
    (valid : ∀ block ∈ newComputedBlocks, block < pool.numGpuBlocks)
    (added : addLocalComputedBlocks pool manager requestId newComputedBlocks numLocal numExternal =
      .ok (pool', manager')) : Moved pool manager pool' manager' := by
  unfold addLocalComputedBlocks at added
  split at added
  · cases added
    exact .of_same consistent (.refl pool) (.refl manager)
  · obtain ⟨_, _, added⟩ := bind_eq_ok.mp added
    cases added
    exact .of_same consistent (.refl pool) (.refl manager)
  · exact addLocalHits_moved consistent valid added

/-! ## Taking new blocks -/

section Allocation

variable [DecidableEq H] [BlockHashing H]

variable {pool pool' : BlockPool H} {manager manager' : SingleTypeKVCacheManager H}
  {requestId : RequestId}
  {count numLocal numExternal blockIdx index numTokens numSkipped checkpointBlock numSpeculative
    numTokensMainModel : Nat}
  {newBlocks cowBlocks table returned : List BlockId} {sourceBlock cowBlock block : BlockId}
  {blocksAllocated align : Bool} {request : Request H} {retentionInterval : Option Nat}

theorem extendBlocks_eq_ok
    (extended : extendBlocks pool manager requestId count = .ok (newBlocks, pool', manager')) :
    pool.getNewBlocks count = .ok (newBlocks, pool') ∧
      manager' = (manager.setBlocks requestId
        (manager.blocksOf requestId ++ newBlocks)).recordBlocks newBlocks := by
  obtain ⟨⟨taken, next⟩, got, extended⟩ := bind_eq_ok.mp extended
  cases extended
  exact ⟨got, rfl⟩

omit [DecidableEq H] [BlockHashing H] in
/-- Appending the taken blocks to a table keeps their references. -/
theorem refs_append (manager : SingleTypeKVCacheManager H) (requestId : RequestId)
    (newBlocks : List BlockId) (block : BlockId) :
    (manager.setBlocks requestId (manager.blocksOf requestId ++ newBlocks)).refs block =
      manager.refs block + newBlocks.count block := by
  have swapped := manager.refs_setBlocks requestId (manager.blocksOf requestId ++ newBlocks) block
  rw [List.count_append] at swapped
  omega

theorem extendBlocks_moved (consistent : Consistent pool)
    (extended : extendBlocks pool manager requestId count = .ok (newBlocks, pool', manager')) :
    Moved pool manager pool' manager' := by
  rcases extendBlocks_eq_ok extended with ⟨got, rfl⟩
  rcases consistent.getNewBlocks got with ⟨taken, _, _, _⟩
  have recorded := recordBlocks_sameTables
    (manager.setBlocks requestId (manager.blocksOf requestId ++ newBlocks)) newBlocks
  refine .of_referenced taken recorded.settings fun block _ => ?_
  rw [recorded.refs, refs_append]

theorem claimRingBlock_moved (consistent : Consistent pool)
    (claimed : claimRingBlock pool manager requestId = .ok (newBlocks, pool', manager')) :
    Moved pool manager pool' manager' := by
  unfold claimRingBlock at claimed
  split at claimed
  · cases claimed
    exact .of_same consistent (.refl pool) (.refl manager)
  · exact extendBlocks_moved consistent claimed

theorem allocateExternalHits_moved (consistent : Consistent pool)
    (allocated : allocateExternalHits pool manager requestId numLocal numExternal =
      .ok (pool', manager')) : Moved pool manager pool' manager' := by
  unfold allocateExternalHits at allocated
  split at allocated
  · cases allocated
    exact .of_same consistent (.refl pool) (.refl manager)
  · obtain ⟨⟨newBlocks, next, extended⟩, ran, allocated⟩ := bind_eq_ok.mp allocated
    cases allocated
    exact extendBlocks_moved consistent ran

theorem allocateExternalComputedBlocks_moved (consistent : Consistent pool)
    (allocated : allocateExternalComputedBlocks pool manager requestId numLocal numExternal =
      .ok (pool', manager')) : Moved pool manager pool' manager' := by
  unfold allocateExternalComputedBlocks at allocated
  split at allocated
  · obtain ⟨⟨newBlocks, next, extended⟩, ran, allocated⟩ := bind_eq_ok.mp allocated
    cases allocated
    exact claimRingBlock_moved consistent ran
  · cases allocated
    exact .of_same consistent (.refl pool) (.refl manager)
  · exact allocateExternalHits_moved consistent allocated

/-! ## Copy on write -/

section

omit [DecidableEq H] [BlockHashing H]

theorem applyCow_eq_ok (applied : applyCow pool manager requestId blockIdx sourceBlock cowBlock =
      .ok (pool', manager')) :
    (manager.blocksOf requestId)[blockIdx]? = some sourceBlock ∧ sourceBlock ≠ nullBlock ∧
      (pool.blocks sourceBlock).refCnt > 0 ∧
      pool' = pool.setBlock cowBlock
        { pool.blocks cowBlock with refCnt := (pool.blocks cowBlock).refCnt + 1 } ∧
      manager' = (manager.setBlocks requestId
        ((manager.blocksOf requestId).set blockIdx cowBlock)).pinCopy sourceBlock cowBlock := by
  obtain ⟨_, located, applied⟩ := bind_eq_ok.mp applied
  obtain ⟨_, usable, applied⟩ := bind_eq_ok.mp applied
  cases applied
  have usable := pyAssert_eq_ok.mp usable
  exact ⟨pyAssert_eq_ok.mp located, usable.1, usable.2, rfl, rfl⟩

/-- Replacing one entry of a list. -/
theorem count_set_add {blocks : List BlockId} {old : BlockId} (new : BlockId)
    (located : blocks[index]? = some old) (block : BlockId) :
    (blocks.set index new).count block + [old].count block =
      blocks.count block + [new].count block := by
  induction blocks generalizing index with
  | nil => simp at located
  | cons first rest ih =>
      cases index with
      | zero =>
          simp only [List.getElem?_cons_zero, Option.some.injEq] at located
          subst located
          simp only [List.set_cons_zero, List.count_cons, List.count_nil]
          omega
      | succ index =>
          have step := ih (by simpa using located)
          simp only [List.set_cons_succ, List.count_cons, List.count_nil] at step ⊢
          omega

theorem refs_pinCopy (manager : SingleTypeKVCacheManager H) (sourceBlock cowBlock block : BlockId) :
    (manager.pinCopy sourceBlock cowBlock).refs block =
      manager.refs block + [sourceBlock].count block + [cowBlock].count block := by
  have tables : (manager.pinCopy sourceBlock cowBlock).occurrences block =
      manager.occurrences block := rfl
  unfold refs
  rw [tables]
  simp only [pinCopy, copyEnds, List.flatMap_append, List.flatMap_singleton, List.count_append,
    List.count_cons, List.count_nil]
  omega

/-- The source leaves the table and becomes pinned; the copy gets a table entry
and a pin. -/
theorem applyCow_refs (applied : applyCow pool manager requestId blockIdx sourceBlock cowBlock =
      .ok (pool', manager')) (block : BlockId) :
    manager'.refs block = manager.refs block + 2 * [cowBlock].count block := by
  rcases applyCow_eq_ok applied with ⟨located, _, _, _, rfl⟩
  have replaced := count_set_add cowBlock located block
  have swapped := manager.refs_setBlocks requestId
    ((manager.blocksOf requestId).set blockIdx cowBlock) block
  rw [refs_pinCopy]
  omega

end

/-- What the redirect of a partial hit did. -/
theorem redirectPartialHit_cases (consistent : Consistent pool)
    (redirected : redirectPartialHit pool manager requestId = .ok (cowBlocks, pool', manager')) :
    (manager.partialHitReqs.get? requestId = none ∧ cowBlocks = [] ∧ pool' = pool ∧
      manager' = manager) ∨
    ∃ blockIdx sourceBlock cowBlock middle applied,
      manager.partialHitReqs.get? requestId = some (blockIdx, sourceBlock) ∧
      pool.getNewBlocks 1 = .ok ([cowBlock], middle) ∧
      applyCow middle { manager with
        partialHitReqs := manager.partialHitReqs.erase requestId } requestId blockIdx sourceBlock
        cowBlock = .ok (pool', applied) ∧
      cowBlocks = [cowBlock] ∧
      manager' = { applied with newBlockIds := applied.newBlockIds ++ [cowBlock] } := by
  unfold redirectPartialHit at redirected
  split at redirected
  · rename_i absent
    cases redirected
    exact .inl ⟨absent, rfl, rfl, rfl⟩
  · rename_i blockIdx sourceBlock pending
    obtain ⟨⟨taken, middle⟩, got, redirected⟩ := bind_eq_ok.mp redirected
    obtain ⟨cowBlock, first, redirected⟩ := bind_eq_ok.mp redirected
    obtain ⟨⟨after, applied⟩, ran, redirected⟩ := bind_eq_ok.mp redirected
    cases redirected
    refine .inr ⟨blockIdx, sourceBlock, cowBlock, middle, applied, pending, ?_, ran, rfl, rfl⟩
    have single : taken = [cowBlock] := by
      have length := (consistent.getNewBlocks got).2.1
      rcases List.length_eq_one_iff.mp length with ⟨only, rfl⟩
      simpa using first
    exact single ▸ got

/-- A taken block with its copy-on-write pin. -/
theorem moved_of_cow {middle : BlockPool H} (consistent : Consistent pool)
    (got : pool.getNewBlocks 1 = .ok ([cowBlock], middle))
    (applied : applyCow middle manager requestId blockIdx sourceBlock cowBlock =
      .ok (pool', manager')) : Moved pool manager pool' manager' := by
  rcases consistent.getNewBlocks got with ⟨taken, _, _, idle⟩
  rcases idle cowBlock (List.mem_singleton_self _) with ⟨nonNull, _, zero⟩
  have one : (middle.blocks cowBlock).refCnt = 1 := by
    rw [taken.refCnt, zero, List.count_singleton_self]
    rfl
  rcases applyCow_eq_ok applied with ⟨_, _, _, poolEq, managerEq⟩
  have pinned := @Consistent.addReference _ _ taken.consistent cowBlock fun _ => by omega
  rw [← poolEq] at pinned
  refine ⟨taken.toSameConfig.trans pinned.toSameConfig, ?_, pinned.consistent, fun block _ => ?_⟩
  · rw [managerEq]
    rfl
  · rw [pinned.refCnt, taken.refCnt, applyCow_refs applied]
    omega

theorem redirectPartialHit_moved (consistent : Consistent pool)
    (redirected : redirectPartialHit pool manager requestId = .ok (cowBlocks, pool', manager')) :
    Moved pool manager pool' manager' := by
  rcases redirectPartialHit_cases consistent redirected with
    ⟨_, _, rfl, rfl⟩ | ⟨blockIdx, sourceBlock, cowBlock, middle, applied, _, got, ran, _, rfl⟩
  · exact .of_same consistent (.refl pool') (.refl manager')
  · have moved := moved_of_cow consistent got ran
    exact ⟨moved.config, moved.settings, moved.consistent, moved.balance⟩

/-- What the base class did: a redirect, then new blocks for the missing part. -/
theorem baseAllocateNewBlocks_cases
    (allocated : baseAllocateNewBlocks pool manager requestId numTokens =
      .ok (newBlocks, pool', manager')) :
    ∃ cowBlocks middle redirected,
      redirectPartialHit pool manager requestId = .ok (cowBlocks, middle, redirected) ∧
      ((cdiv numTokens redirected.blockSize ≤ (redirected.blocksOf requestId).length ∧
        newBlocks = cowBlocks ∧ pool' = middle ∧
        manager' = redirected.ensureBlocks requestId) ∨
      ∃ taken, extendBlocks middle (redirected.ensureBlocks requestId) requestId
          (cdiv numTokens redirected.blockSize - (redirected.blocksOf requestId).length) =
            .ok (taken, pool', manager') ∧ newBlocks = cowBlocks ++ taken) := by
  obtain ⟨⟨cowBlocks, middle, redirected⟩, ran, allocated⟩ := bind_eq_ok.mp allocated
  refine ⟨cowBlocks, middle, redirected, ran, ?_⟩
  have ensured := (redirected.ensureBlocks_sameTables requestId).blocksOf requestId
  dsimp only at allocated
  rw [ensured] at allocated
  split at allocated
  · rename_i none
    cases allocated
    exact .inl ⟨Nat.sub_eq_zero_iff_le.mp none, rfl, rfl, rfl⟩
  · obtain ⟨⟨taken, after, extended⟩, got, allocated⟩ := bind_eq_ok.mp allocated
    cases allocated
    exact .inr ⟨taken, got, rfl⟩

theorem baseAllocateNewBlocks_moved (consistent : Consistent pool)
    (allocated : baseAllocateNewBlocks pool manager requestId numTokens =
      .ok (newBlocks, pool', manager')) : Moved pool manager pool' manager' := by
  rcases baseAllocateNewBlocks_cases allocated with ⟨cowBlocks, middle, redirected, ran, rest⟩
  have first := redirectPartialHit_moved consistent ran
  have ensured : Moved middle redirected middle (redirected.ensureBlocks requestId) :=
    .of_same first.consistent (.refl middle) (redirected.ensureBlocks_sameTables requestId)
  rcases rest with ⟨_, _, rfl, rfl⟩ | ⟨taken, extended, _⟩
  · exact first.trans ensured
  · exact (first.trans ensured).trans (extendBlocks_moved first.consistent extended)

/-! ## Align mode -/

section

omit [DecidableEq H] [BlockHashing H]

/-- Relocation moves blocks within a table and leaves null blocks behind. -/
theorem relocateSpeculativeBlocks_count {indices : List Nat} {reqBlocks relocated : List BlockId}
    (ran : relocateSpeculativeBlocks pool indices reqBlocks = .ok relocated)
    (nonNull : block ≠ nullBlock) : relocated.count block = reqBlocks.count block := by
  induction indices generalizing reqBlocks with
  | nil =>
      cases ran
      rfl
  | cons index rest ih =>
      obtain ⟨moved, located, ran⟩ := bind_eq_ok.mp ran
      obtain ⟨_, _, ran⟩ := bind_eq_ok.mp ran
      have located : (reqBlocks ++ [moved])[index]? = some moved := by
        rw [pyIndex_eq_ok] at located
        rw [List.getElem?_append_left (List.getElem?_eq_some_iff.mp located).1]
        exact located
      have replaced := count_set_add nullBlock located block
      have notNull : [nullBlock].count block = 0 := by
        simpa [List.count_singleton] using nonNull.symm
      rw [ih ran]
      rw [List.count_append] at replaced
      omega

/-- Padding and relocation do not change which blocks a table holds. -/
theorem alignTable_count
    (aligned : alignTable pool manager requestId numSkipped checkpointBlock numSpeculative =
      .ok table) (nonNull : block ≠ nullBlock) :
    table.count block = (manager.blocksOf requestId).count block := by
  have padded : (if (manager.blocksOf requestId).length < numSkipped then
      manager.blocksOf requestId ++ List.replicate
        (numSkipped - checkpointBlock - (manager.blocksOf requestId).length) nullBlock
      else manager.blocksOf requestId).count block =
        (manager.blocksOf requestId).count block := by
    split
    · rw [List.count_append, List.count_replicate, if_neg (by simpa using nonNull.symm),
        Nat.add_zero]
    · rfl
  unfold alignTable at aligned
  dsimp only at aligned
  split at aligned
  · exact (relocateSpeculativeBlocks_count aligned nonNull).trans padded
  · cases aligned
    exact padded

theorem markAllocated_sameTables (manager : SingleTypeKVCacheManager H) (requestId : RequestId) :
    SameTables manager (manager.markAllocated requestId) := by
  unfold markAllocated
  split
  · exact .refl manager
  · exact .of_eq rfl rfl rfl

theorem recordLastStateBlock_sameTables (manager : SingleTypeKVCacheManager H)
    (requestId : RequestId) (numSpeculative : Nat) :
    SameTables manager (manager.recordLastStateBlock requestId numSpeculative) := by
  unfold recordLastStateBlock
  dsimp only
  split
  · exact .of_eq rfl rfl rfl
  · split
    · exact .of_eq rfl rfl rfl
    · exact .refl manager

/-- The manager in which an align-mode allocation works. -/
def alignPrepared (manager : SingleTypeKVCacheManager H) (requestId : RequestId)
    (numSpeculative : Nat) : SingleTypeKVCacheManager H :=
  (manager.ensureBlocks requestId).recordLastStateBlock requestId numSpeculative

theorem alignPrepared_sameTables (manager : SingleTypeKVCacheManager H) (requestId : RequestId)
    (numSpeculative : Nat) : SameTables manager (manager.alignPrepared requestId numSpeculative) :=
  (manager.ensureBlocks_sameTables requestId).trans
    (recordLastStateBlock_sameTables _ requestId numSpeculative)

end

/-- The number of blocks that an align-mode allocation takes, for a table of the
given length. -/
def alignNewBlocks (numRequired tableLength : Nat) (hasPartialHit : Bool) : Int :=
  if hasPartialHit then max ((numRequired : Int) - tableLength) 0 + 1
  else (numRequired : Int) - tableLength

/-- The manager at the end of an align-mode allocation. -/
def alignFinished (manager : SingleTypeKVCacheManager H) (requestId : RequestId)
    (newBlocks : List BlockId) : SingleTypeKVCacheManager H :=
  { (manager.setBlocks requestId
      (manager.blocksOf requestId ++ newBlocks)).markAllocated requestId with
    partialHitReqs := manager.partialHitReqs.erase requestId }

/-- What an align-mode allocation did: nothing, or new blocks after an adjusted
table, or the same with a privatized partial hit. -/
theorem alignAllocateNewBlocks_cases
    (allocated : alignAllocateNewBlocks pool manager requestId numTokens numSpeculative =
      .ok (returned, pool', manager')) :
    (cdiv numTokens manager.blockSize + numSpeculative ≤ (manager.blocksOf requestId).length ∧
      manager.partialHitReqs.get? requestId = none ∧ returned = [] ∧ pool' = pool ∧
      manager' = (manager.ensureBlocks requestId).markAllocated requestId) ∨
    ∃ table newBlocks middle, ¬ (cdiv numTokens manager.blockSize + numSpeculative ≤
          (manager.blocksOf requestId).length ∧
        (manager.partialHitReqs.get? requestId).isNone) ∧
      alignTable pool (manager.alignPrepared requestId numSpeculative) requestId
        (cdiv numTokens manager.blockSize + numSpeculative - numSpeculative - 1)
        (manager.numCheckpointBlocks.getD requestId 0) numSpeculative = .ok table ∧
      alignNewBlocks (cdiv numTokens manager.blockSize + numSpeculative) table.length
          (manager.partialHitReqs.get? requestId).isSome ≤
        ((1 + (manager.partialHitReqs.get? requestId).isSome.toNat +
          manager.numCheckpointBlocks.getD requestId 0 +
          if requestId ∈ manager.allocatedBlockReqs then 0 else numSpeculative : Nat) : Int) ∧
      pool.getNewBlocks (alignNewBlocks (cdiv numTokens manager.blockSize + numSpeculative)
        table.length (manager.partialHitReqs.get? requestId).isSome).toNat =
          .ok (newBlocks, middle) ∧
      ((manager.partialHitReqs.get? requestId = none ∧ pool' = middle ∧
        returned = table.drop (manager.blocksOf requestId).length ++ newBlocks ∧
        manager' = alignFinished ((manager.alignPrepared requestId numSpeculative).setBlocks
          requestId table) requestId newBlocks) ∨
      ∃ blockIdx sourceBlock cowBlock rest privatized,
        manager.partialHitReqs.get? requestId = some (blockIdx, sourceBlock) ∧
        newBlocks = cowBlock :: rest ∧
        privatizePartialHit middle ((manager.alignPrepared requestId numSpeculative).setBlocks
          requestId table) requestId (requestId ∈ manager.allocatedBlockReqs) blockIdx sourceBlock
          cowBlock = .ok (pool', privatized) ∧
        returned = (if requestId ∈ manager.allocatedBlockReqs then
            table.drop (manager.blocksOf requestId).length
          else cowBlock :: table.drop (manager.blocksOf requestId).length) ++ rest ∧
        manager' = alignFinished privatized requestId rest) := by
  have ensured := (manager.ensureBlocks_sameTables requestId).blocksOf requestId
  unfold alignAllocateNewBlocks at allocated
  dsimp only at allocated
  rw [ensured] at allocated
  split at allocated
  · rename_i enough
    cases allocated
    exact .inl ⟨enough.1, Option.isNone_iff_eq_none.mp enough.2, rfl, rfl, rfl⟩
  · rename_i short
    obtain ⟨table, aligned, allocated⟩ := bind_eq_ok.mp allocated
    obtain ⟨_, within, allocated⟩ := bind_eq_ok.mp allocated
    obtain ⟨⟨newBlocks, middle⟩, got, allocated⟩ := bind_eq_ok.mp allocated
    have within := pyAssert_eq_ok.mp within
    simp only [decide_eq_true_eq] at within
    refine .inr ⟨table, newBlocks, middle, short, aligned, within, got, ?_⟩
    obtain ⟨⟨front, back, after, privatized⟩, ran, allocated⟩ := bind_eq_ok.mp allocated
    cases allocated
    cases pending : manager.partialHitReqs.get? requestId with
    | none =>
        have pending' : (manager.ensureBlocks requestId).partialHitReqs.get? requestId = none :=
          pending
        rw [pending'] at ran
        cases ran
        exact .inl ⟨rfl, rfl, rfl, rfl⟩
    | some hit =>
        have pending' : (manager.ensureBlocks requestId).partialHitReqs.get? requestId =
          some hit := pending
        rw [pending'] at ran
        obtain ⟨cowBlock, first, ran⟩ := bind_eq_ok.mp ran
        obtain ⟨⟨pool2, manager2⟩, private2, ran⟩ := bind_eq_ok.mp ran
        cases ran
        refine .inr ⟨hit.1, hit.2, cowBlock, newBlocks.drop 1, manager2, rfl, ?_, private2, ?_, rfl⟩
        · rw [pyIndex_eq_ok] at first
          cases newBlocks with
          | nil => simp at first
          | cons head tail => simpa using first
        · by_cases allocatedBefore : requestId ∈ manager.allocatedBlockReqs
          · have : requestId ∈ (manager.ensureBlocks requestId).allocatedBlockReqs :=
              allocatedBefore
            simp [allocatedBefore, this]
          · have : requestId ∉ (manager.ensureBlocks requestId).allocatedBlockReqs :=
              allocatedBefore
            simp [allocatedBefore, this]

omit [BlockHashing H] in
/-- What the privatization of a partial hit did. -/
theorem privatizePartialHit_cases
    (ran : privatizePartialHit pool manager requestId blocksAllocated blockIdx sourceBlock
      cowBlock = .ok (pool', manager')) :
    (blocksAllocated = true ∧ (manager.blocksOf requestId)[blockIdx]? = some sourceBlock ∧
      ∃ moved, pool.moveBlockHashes sourceBlock cowBlock = .ok moved ∧
        pool' = moved.setBlock sourceBlock
          { moved.blocks sourceBlock with refCnt := (moved.blocks sourceBlock).refCnt + 1 } ∧
        SameTables (manager.pinCopy sourceBlock cowBlock) manager' ∧
        manager'.partialHitReqs = manager.partialHitReqs ∧
        manager'.numCachedBlock = manager.numCachedBlock ∧
        manager'.allocatedBlockReqs = manager.allocatedBlockReqs) ∨
    (blocksAllocated = false ∧
      applyCow pool manager requestId blockIdx sourceBlock cowBlock = .ok (pool', manager')) := by
  unfold privatizePartialHit at ran
  cases blocksAllocated with
  | false => exact .inr ⟨rfl, ran⟩
  | true =>
      obtain ⟨_, located, ran⟩ := bind_eq_ok.mp ran
      obtain ⟨moved, moves, ran⟩ := bind_eq_ok.mp ran
      cases ran
      exact .inl ⟨rfl, pyAssert_eq_ok.mp located, moved, moves, rfl, .of_eq rfl rfl rfl, rfl, rfl,
        rfl⟩

omit [DecidableEq H] [BlockHashing H] in
/-- A non-null block of a backed table is referenced. -/
theorem Backed.refCnt_pos (backed : Backed pool manager)
    (located : (manager.blocksOf requestId)[index]? = some block) (nonNull : block ≠ nullBlock) :
    0 < (pool.blocks block).refCnt := by
  have listed : 0 < (manager.blocksOf requestId).count block :=
    List.count_pos_iff.mpr (List.mem_of_getElem? located)
  have table := manager.count_blocksOf_le_occurrences requestId block
  have held := backed block nonNull
  have whole : manager.occurrences block ≤ manager.refs block := Nat.le_add_right _ _
  omega

omit [BlockHashing H] in
/-- Privatizing a partial hit accounts for the reference with which the copy was
taken. -/
theorem privatizePartialHit_balance (consistent : Consistent pool) (backed : Backed pool manager)
    (cowTaken : 0 < (pool.blocks cowBlock).refCnt)
    (ran : privatizePartialHit pool manager requestId blocksAllocated blockIdx sourceBlock
      cowBlock = .ok (pool', manager')) :
    SameConfig pool pool' ∧ manager'.settings = manager.settings ∧ Consistent pool' ∧
      ∀ block, (pool'.blocks block).refCnt + manager.refs block + [cowBlock].count block =
        (pool.blocks block).refCnt + manager'.refs block := by
  rcases privatizePartialHit_cases ran with
    ⟨_, located, moved, moves, rfl, tables, _, _, _⟩ | ⟨_, applied⟩
  · have same := moveBlockHashes_sameRefs moves
    have referenced : sourceBlock ≠ nullBlock → 0 < (moved.blocks sourceBlock).refCnt := by
      intro nonNull
      rw [same.refCnt]
      exact backed.refCnt_pos located nonNull
    have pinned := (consistent.sameRefs same).addReference referenced
    refine ⟨same.toSameConfig.trans pinned.toSameConfig, tables.settings, pinned.consistent, ?_⟩
    intro block
    rw [pinned.refCnt, same.refCnt, tables.refs, refs_pinCopy]
    omega
  · rcases applyCow_eq_ok applied with ⟨_, _, _, poolEq, managerEq⟩
    have pinned := consistent.addReference fun _ => cowTaken
    rw [← poolEq] at pinned
    refine ⟨pinned.toSameConfig, ?_, pinned.consistent, fun block => ?_⟩
    · rw [managerEq]
      rfl
    · rw [pinned.refCnt, applyCow_refs applied]
      omega

section

omit [DecidableEq H] [BlockHashing H]

theorem alignFinished_settings (manager : SingleTypeKVCacheManager H) (requestId : RequestId)
    (newBlocks : List BlockId) :
    (manager.alignFinished requestId newBlocks).settings = manager.settings :=
  (markAllocated_sameTables (manager.setBlocks requestId
    (manager.blocksOf requestId ++ newBlocks)) requestId).settings

theorem alignFinished_refs (manager : SingleTypeKVCacheManager H) (requestId : RequestId)
    (newBlocks : List BlockId) (block : BlockId) :
    (manager.alignFinished requestId newBlocks).refs block =
      manager.refs block + newBlocks.count block := by
  have marked := (markAllocated_sameTables (manager.setBlocks requestId
    (manager.blocksOf requestId ++ newBlocks)) requestId).refs block
  rw [refs_append] at marked
  exact marked

/-- The adjusted table holds the references of the old one. -/
theorem alignTable_refs
    (aligned : alignTable pool (manager.alignPrepared requestId numSpeculative) requestId
      numSkipped checkpointBlock numSpeculative = .ok table) (nonNull : block ≠ nullBlock) :
    ((manager.alignPrepared requestId numSpeculative).setBlocks requestId table).refs block =
      manager.refs block := by
  have prepared := manager.alignPrepared_sameTables requestId numSpeculative
  have swapped := (manager.alignPrepared requestId numSpeculative).refs_setBlocks requestId table
    block
  rw [alignTable_count aligned nonNull] at swapped
  rw [← prepared.refs block]
  exact Nat.add_right_cancel swapped

end

theorem alignAllocateNewBlocks_moved (consistent : Consistent pool) (backed : Backed pool manager)
    (allocated : alignAllocateNewBlocks pool manager requestId numTokens numSpeculative =
      .ok (returned, pool', manager')) : Moved pool manager pool' manager' := by
  have prepared := manager.alignPrepared_sameTables requestId numSpeculative
  rcases alignAllocateNewBlocks_cases allocated with
    ⟨_, _, _, rfl, rfl⟩ | ⟨table, newBlocks, middle, _, aligned, _, got, rest⟩
  · exact .of_same consistent (.refl pool') ((manager.ensureBlocks_sameTables requestId).trans
      (markAllocated_sameTables _ requestId))
  · rcases consistent.getNewBlocks got with ⟨taken, _, _, idle⟩
    rcases rest with
      ⟨_, rfl, _, rfl⟩ | ⟨blockIdx, sourceBlock, cowBlock, others, privatized, _, rfl, ran, _, rfl⟩
    · refine .of_referenced taken ((alignFinished_settings _ _ _).trans prepared.settings) ?_
      intro block nonNull
      rw [alignFinished_refs, alignTable_refs aligned nonNull]
    · -- The copy is taken first, so its reference is in the pool but not yet held.
      have cowTaken : 0 < (middle.blocks cowBlock).refCnt := by
        rw [taken.refCnt, (idle cowBlock List.mem_cons_self).2.2, List.count_cons_self]
        omega
      have middleBacked : Backed middle
          ((manager.alignPrepared requestId numSpeculative).setBlocks requestId table) := by
        intro block nonNull
        rw [alignTable_refs aligned nonNull, taken.refCnt]
        have := backed block nonNull
        omega
      rcases privatizePartialHit_balance taken.consistent middleBacked cowTaken ran with
        ⟨config, settings, after, balance⟩
      refine ⟨taken.toSameConfig.trans config, ?_, after, fun block nonNull => ?_⟩
      · exact (alignFinished_settings _ _ _).trans (settings.trans prepared.settings)
      · have balanced := balance block
        rw [alignTable_refs aligned nonNull, taken.refCnt, List.count_cons] at balanced
        rw [alignFinished_refs]
        simp only [List.count_cons, List.count_nil] at balanced
        omega

theorem allocateNewBlocks_moved (consistent : Consistent pool) (backed : Backed pool manager)
    (allocated : allocateNewBlocks pool manager requestId numTokens numTokensMainModel =
      .ok (newBlocks, pool', manager')) : Moved pool manager pool' manager' := by
  unfold allocateNewBlocks at allocated
  split at allocated
  · exact claimRingBlock_moved consistent allocated
  · split at allocated
    · exact alignAllocateNewBlocks_moved consistent backed allocated
    · exact baseAllocateNewBlocks_moved consistent allocated
  · exact baseAllocateNewBlocks_moved consistent allocated

/-! ## Caching and predicting -/

theorem baseCacheBlocks_same
    (cached : baseCacheBlocks pool manager request numTokens retentionInterval =
      .ok (pool', manager')) : SameRefs pool pool' ∧ SameTables manager manager' := by
  unfold baseCacheBlocks at cached
  dsimp only at cached
  split at cached
  · cases cached
    exact ⟨.refl pool, .refl manager⟩
  · obtain ⟨blockMask, _, cached⟩ := bind_eq_ok.mp cached
    obtain ⟨after, stored, cached⟩ := bind_eq_ok.mp cached
    cases cached
    constructor
    · exact cacheFullBlocks_sameRefs stored
    · exact (manager.ensureBlocks_sameTables request.requestId).trans (.of_eq rfl rfl rfl)

theorem cachePartialTailBlock_same
    (cached : cachePartialTailBlock pool manager request numTokens = .ok (pool', manager')) :
    SameRefs pool pool' ∧ SameTables manager manager' := by
  unfold cachePartialTailBlock at cached
  dsimp only at cached
  split at cached
  · cases cached
    exact ⟨.refl pool, .refl manager⟩
  · split at cached
    · cases cached
      exact ⟨.refl pool, manager.ensureBlocks_sameTables request.requestId⟩
    · obtain ⟨⟨key, after⟩, stored, cached⟩ := bind_eq_ok.mp cached
      cases cached
      exact ⟨cachePartialBlock_sameRefs stored, manager.ensureBlocks_sameTables request.requestId⟩

theorem cacheMambaTailBlock_same {partialHash : Option (BlockHashWithGroupId H)}
    (cached : cacheMambaTailBlock pool manager request numTokens =
      .ok (partialHash, pool', manager')) : SameRefs pool pool' ∧ SameTables manager manager' := by
  have ensured := manager.ensureBlocks_sameTables request.requestId
  unfold cacheMambaTailBlock at cached
  dsimp only at cached
  split at cached
  · cases cached
    exact ⟨.refl pool, .refl manager⟩
  · split at cached
    · cases cached
      exact ⟨.refl pool, ensured⟩
    · split at cached
      · cases cached
        exact ⟨.refl pool, ensured⟩
      · obtain ⟨⟨key, after⟩, stored, cached⟩ := bind_eq_ok.mp cached
        have same := cachePartialBlock_sameRefs stored
        split at cached
        · cases cached
          exact ⟨same, ensured.trans (.of_eq rfl rfl rfl)⟩
        · cases cached
          exact ⟨same, ensured⟩

omit [DecidableEq H] [BlockHashing H] in
theorem noteCachedStates_sameTables {indices : List Nat}
    (noted : noteCachedStates pool requestId align indices manager = .ok manager') :
    SameTables manager manager' := by
  induction indices generalizing manager with
  | nil =>
      cases noted
      exact .refl _
  | cons idx rest ih =>
      obtain ⟨block, _, noted⟩ := bind_eq_ok.mp noted
      split at noted
      · exact ih noted
      · split at noted
        · exact ih noted
        · exact SameTables.after (ih noted) rfl rfl rfl

theorem mambaCacheBlocks_same
    (cached : mambaCacheBlocks pool manager request numTokens align retentionInterval =
      .ok (pool', manager')) : SameRefs pool pool' ∧ SameTables manager manager' := by
  obtain ⟨⟨pool1, manager1⟩, base, cached⟩ := bind_eq_ok.mp cached
  obtain ⟨⟨key, pool2, manager2⟩, tail, cached⟩ := bind_eq_ok.mp cached
  obtain ⟨manager3, noted, cached⟩ := bind_eq_ok.mp cached
  cases cached
  rcases baseCacheBlocks_same base with ⟨pools, tables⟩
  have second : SameRefs pool1 pool' ∧ SameTables manager1 manager2 := by
    cases align with
    | true => exact cacheMambaTailBlock_same tail
    | false =>
        cases tail
        exact ⟨.refl _, .refl _⟩
  have third := noteCachedStates_sameTables noted
  exact ⟨pools.trans second.1, (tables.trans second.2).trans (third.after rfl rfl rfl)⟩

/-- What the parts of `cache_blocks` keep, the whole keeps. -/
theorem cacheBlocks_rule {motive : BlockPool H → SingleTypeKVCacheManager H → Prop}
    (nothing : motive pool manager)
    (base : ∀ after last, baseCacheBlocks pool manager request numTokens retentionInterval =
      .ok (after, last) → motive after last)
    (tail : ∀ middle noted after last, motive middle noted →
      cachePartialTailBlock middle noted request numTokens = .ok (after, last) → motive after last)
    (mamba : manager.kvCacheSpec.isMamba = true → ∀ align after last,
      mambaCacheBlocks pool manager request numTokens align retentionInterval = .ok (after, last) →
      motive after last)
    (cached : cacheBlocks pool manager request numTokens retentionInterval =
      .ok (pool', manager')) : motive pool' manager' := by
  -- Full attention and R-SWA share one body, with the tail cached after the rest.
  have dense : (baseCacheBlocks pool manager request numTokens retentionInterval >>= fun cached =>
        if cached.2.blockSize = cached.1.hashBlockSize then pure cached
        else cachePartialTailBlock cached.1 cached.2 request numTokens) = .ok (pool', manager') →
      motive pool' manager' := by
    intro cached
    rcases bind_eq_ok.mp cached with ⟨⟨middle, noted⟩, first, cached⟩
    dsimp only at cached
    split at cached
    · cases cached
      exact base _ _ first
    · exact tail _ _ _ _ (base _ _ first) cached
  unfold cacheBlocks at cached
  split at cached
  · exact dense cached
  · exact dense cached
  · cases cached
    exact nothing
  · rename_i kind
    exact mamba (by rw [KVCacheSpec.isMamba, kind]) _ _ _ cached
  · contradiction
  · exact base _ _ cached

theorem cacheBlocks_same (cached : cacheBlocks pool manager request numTokens retentionInterval =
      .ok (pool', manager')) : SameRefs pool pool' ∧ SameTables manager manager' := by
  apply cacheBlocks_rule ⟨.refl pool, .refl manager⟩ _ _ _ cached
  · exact fun _ _ => baseCacheBlocks_same
  · intro middle noted after last same tail
    rcases cachePartialTailBlock_same tail with ⟨pools, tables⟩
    exact ⟨same.1.trans pools, same.2.trans tables⟩
  · exact fun _ _ _ _ => mambaCacheBlocks_same

omit [BlockHashing H] in
/-- Predicting an allocation changes no table. -/
theorem getNumBlocksToAllocate_sameTables {totalComputed : Nat} {applyAdmissionCap : Bool}
    {count : Int}
    (predicted : getNumBlocksToAllocate pool manager requestId numTokens newComputedBlocks
      totalComputed numLocal numTokensMainModel applyAdmissionCap = .ok (count, manager')) :
    SameTables manager manager' := by
  have base : ∀ {numTokens : Nat},
      (baseNumBlocksToAllocate pool manager requestId numTokens newComputedBlocks totalComputed
        numLocal applyAdmissionCap).map (fun (count : Nat) => ((count : Int), manager)) =
          .ok (count, manager') → SameTables manager manager' := by
    intro numTokens predicted
    cases result : baseNumBlocksToAllocate pool manager requestId numTokens newComputedBlocks
        totalComputed numLocal applyAdmissionCap with
    | error failure => simp [result, Except.map] at predicted
    | ok value =>
        rw [result] at predicted
        cases predicted
        exact .refl _
  unfold getNumBlocksToAllocate at predicted
  dsimp only at predicted
  split at predicted
  · cases predicted
    exact .refl manager
  · split at predicted
    · cases predicted
      exact .refl manager
    · split at predicted
      · cases predicted
        have ensured := manager.ensureBlocks_sameTables requestId
        cases applyAdmissionCap with
        | true => exact ensured
        | false => exact ensured.trans (.of_eq rfl rfl rfl)
      · exact base predicted
  · exact base predicted

end Allocation

/-! ## Releasing blocks -/

/-- Popping a request takes its occurrences out of the manager. -/
theorem popBlocksForFree_refs (manager : SingleTypeKVCacheManager H) (requestId : RequestId)
    (block : BlockId) :
    (manager.popBlocksForFree requestId).2.refs block +
        (manager.popBlocksForFree requestId).1.count block = manager.refs block := by
  have erased := manager.reqToBlocks.sumOn_erase (fun _ blocks => blocks.count block) requestId
  have listed : (manager.blocksOf requestId).count block =
      ((manager.reqToBlocks.get? requestId).map fun blocks => blocks.count block).getD 0 := by
    unfold blocksOf Dict.getD
    cases manager.reqToBlocks.get? requestId <;> simp
  -- Only the table goes: the copies stay pinned whatever the class erases besides.
  have popped : (manager.popBlocksForFree requestId).1 = manager.blocksOf requestId ∧
      (manager.popBlocksForFree requestId).2.reqToBlocks =
        manager.reqToBlocks.erase requestId ∧
      (manager.popBlocksForFree requestId).2.pendingCowCopies = manager.pendingCowCopies := by
    unfold popBlocksForFree
    split <;> exact ⟨rfl, rfl, rfl⟩
  unfold refs occurrences
  rw [popped.1, popped.2.1, popped.2.2, listed]
  omega

theorem popBlocksForFree_settings (manager : SingleTypeKVCacheManager H) (requestId : RequestId) :
    (manager.popBlocksForFree requestId).2.settings = manager.settings := by
  unfold popBlocksForFree
  split <;> rfl

theorem free_moved (consistent : Consistent pool) (backed : Backed pool manager)
    (freed : free pool manager requestId = .ok (pool', manager')) :
    Moved pool manager pool' manager' := by
  obtain ⟨after, released, freed⟩ := bind_eq_ok.mp freed
  cases freed
  refine moved_of_freed consistent backed (popBlocksForFree_settings manager requestId) ?_ released
  intro block _
  rw [List.count_reverse]
  exact popBlocksForFree_refs manager requestId block

/-- Nulled entries and the remaining table make up the old table. -/
theorem nullRange_count (first count : Nat) (blocks : List BlockId) {block : BlockId}
    (nonNull : block ≠ nullBlock) :
    (nullRange first count blocks).2.count block + (nullRange first count blocks).1.count block =
      blocks.count block := by
  induction count generalizing blocks with
  | zero => rfl
  | succ count ih =>
      unfold nullRange
      cases located : blocks[first + count]? with
      | none => rfl
      | some removed =>
          dsimp only
          split
          · rfl
          · have replaced := count_set_add nullBlock located block
            have notNull : [nullBlock].count block = 0 := by
              simpa [List.count_singleton] using nonNull.symm
            have step := ih (blocks.set (first + count) nullBlock)
            simp only [List.count_cons, List.count_nil] at replaced ⊢
            simp only [List.count_cons, List.count_nil] at notNull
            omega

end Vllm.Core.SingleTypeKVCacheManager
