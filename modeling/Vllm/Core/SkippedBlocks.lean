import Vllm.Core.ManagerFrames
import Vllm.Core.WindowExtents
import Vllm.Library.Transition

/-!
# Releasing skipped blocks

The backward loop of `remove_skipped_blocks` stops at the first null block.  In the table of a
window or of a local chunk the null blocks are the first entries in every run, so that the loop
misses nothing and comes back to nothing.
-/

namespace Vllm.Core

open Vllm.Library BlockPool SingleTypeKVCacheManager

/-! ## Tables that start with null blocks -/

/-- The null blocks of a table are its first `count` entries. -/
def NullsFirst (count : Nat) (table : List BlockId) : Prop :=
  ∃ rest, table = List.replicate count nullBlock ++ rest ∧ nullBlock ∉ rest

/-- The null blocks of a table form a prefix. -/
def NullPrefix (table : List BlockId) : Prop :=
  ∃ count, NullsFirst count table

theorem NullPrefix.nil : NullPrefix [] :=
  ⟨0, [], rfl, List.not_mem_nil⟩

theorem NullPrefix.take {table : List BlockId} (nulls : NullPrefix table) (size : Nat) :
    NullPrefix (table.take size) := by
  rcases nulls with ⟨count, rest, rfl, nonNull⟩
  refine ⟨min size count, rest.take (size - count), ?_, ?_⟩
  · rw [List.take_append, List.take_replicate, List.length_replicate]
  · exact fun null => nonNull (List.mem_of_mem_take null)

theorem NullPrefix.drop {table : List BlockId} (nulls : NullPrefix table) (size : Nat) :
    NullPrefix (table.drop size) := by
  rcases nulls with ⟨count, rest, rfl, nonNull⟩
  refine ⟨count - size, rest.drop (size - count), ?_, ?_⟩
  · rw [List.drop_append, List.drop_replicate, List.length_replicate]
  · exact fun null => nonNull (List.mem_of_mem_drop null)

theorem NullPrefix.pad {table : List BlockId} (nulls : NullPrefix table) (size : Nat) :
    NullPrefix (List.replicate size nullBlock ++ table) := by
  rcases nulls with ⟨count, rest, rfl, nonNull⟩
  exact ⟨size + count, rest, by rw [← List.append_assoc, List.replicate_append_replicate], nonNull⟩

theorem NullsFirst.append {count : Nat} {table newBlocks : List BlockId}
    (nulls : NullsFirst count table) (nonNull : nullBlock ∉ newBlocks) :
    NullsFirst count (table ++ newBlocks) := by
  rcases nulls with ⟨rest, rfl, kept⟩
  refine ⟨rest ++ newBlocks, List.append_assoc .., ?_⟩
  rw [List.mem_append]
  exact not_or.mpr ⟨kept, nonNull⟩

/-- A block that is not null is replaced by one that is not null. -/
theorem NullsFirst.set {count index : Nat} {table : List BlockId} {source block : BlockId}
    (nulls : NullsFirst count table) (located : table[index]? = some source)
    (used : source ≠ nullBlock) (nonNull : block ≠ nullBlock) :
    NullsFirst count (table.set index block) := by
  rcases nulls with ⟨rest, rfl, kept⟩
  have behind : count ≤ index := by
    by_contra before
    rw [List.getElem?_append_left (by simpa using before),
      List.getElem?_replicate_of_lt (by omega)] at located
    exact used (Option.some.inj located).symm
  refine ⟨rest.set (index - count) block, ?_, ?_⟩
  · rw [List.set_append_right _ _ (by simpa using behind), List.length_replicate]
  · intro null
    rcases List.mem_or_eq_of_mem_set null with old | new
    · exact kept old
    · exact nonNull new.symm

theorem NullsFirst.getElem?_eq_null_iff {count index : Nat} {table : List BlockId}
    (nulls : NullsFirst count table) : table[index]? = some nullBlock ↔ index < count := by
  rcases nulls with ⟨rest, rfl, kept⟩
  by_cases before : index < count
  · rw [List.getElem?_append_left (by simpa using before), List.getElem?_replicate_of_lt before]
    simp [before]
  · rw [List.getElem?_append_right (by simpa using before)]
    apply iff_of_false _ before
    exact fun null => kept (List.mem_of_getElem? null)

/-- Entries are nulled up to `size`. -/
theorem NullsFirst.extend {count size : Nat} {table : List BlockId} (nulls : NullsFirst count table)
    (within : size ≤ table.length) :
    NullsFirst (max count size) (List.replicate size nullBlock ++ table.drop size) := by
  rcases nulls with ⟨rest, rfl, kept⟩
  refine ⟨rest.drop (size - count), ?_, fun null => kept (List.mem_of_mem_drop null)⟩
  rw [List.drop_append, List.drop_replicate, List.length_replicate, ← List.append_assoc,
    List.replicate_append_replicate]
  congr 2
  omega

/-! ## Tables of cache hits -/

section Hits

variable {H : Type} [DecidableEq H] {pool : BlockPool H} {blockHashes : List H}
  {groupIds : List Nat} {maxLength blockSize length : Nat} {rows : List HitRow}

theorem length_of_getCachedBlock {blockHash : H} {row : HitRow}
    (cached : pool.getCachedBlock blockHash groupIds = some row) :
    row.length = groupIds.length := by
  induction groupIds generalizing row with
  | nil =>
      cases cached
      rfl
  | cons groupId rest inductionHypothesis =>
      rw [getCachedBlock] at cached
      split at cached
      · cases cached
      · rcases Option.map_eq_some_iff.mp cached with ⟨others, cachedRest, rfl⟩
        rw [List.length_cons, inductionHypothesis cachedRest, List.length_cons]

/-- Unread blocks, then cached ones: each group gets null blocks first. -/
theorem hitColumns_nullPrefix {first : Nat} {run : List HitRow} {column : List BlockId}
    (unkeyed : ∀ key, pool.cachedBlockHashToBlock.contain key nullBlock = false)
    (cached : ∀ row ∈ run, ∃ blockHash, pool.getCachedBlock blockHash groupIds = some row)
    (member : column ∈ hitColumns groupIds.length
      (List.replicate first (List.replicate groupIds.length nullBlock) ++ run)) (size : Nat) :
    NullPrefix (column.take size) := by
  apply NullPrefix.take
  rcases List.mem_map.mp member with ⟨group, inside, rfl⟩
  rw [List.mem_range] at inside
  refine ⟨first, run.map fun row => row.getD group nullBlock, ?_, ?_⟩
  · rw [List.map_append, List.map_replicate]
    congr 2
    simp [List.getD_eq_getElem?_getD, inside]
  · intro null
    rcases List.mem_map.mp null with ⟨row, rowMember, isNull⟩
    rcases cached row rowMember with ⟨blockHash, found⟩
    have bound : group < row.length := by rwa [length_of_getCachedBlock found]
    rw [List.getD_eq_getElem?_getD, List.getElem?_eq_getElem bound, Option.getD_some] at isNull
    rcases keyed_of_getCachedBlock found (isNull ▸ List.getElem_mem bound) with ⟨key, keyed⟩
    rw [unkeyed key] at keyed
    cases keyed

/-- The hits of a sliding window, cut to the length that all groups share. -/
theorem findLongestSlidingWindowHit_nullPrefix {slidingWindow alignmentTokens : Nat}
    {dropEagleBlock : Bool} {column : List BlockId} (hash_pos : 0 < pool.hashBlockSize)
    (block_pos : 0 < blockSize)
    (unkeyed : ∀ key, pool.cachedBlockHashToBlock.contain key nullBlock = false)
    (ran : findLongestSlidingWindowHit pool blockHashes maxLength groupIds blockSize slidingWindow
      dropEagleBlock alignmentTokens = .ok (rows, length))
    (member : column ∈ hitColumns groupIds.length rows) (size : Nat) :
    NullPrefix (column.take size) := by
  rcases findLongestSlidingWindowHit_view hash_pos block_pos ran with
    ⟨whole, _, view, resolved, shown⟩
  rcases @findLongestSlidingWindowHit_of_view _ _ _ _ _ groupIds _ _ slidingWindow _ block_pos whole
    resolved shown dropEagleBlock with ⟨found, again, hit⟩
  rw [again] at ran
  cases ran
  rcases hit.run with ⟨first, run, rfl, cached, _⟩
  apply hitColumns_nullPrefix unkeyed _ member size
  intro row rowMember
  rcases List.getElem?_of_mem rowMember with ⟨index, located⟩
  rcases cached index row located with ⟨blockHash, _, found⟩
  exact ⟨blockHash, found⟩

theorem findLongestSlidingWindowHit_nullPrefix_last : NullPrefix [0, 0, 0, 5] := by
  have ran : findLongestSlidingWindowHit (cachingPool 2 [3, 4]) [1, 2, 3, 4] 9 [0] 2 3 false 4 =
      .ok ([[0], [0], [0], [5]], 8) := by rfl
  exact findLongestSlidingWindowHit_nullPrefix (by decide) (by decide)
    (cachingPool_unkeyed 2 [3, 4]) ran (show [0, 0, 0, 5] ∈ _ by decide) 4

/-- The hits of local chunks, cut to the length that all groups share. -/
theorem findLongestChunkedLocalHit_nullPrefix {attentionChunkSize alignmentTokens : Nat}
    {dropEagleBlock : Bool} {column : List BlockId}
    (unkeyed : ∀ key, pool.cachedBlockHashToBlock.contain key nullBlock = false)
    (ran : findLongestChunkedLocalHit pool blockHashes maxLength groupIds blockSize
      attentionChunkSize dropEagleBlock alignmentTokens = .ok (rows, length))
    (member : column ∈ hitColumns groupIds.length rows) (size : Nat) :
    NullPrefix (column.take size) := by
  have unpacked := ran
  rcases bind_eq_ok.mp unpacked with ⟨_, kept, unpacked⟩
  rcases bind_eq_ok.mp unpacked with ⟨_, same, unpacked⟩
  rcases bind_eq_ok.mp unpacked with ⟨view, resolved, _⟩
  have kept := pyAssert_eq_ok.mp kept
  have same := pyAssert_eq_ok.mp same
  subst kept same
  rw [findLongestChunkedLocalHit_eq resolved] at ran
  rcases map_eq_ok.mp ran with ⟨run, runEq, pair⟩
  cases pair
  apply hitColumns_nullPrefix unkeyed _ member size
  intro row rowMember
  rcases List.getElem?_of_mem rowMember with ⟨index, located⟩
  rcases (cachedRun_spec runEq).2.1 index row located with ⟨blockHash, _, found⟩
  exact ⟨blockHash, found⟩

theorem findLongestChunkedLocalHit_nullPrefix_whole : NullPrefix [0, 0, 4] := by
  have ran : findLongestChunkedLocalHit (cachingPool 4 [3]) [1, 2, 3] 15 [0] 4 8 false 4 =
      .ok ([[0], [0], [4]], 12) := by rfl
  exact findLongestChunkedLocalHit_nullPrefix (cachingPool_unkeyed 4 [3]) ran
    (show [0, 0, 4] ∈ _ by decide) 3

end Hits

/-! ## One release -/

/-- The backward loop nulls the first `size` entries and frees those that were not null. -/
theorem nullRange_eq {count size : Nat} {table : List BlockId}
    (nulls : ∀ index < size, table[index]? = some nullBlock ↔ index < count)
    (within : size ≤ table.length) :
    nullRange 0 size table =
      (((table.take size).drop count).reverse,
        List.replicate size nullBlock ++ table.drop size) := by
  induction size generalizing table with
  | zero => simp [nullRange]
  | succ size inductionHypothesis =>
      have located : table[size]? = some table[size] := List.getElem?_eq_getElem (by omega)
      rw [nullRange, Nat.zero_add, located]
      dsimp only
      split
      · rename_i null
        have before : size < count := by
          rw [← nulls size (Nat.lt_succ_self size), located, null]
        have start : table.take (size + 1) = List.replicate (size + 1) nullBlock := by
          apply List.ext_getElem?
          intro index
          rcases Nat.lt_or_ge index (size + 1) with less | beyond
          · rw [List.getElem?_take_of_lt less, List.getElem?_replicate_of_lt less, nulls index less]
            omega
          · rw [List.getElem?_eq_none (by simp; omega), List.getElem?_eq_none (by simpa using beyond)]
        rw [← start, List.take_append_drop, start, List.drop_replicate,
          Nat.sub_eq_zero_of_le before]
        rfl
      · rename_i used
        have behind : count ≤ size := by
          by_contra before
          rw [Nat.not_le, ← nulls size (Nat.lt_succ_self size), located] at before
          exact used (Option.some.inj before)
        rw [inductionHypothesis]
        · have nulled : (table.set size nullBlock).drop size =
              nullBlock :: table.drop (size + 1) := by
            rw [List.drop_eq_getElem_cons (by rw [List.length_set]; omega), List.getElem_set_self,
              List.drop_set_of_lt (Nat.lt_succ_self size)]
          rw [List.take_set_of_le (Nat.le_refl size), List.take_succ_eq_append_getElem (by omega),
            List.drop_append_of_le_length (by rw [List.length_take]; omega), List.reverse_concat,
            nulled, List.replicate_succ', List.append_assoc]
          rfl
        · intro index less
          rw [List.getElem?_set_ne (by omega)]
          exact nulls index (by omega)
        · rw [List.length_set]
          omega

/-- The entries of a table that were replaced by null blocks, with their indices. -/
def releasedEntries (before after : List BlockId) : List (BlockId × Nat) :=
  before.zipIdx.filter fun entry => entry.1 ≠ nullBlock ∧ after[entry.2]? = some nullBlock

theorem mem_releasedEntries {before after : List BlockId} {block : BlockId} {index : Nat} :
    (block, index) ∈ releasedEntries before after ↔
      before[index]? = some block ∧ block ≠ nullBlock ∧ after[index]? = some nullBlock := by
  simp [releasedEntries, List.mem_filter, List.mem_zipIdx_iff_getElem?]

theorem nodup_releasedEntries (before after : List BlockId) :
    ((releasedEntries before after).map Prod.snd).Nodup := by
  have whole : (before.zipIdx.map Prod.snd).Nodup := by
    rw [List.zipIdx_map_snd]
    exact List.nodup_range'
  exact whole.sublist (List.filter_sublist.map Prod.snd)

theorem filter_zipIdx_between (first last start : Nat) (blocks : List BlockId) :
    ((blocks.zipIdx start).filter fun entry => first ≤ entry.2 ∧ entry.2 < last).map Prod.fst =
      (blocks.take (last - start)).drop (first - start) := by
  induction blocks generalizing start with
  | nil => simp
  | cons block rest inductionHypothesis =>
      rw [List.zipIdx_cons, List.filter_cons]
      rcases Nat.lt_or_ge start last with less | beyond
      · have size : last - start = last - (start + 1) + 1 := by omega
        rw [size, List.take_succ_cons]
        by_cases inside : first ≤ start
        · have none : first - start = 0 := by omega
          have later : first - (start + 1) = 0 := by omega
          rw [if_pos (decide_eq_true ⟨inside, less⟩), List.map_cons, inductionHypothesis, none, later]
          rfl
        · have more : first - start = first - (start + 1) + 1 := by omega
          rw [if_neg (by simp [inside]), inductionHypothesis, more, List.drop_succ_cons]
      · have none : last - start = 0 := by omega
        have later : last - (start + 1) = 0 := by omega
        rw [if_neg (by simp [Nat.not_lt.mpr beyond]), inductionHypothesis, none, later]
        simp

/-- The freed blocks are the released entries. -/
theorem releasedEntries_nulled {count size : Nat} {table : List BlockId}
    (nulls : NullsFirst count table) :
    (releasedEntries table (List.replicate size nullBlock ++ table.drop size)).map Prod.fst =
      (table.take size).drop count := by
  have between := filter_zipIdx_between count size 0 table
  rw [Nat.sub_zero, Nat.sub_zero] at between
  rw [← between, releasedEntries]
  congr 1
  apply List.filter_congr
  rintro ⟨block, index⟩ member
  have located := List.mem_zipIdx_iff_getElem?.mp member
  have null_iff := @NullsFirst.getElem?_eq_null_iff _ index _ nulls
  rw [located, Option.some.injEq] at null_iff
  rw [decide_eq_decide]
  rcases Nat.lt_or_ge index size with less | beyond
  · rw [List.getElem?_append_left (by simpa using less), List.getElem?_replicate_of_lt less]
    simp only [null_iff, ne_eq, Nat.not_lt, less, and_true]
  · rw [List.getElem?_append_right (by simpa using beyond), List.length_replicate,
      List.getElem?_drop, Nat.add_sub_cancel' beyond, located]
    simp only [Option.some.injEq]
    constructor
    · rintro ⟨used, null⟩
      exact absurd null used
    · rintro ⟨_, less⟩
      omega

section Calls

variable {H : Type} {pool pool' : BlockPool H} {manager manager' : SingleTypeKVCacheManager H}
  {requestId : RequestId}

/-- What one release does to the table and to the pool. -/
theorem baseRemoveSkippedBlocks_eq {processed count size : Nat} {table : List BlockId}
    (table_eq : manager.blocksOf requestId = table)
    (size_eq : size = min (manager.getNumSkippedBlocks processed) table.length)
    (nulls : NullsFirst count table)
    (removed : baseRemoveSkippedBlocks pool manager requestId processed = .ok (pool', manager')) :
    manager'.settings = manager.settings ∧
      manager'.blocksOf requestId = List.replicate size nullBlock ++ table.drop size ∧
      (((table.take size).drop count = [] ∧ pool' = pool) ∨
        pool.freeBlocks ((table.take size).drop count).reverse = .ok pool') := by
  have within : size ≤ table.length := by omega
  have unchanged (none : (table.take size).drop count = []) :
      List.replicate size nullBlock ++ table.drop size = table := by
    rcases nulls with ⟨rest, rfl, kept⟩
    have before : size ≤ count := by
      have length_eq := congrArg List.length none
      simp only [List.length_drop, List.length_take, List.length_nil] at length_eq
      omega
    rw [List.drop_append_of_le_length (by simpa using before), List.drop_replicate,
      ← List.append_assoc, List.replicate_append_replicate, Nat.add_sub_cancel' before]
  unfold baseRemoveSkippedBlocks at removed
  split at removed
  · rename_i none
    cases removed
    have zero : size = 0 := by
      rw [size_eq, getNumSkippedBlocks, none, Nat.zero_div, Nat.zero_min]
    subst zero
    refine ⟨rfl, ?_, .inl ⟨by simp, rfl⟩⟩
    simpa using table_eq
  · have same : (manager.ensureBlocks requestId).blocksOf requestId = table :=
      ((manager.ensureBlocks_sameTables requestId).blocksOf requestId).trans table_eq
    have stored : (manager.ensureBlocks requestId).reqToBlocks.get? requestId = some table := by
      rw [← table_eq]
      exact Dict.get?_insert_self ..
    have range : min (min ((manager.ensureBlocks requestId).getNumSkippedBlocks processed)
        table.length) table.length - 0 = size := by
      rw [size_eq]
      exact Nat.min_eq_left (Nat.min_le_right ..)
    unfold removeBlocksInRange at removed
    dsimp only at removed
    rw [same, stored] at removed
    dsimp only at removed
    rw [range, nullRange_eq (fun index _ => nulls.getElem?_eq_null_iff) within] at removed
    split at removed
    · rename_i none
      cases removed
      rw [List.reverse_eq_nil_iff] at none
      exact ⟨rfl, same.trans (unchanged none).symm, .inl ⟨none, rfl⟩⟩
    · rcases bind_eq_ok.mp removed with ⟨after, freed, removed⟩
      cases removed
      exact ⟨rfl, blocksOf_setBlocks_self .., .inr freed⟩

/-! ## Calls that only add blocks -/

/-- The call leaves the null blocks of the table where they are. -/
structure KeepsNulls (requestId : RequestId) (manager manager' : SingleTypeKVCacheManager H) :
    Prop where
  settings : manager'.settings = manager.settings
  nulls : ∀ count, NullsFirst count (manager.blocksOf requestId) →
    NullsFirst count (manager'.blocksOf requestId)

theorem KeepsNulls.refl (requestId : RequestId) (manager : SingleTypeKVCacheManager H) :
    KeepsNulls requestId manager manager :=
  ⟨rfl, fun _ nulls => nulls⟩

theorem KeepsNulls.trans {middle : SingleTypeKVCacheManager H}
    (first : KeepsNulls requestId manager middle) (second : KeepsNulls requestId middle manager') :
    KeepsNulls requestId manager manager' :=
  ⟨second.settings.trans first.settings, fun count nulls =>
    second.nulls count (first.nulls count nulls)⟩

theorem KeepsNulls.of_sameTables (same : SameTables manager manager') :
    KeepsNulls requestId manager manager' := by
  constructor
  · exact same.settings
  · intro count nulls
    rwa [same.blocksOf]

variable [DecidableEq H] [BlockHashing H]

theorem extendBlocks_keepsNulls {count : Nat} {newBlocks : List BlockId}
    (consistent : Consistent pool)
    (extended : extendBlocks pool manager requestId count = .ok (newBlocks, pool', manager')) :
    KeepsNulls requestId manager manager' := by
  rcases extendBlocks_eq_ok extended with ⟨got, rfl⟩
  rcases consistent.getNewBlocks got with ⟨_, _, _, idle⟩
  have recorded := recordBlocks_sameTables
    (manager.setBlocks requestId (manager.blocksOf requestId ++ newBlocks)) newBlocks
  constructor
  · exact recorded.settings
  · intro size nulls
    rw [recorded.blocksOf, blocksOf_setBlocks_self]
    exact nulls.append fun null => (idle nullBlock null).1 rfl

theorem redirectPartialHit_keepsNulls {cowBlocks : List BlockId} (consistent : Consistent pool)
    (redirected : redirectPartialHit pool manager requestId = .ok (cowBlocks, pool', manager')) :
    KeepsNulls requestId manager manager' := by
  rcases redirectPartialHit_cases consistent redirected with
    ⟨_, _, rfl, rfl⟩ | ⟨blockIdx, sourceBlock, cowBlock, middle, applied, _, got, ran, _, rfl⟩
  · exact .refl requestId manager'
  · rcases consistent.getNewBlocks got with ⟨_, _, _, idle⟩
    rcases applyCow_eq_ok ran with ⟨located, used, _, _, rfl⟩
    constructor
    · rfl
    · intro count nulls
      have copied := nulls.set located used (idle cowBlock (List.mem_singleton_self _)).1
      have table := blocksOf_setBlocks_self manager requestId
        ((manager.blocksOf requestId).set blockIdx cowBlock)
      rw [← table] at copied
      exact copied

theorem baseAllocateNewBlocks_keepsNulls {numTokens : Nat} {newBlocks : List BlockId}
    (consistent : Consistent pool)
    (allocated : baseAllocateNewBlocks pool manager requestId numTokens =
      .ok (newBlocks, pool', manager')) : KeepsNulls requestId manager manager' := by
  rcases baseAllocateNewBlocks_cases allocated with ⟨cowBlocks, middle, redirected, ran, rest⟩
  have first := redirectPartialHit_keepsNulls consistent ran
  have ensured : KeepsNulls requestId redirected (redirected.ensureBlocks requestId) :=
    .of_sameTables (redirected.ensureBlocks_sameTables requestId)
  rcases rest with ⟨_, _, _, rfl⟩ | ⟨taken, extended, _⟩
  · exact first.trans ensured
  · exact (first.trans ensured).trans
      (extendBlocks_keepsNulls (redirectPartialHit_moved consistent ran).consistent extended)

theorem allocateExternalHits_keepsNulls {numLocal numExternal : Nat} (consistent : Consistent pool)
    (allocated : allocateExternalHits pool manager requestId numLocal numExternal =
      .ok (pool', manager')) : KeepsNulls requestId manager manager' := by
  unfold allocateExternalHits at allocated
  split at allocated
  · cases allocated
    exact .refl requestId manager
  · rcases bind_eq_ok.mp allocated with ⟨⟨newBlocks, after, extended⟩, ran, done⟩
    cases done
    exact extendBlocks_keepsNulls consistent ran

end Calls

/-! ## Runs for one request -/

/-- The classes whose tables are released from the front. -/
def SpecKind.releasesFront : SpecKind → Bool
  | .slidingWindow .. | .chunkedLocalAttention _ => true
  | _ => false

section Front

variable {H : Type} {manager : SingleTypeKVCacheManager H} {requestId : RequestId}
  (front : manager.kvCacheSpec.kind.releasesFront = true) (pool : BlockPool H)

include front

theorem removeSkippedBlocks_of_front (processed : Nat) (numPromptTokens : Option Nat) :
    removeSkippedBlocks pool manager requestId processed numPromptTokens =
      baseRemoveSkippedBlocks pool manager requestId processed := by
  unfold removeSkippedBlocks
  cases kindEq : manager.kvCacheSpec.kind <;> rw [kindEq] at front <;> first | rfl | cases front

theorem addLocalComputedBlocks_of_front (newComputedBlocks : List BlockId)
    (numLocal numExternal : Nat) :
    addLocalComputedBlocks pool manager requestId newComputedBlocks numLocal numExternal =
      addLocalHits pool manager requestId newComputedBlocks numLocal numExternal := by
  unfold addLocalComputedBlocks
  cases kindEq : manager.kvCacheSpec.kind <;> rw [kindEq] at front <;> first | rfl | cases front

variable [DecidableEq H] [BlockHashing H]

theorem allocateExternalComputedBlocks_of_front (numLocal numExternal : Nat) :
    allocateExternalComputedBlocks pool manager requestId numLocal numExternal =
      allocateExternalHits pool manager requestId numLocal numExternal := by
  unfold allocateExternalComputedBlocks
  cases kindEq : manager.kvCacheSpec.kind <;> rw [kindEq] at front <;> first | rfl | cases front

theorem allocateNewBlocks_of_front (numTokens numTokensMainModel : Nat) :
    allocateNewBlocks pool manager requestId numTokens numTokensMainModel =
      baseAllocateNewBlocks pool manager requestId numTokens := by
  unfold allocateNewBlocks
  cases kindEq : manager.kvCacheSpec.kind <;> rw [kindEq] at front <;> first | rfl | cases front

end Front

/-- A request at its manager: the largest processed count so far, and every entry of its table that
was released. -/
structure TableSession (H : Type) where
  pool : BlockPool H
  manager : SingleTypeKVCacheManager H
  processed : Nat
  released : List (BlockId × Nat)

namespace TableSession

variable {H : Type}

/-- What holds throughout a run. -/
structure Inv (requestId : RequestId) (session : TableSession H) : Prop where
  kind : session.manager.kvCacheSpec.kind.releasesFront = true
  nulls : ∃ count, NullsFirst count (session.manager.blocksOf requestId) ∧
    ∀ entry ∈ session.released, entry.2 < count
  behind : ∀ entry ∈ session.released, (entry.2 + 1) * session.manager.blockSize ≤
    session.manager.getNumSkippedTokens session.processed
  distinct : (session.released.map Prod.snd).Nodup

theorem getNumSkippedTokens_mono {manager : SingleTypeKVCacheManager H} {first second : Nat}
    (le : first ≤ second) :
    manager.getNumSkippedTokens first ≤ manager.getNumSkippedTokens second := by
  unfold getNumSkippedTokens
  split
  · omega
  · exact Nat.mul_le_mul_right _ (Nat.div_le_div_right le)
  · omega
  · exact Nat.le_refl 0

theorem getNumSkippedTokens_of_settings {manager manager' : SingleTypeKVCacheManager H}
    (same : manager'.settings = manager.settings) (numComputed : Nat) :
    manager'.getNumSkippedTokens numComputed = manager.getNumSkippedTokens numComputed := by
  unfold getNumSkippedTokens
  rw [kvCacheSpec_of_settings same]

/-- A release, read off the table before it. -/
structure Release (requestId : RequestId) (session : TableSession H) (processed : Nat)
    (pool : BlockPool H) (manager : SingleTypeKVCacheManager H) (count size : Nat) : Prop where
  nulls : NullsFirst count (session.manager.blocksOf requestId)
  old : ∀ entry ∈ session.released, entry.2 < count
  size_eq : size = min (session.manager.getNumSkippedBlocks processed)
    (session.manager.blocksOf requestId).length
  settings : manager.settings = session.manager.settings
  table : manager.blocksOf requestId =
    List.replicate size nullBlock ++ (session.manager.blocksOf requestId).drop size
  freed : (((session.manager.blocksOf requestId).take size).drop count = [] ∧
      pool = session.pool) ∨
    session.pool.freeBlocks (((session.manager.blocksOf requestId).take size).drop count).reverse =
      .ok pool

section Release

variable {requestId : RequestId} {session : TableSession H} {processed count size : Nat}
  {numPromptTokens : Option Nat} {pool : BlockPool H} {manager : SingleTypeKVCacheManager H}

theorem Inv.release (inv : Inv requestId session)
    (ran : removeSkippedBlocks session.pool session.manager requestId processed numPromptTokens =
      .ok (pool, manager)) : ∃ count size, Release requestId session processed pool manager count
        size := by
  rcases inv.nulls with ⟨count, nulls, old⟩
  rw [removeSkippedBlocks_of_front inv.kind] at ran
  rcases baseRemoveSkippedBlocks_eq rfl rfl nulls ran with ⟨settings, table, freed⟩
  exact ⟨count, _, nulls, old, rfl, settings, table, freed⟩

theorem Release.size_le (release : Release requestId session processed pool manager count size) :
    size ≤ (session.manager.blocksOf requestId).length := by
  rw [release.size_eq]
  exact Nat.min_le_right ..

theorem Release.nullsAfter (release : Release requestId session processed pool manager count size) :
    NullsFirst (max count size) (manager.blocksOf requestId) := by
  rw [release.table]
  exact release.nulls.extend release.size_le

/-- The entries that a release nulls lie between the null blocks and the window. -/
theorem Release.entry (release : Release requestId session processed pool manager count size)
    {entry : BlockId × Nat} (new : entry ∈ releasedEntries (session.manager.blocksOf requestId)
      (manager.blocksOf requestId)) : count ≤ entry.2 ∧ entry.2 < size := by
  rcases mem_releasedEntries.mp new with ⟨located, used, null⟩
  have behind : count ≤ entry.2 := by
    by_contra before
    rw [Nat.not_le, ← release.nulls.getElem?_eq_null_iff, located] at before
    exact used (Option.some.inj before)
  rw [release.nullsAfter.getElem?_eq_null_iff] at null
  omega

/-- Every entry released so far lies below the skipped tokens. -/
theorem Release.behind (inv : Inv requestId session)
    (release : Release requestId session processed pool manager count size)
    (later : session.processed ≤ processed) :
    ∀ entry ∈ session.released ++ releasedEntries (session.manager.blocksOf requestId)
      (manager.blocksOf requestId), (entry.2 + 1) * session.manager.blockSize ≤
        session.manager.getNumSkippedTokens processed := by
  intro entry member
  rcases List.mem_append.mp member with old | new
  · exact (inv.behind entry old).trans (getNumSkippedTokens_mono later)
  · have inside := (release.entry new).2
    have size_le : size ≤ session.manager.getNumSkippedBlocks processed := by
      rw [release.size_eq]
      exact Nat.min_le_left ..
    exact (Nat.mul_le_mul_right _ (inside.trans_le size_le)).trans (Nat.div_mul_le_self ..)

/-- No entry is released again. -/
theorem Release.distinct (inv : Inv requestId session)
    (release : Release requestId session processed pool manager count size) :
    ((session.released ++ releasedEntries (session.manager.blocksOf requestId)
      (manager.blocksOf requestId)).map Prod.snd).Nodup := by
  rw [List.map_append, List.nodup_append]
  refine ⟨inv.distinct, nodup_releasedEntries _ _, ?_⟩
  rintro first firstMember second secondMember rfl
  rcases List.mem_map.mp firstMember with ⟨old, oldMember, rfl⟩
  rcases List.mem_map.mp secondMember with ⟨new, newMember, same⟩
  have before := release.old old oldMember
  have after := (release.entry newMember).1
  omega

end Release

/-- A call that only adds blocks. -/
theorem Inv.keepsNulls {requestId : RequestId} {session : TableSession H}
    (inv : Inv requestId session) {pool : BlockPool H}
    {manager : SingleTypeKVCacheManager H} (kept : KeepsNulls requestId session.manager manager) :
    Inv requestId { session with pool := pool, manager := manager } := by
  rcases inv.nulls with ⟨count, nulls, old⟩
  constructor
  · rw [kvCacheSpec_of_settings kept.settings]
    exact inv.kind
  · exact ⟨count, kept.nulls count nulls, old⟩
  · intro entry member
    rw [blockSize_of_settings kept.settings, getNumSkippedTokens_of_settings kept.settings]
    exact inv.behind entry member
  · exact inv.distinct

variable [DecidableEq H] [BlockHashing H]

/-- The calls for one request.  In between the pool may change, and so may the books of other
requests. -/
inductive Step (requestId : RequestId) : TableSession H → TableSession H → Prop
  | addLocal {session : TableSession H} {pool : BlockPool H}
      {manager : SingleTypeKVCacheManager H} {newComputedBlocks : List BlockId}
      {numLocal numExternal : Nat} (hits : NullPrefix newComputedBlocks)
      (ran : addLocalComputedBlocks session.pool session.manager requestId newComputedBlocks
        numLocal numExternal = .ok (pool, manager)) :
      Step requestId session { session with pool := pool, manager := manager }
  | allocateExternal {session : TableSession H} {pool : BlockPool H}
      {manager : SingleTypeKVCacheManager H} {numLocal numExternal : Nat}
      (consistent : Consistent session.pool)
      (ran : allocateExternalComputedBlocks session.pool session.manager requestId numLocal
        numExternal = .ok (pool, manager)) :
      Step requestId session { session with pool := pool, manager := manager }
  | allocateNew {session : TableSession H} {pool : BlockPool H}
      {manager : SingleTypeKVCacheManager H} {numTokens numTokensMainModel : Nat}
      {newBlocks : List BlockId} (consistent : Consistent session.pool)
      (ran : allocateNewBlocks session.pool session.manager requestId numTokens
        numTokensMainModel = .ok (newBlocks, pool, manager)) :
      Step requestId session { session with pool := pool, manager := manager }
  | removeSkipped {session : TableSession H} {pool : BlockPool H}
      {manager : SingleTypeKVCacheManager H} {processed : Nat} {numPromptTokens : Option Nat}
      (later : session.processed ≤ processed)
      (ran : removeSkippedBlocks session.pool session.manager requestId processed
        numPromptTokens = .ok (pool, manager)) :
      Step requestId session
        { pool := pool
          manager := manager
          processed := processed
          released := session.released ++
            releasedEntries (session.manager.blocksOf requestId) (manager.blocksOf requestId) }
  | others {session : TableSession H} {pool : BlockPool H}
      {manager : SingleTypeKVCacheManager H}
      (settings : manager.settings = session.manager.settings)
      (table : manager.blocksOf requestId = session.manager.blocksOf requestId) :
      Step requestId session { session with pool := pool, manager := manager }

/-- The runs of a request that has no blocks yet. -/
def system (requestId : RequestId) : System (TableSession H) where
  start session := session.manager.kvCacheSpec.kind.releasesFront = true ∧
    session.manager.blocksOf requestId = [] ∧ session.released = []
  step := Step requestId

section Runs

variable {requestId : RequestId} {session next : TableSession H}

/-- One call keeps the invariant. -/
theorem Inv.step (inv : Inv requestId session) (steps : Step requestId session next) :
    Inv requestId next := by
  have kind := inv.kind
  cases steps with
  | @addLocal pool manager newComputedBlocks numLocal numExternal hits ran =>
      rw [addLocalComputedBlocks_of_front kind] at ran
      rcases addLocalHits_eq_ok ran with ⟨empty, _, rfl⟩
      rcases inv.nulls with ⟨count, nulls, old⟩
      have none : session.released = [] := by
        rcases nulls with ⟨rest, table, _⟩
        rw [empty] at table
        have zero : count = 0 := by
          have length_eq := congrArg List.length table
          simp only [List.length_nil, List.length_append, List.length_replicate] at length_eq
          omega
        apply List.eq_nil_iff_forall_not_mem.mpr
        intro entry member
        have before := old entry member
        omega
      have padded : NullPrefix ((session.manager.withLocalHits requestId newComputedBlocks
          numLocal (numLocal + numExternal)).blocksOf requestId) := by
        have table : (session.manager.withLocalHits requestId newComputedBlocks numLocal
            (numLocal + numExternal)).blocksOf requestId =
            session.manager.localTable newComputedBlocks (numLocal + numExternal) :=
          blocksOf_setBlocks_self session.manager requestId _
        rw [table]
        exact (hits.drop _).pad _
      rcases padded with ⟨size, nulled⟩
      constructor
      · exact kind
      · exact ⟨size, nulled, by simp [none]⟩
      · simp [none]
      · simp [none]
  | @allocateExternal pool manager numLocal numExternal consistent ran =>
      apply inv.keepsNulls
      rw [allocateExternalComputedBlocks_of_front kind] at ran
      exact allocateExternalHits_keepsNulls consistent ran
  | @allocateNew pool manager numTokens numTokensMainModel newBlocks consistent ran =>
      apply inv.keepsNulls
      rw [allocateNewBlocks_of_front kind] at ran
      exact baseAllocateNewBlocks_keepsNulls consistent ran
  | removeSkipped later ran =>
      rcases inv.release ran with ⟨count, size, release⟩
      constructor
      · rw [kvCacheSpec_of_settings release.settings]
        exact kind
      · refine ⟨max count size, release.nullsAfter, ?_⟩
        intro entry member
        rcases List.mem_append.mp member with old | new
        · exact (release.old entry old).trans_le (Nat.le_max_left ..)
        · exact (release.entry new).2.trans_le (Nat.le_max_right ..)
      · intro entry member
        rw [blockSize_of_settings release.settings, getNumSkippedTokens_of_settings release.settings]
        exact release.behind inv later entry member
      · exact release.distinct inv
  | others settings table =>
      apply inv.keepsNulls
      exact ⟨settings, fun count nulls => by rwa [table]⟩

theorem Inv.start (starts : (system requestId).start session) : Inv requestId session := by
  rcases starts with ⟨kind, empty, none⟩
  constructor
  · exact kind
  · refine ⟨0, ⟨[], by simpa using empty, List.not_mem_nil⟩, ?_⟩
    simp [none]
  · simp [none]
  · simp [none]

theorem reachable_inv (reached : Reachable (system requestId) session) : Inv requestId session :=
  reached.invariant (fun _ => Inv.start) fun _ _ => Inv.step

/-- In every run the null blocks of a table form a prefix, and a release is complete: no block below
the skipped tokens stays, none above is given away, and none is given away twice. -/
theorem skippedBlocks_released (reached : Reachable (system requestId) session) :
    NullPrefix (session.manager.blocksOf requestId) ∧
    ∀ (processed : Nat) (numPromptTokens : Option Nat) (pool : BlockPool H)
      (manager : SingleTypeKVCacheManager H), session.processed ≤ processed →
      removeSkippedBlocks session.pool session.manager requestId processed numPromptTokens =
        .ok (pool, manager) →
      NullPrefix (manager.blocksOf requestId) ∧
      (∀ index, index < (manager.blocksOf requestId).length →
        (index + 1) * manager.blockSize ≤ manager.getNumSkippedTokens processed →
        (manager.blocksOf requestId)[index]? = some nullBlock) ∧
      (∀ entry ∈ session.released ++ releasedEntries (session.manager.blocksOf requestId)
          (manager.blocksOf requestId),
        (entry.2 + 1) * manager.blockSize ≤ manager.getNumSkippedTokens processed) ∧
      ((session.released ++ releasedEntries (session.manager.blocksOf requestId)
        (manager.blocksOf requestId)).map Prod.snd).Nodup ∧
      (((releasedEntries (session.manager.blocksOf requestId) (manager.blocksOf requestId)) = [] ∧
          pool = session.pool) ∨
        session.pool.freeBlocks ((releasedEntries (session.manager.blocksOf requestId)
          (manager.blocksOf requestId)).map Prod.fst).reverse = .ok pool) := by
  have inv := reachable_inv reached
  constructor
  · exact inv.nulls.imp fun _ nulls => nulls.1
  · intro processed numPromptTokens pool manager later ran
    rcases inv.release ran with ⟨count, size, release⟩
    have blockSize_eq := blockSize_of_settings release.settings
    have skipped_eq := getNumSkippedTokens_of_settings release.settings processed
    refine ⟨⟨_, release.nullsAfter⟩, ?_, ?_, release.distinct inv, ?_⟩
    · intro index inside below
      rw [release.nullsAfter.getElem?_eq_null_iff]
      rw [blockSize_eq, skipped_eq, ← Nat.le_div_iff_mul_le session.manager.blockSize_pos] at below
      have length_eq := congrArg List.length release.table
      simp only [List.length_append, List.length_replicate, List.length_drop] at length_eq
      have size_eq := release.size_eq
      unfold getNumSkippedBlocks at size_eq
      omega
    · rw [blockSize_eq, skipped_eq]
      exact release.behind inv later
    · have freed := release.freed
      have entries := @releasedEntries_nulled _ size _ release.nulls
      rw [← release.table] at entries
      rw [← entries, List.map_eq_nil_iff] at freed
      exact freed

omit [DecidableEq H] [BlockHashing H] in
/-- A new pool hands out no null block. -/
theorem consistent_of_init {numGpuBlocks hashBlockSize : Nat}
    {enableCaching enableKvCacheEvents : Bool} {pool : BlockPool H}
    (created : BlockPool.init numGpuBlocks enableCaching hashBlockSize enableKvCacheEvents =
      .ok pool) : Consistent pool := by
  have positive : 0 < numGpuBlocks := by
    rcases bind_eq_ok.mp created with ⟨_, positive, _⟩
    exact pyAssert_eq_ok.mp positive
  rcases @BlockPool.init_spec H numGpuBlocks positive enableCaching hashBlockSize
    enableKvCacheEvents with ⟨queue, _, again, list⟩
  cases created.symm.trans again
  exact ⟨positive, ⟨_, list⟩, fun _ _ used => absurd rfl used⟩

/-- A window of two tokens over a block size of one. -/
def windowManager : SingleTypeKVCacheManager SymbolicHash :=
  .init ⟨1, .slidingWindow 2 0, 0, by decide, by decide⟩ true 0 1 1 false none

/-- Five blocks, three of them released after four tokens. -/
theorem skippedBlocks_released_window :
    ∃ pool newBlocks middle manager final released, BlockPool.init 8 true 1 false = .ok pool ∧
      allocateNewBlocks pool windowManager "long" 5 5 = .ok (newBlocks, middle, manager) ∧
      removeSkippedBlocks middle manager "long" 4 none = .ok (final, released) ∧
      ∀ index, index < (released.blocksOf "long").length →
        (index + 1) * released.blockSize ≤ released.getNumSkippedTokens 4 →
        (released.blocksOf "long")[index]? = some nullBlock := by
  refine ⟨_, _, _, _, _, _, rfl, rfl, rfl, ?_⟩
  have consistent := @consistent_of_init SymbolicHash 8 1 true false _ rfl
  have allocated := @Step.allocateNew SymbolicHash _ _ "long" ⟨_, windowManager, 0, []⟩ _ _ 5 5 _
    consistent rfl
  have reached := (Reachable.start ⟨rfl, rfl, rfl⟩ : Reachable (system "long") _).step allocated
  exact ((skippedBlocks_released reached).2 4 none _ _ (by decide) rfl).2.1

end Runs

end TableSession

end Vllm.Core
