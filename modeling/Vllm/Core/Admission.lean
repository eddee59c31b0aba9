import Vllm.Core.ManagerFrames
import Vllm.Core.ReferenceRuns

/-!
# Admission of attention groups

`allocate_slots` asks every manager for a prediction and compares the sum with
the free blocks before it takes anything.  The predictions are treated as a
fund: `Funded` says that a manager call raises for lack of blocks only if its
fund exceeds the free blocks, and that what it takes from the free queue comes
out of the fund.  Adding hits, taking external blocks and allocating are three
rounds over the managers with a falling fund.
-/

namespace Vllm.Core

open Vllm.Library BlockPool SingleTypeKVCacheManager

variable {H : Type}

/-- `get_new_blocks` raised because the free queue was too short. -/
def OutOfBlocks (failure : PyError) : Prop :=
  ∃ numBlocks : Nat, failure =
    .valueError ("Cannot get " ++ toString numBlocks ++ " free blocks from the pool")

theorem not_outOfBlocks_assertionError : ¬ OutOfBlocks .assertionError := by
  rintro ⟨_, impossible⟩
  contradiction

theorem not_outOfBlocks_indexError : ¬ OutOfBlocks .indexError := by
  rintro ⟨_, impossible⟩
  contradiction

namespace BlockPool

/-- References were only added. -/
structure Grown (pool pool' : BlockPool H) : Prop where
  config : SameConfig pool pool'
  consistent : Consistent pool'
  refCnt : ∀ block, (pool.blocks block).refCnt ≤ (pool'.blocks block).refCnt

namespace Grown

variable {pool pool' : BlockPool H}

theorem refl (consistent : Consistent pool) : Grown pool pool :=
  ⟨.refl pool, consistent, fun _ => Int.le_refl _⟩

theorem trans {middle : BlockPool H} (left : Grown pool middle) (right : Grown middle pool') :
    Grown pool pool' :=
  ⟨left.config.trans right.config, right.consistent,
    fun block => Int.le_trans (left.refCnt block) (right.refCnt block)⟩

/-- A larger pool has fewer evictable blocks. -/
theorem getNumEvictableBlocks_le (grown : Grown pool pool') (consistent : Consistent pool)
    (blocks : List BlockId) :
    getNumEvictableBlocks pool' blocks ≤ getNumEvictableBlocks pool blocks := by
  apply List.countP_mono_left
  intro block _ idle
  rcases of_decide_eq_true idle with ⟨zero, nonNull⟩
  have := grown.refCnt block
  have := consistent.nonneg nonNull
  exact decide_eq_true ⟨by omega, nonNull⟩

end Grown

variable {pool pool' : BlockPool H} {blocks ret : List BlockId}

/-- References only shorten the free queue. -/
theorem Grown.getNumFreeBlocks_le (grown : Grown pool pool') (consistent : Consistent pool) :
    pool'.getNumFreeBlocks ≤ pool.getNumFreeBlocks := by
  have shorter : pool'.getNumFreeBlocks ≤
      pool.getNumFreeBlocks + (([] : List BlockId).length : Nat) := by
    refine grown.consistent.getNumFreeBlocks_le consistent grown.config.symm
      fun block nonNull idle => .inl ?_
    have := grown.refCnt block
    have := consistent.nonneg nonNull
    omega
  exact (Int.add_zero pool.getNumFreeBlocks) ▸ shorter

theorem Referenced.grown (taken : Referenced pool pool' blocks) : Grown pool pool' :=
  ⟨taken.toSameConfig, taken.consistent, fun block => by rw [taken.refCnt]; omega⟩

/-- Taking references empties the free queue by at most the evictable blocks. -/
theorem Referenced.getNumFreeBlocks_le (consistent : Consistent pool)
    (taken : Referenced pool pool' blocks) :
    pool.getNumFreeBlocks ≤ pool'.getNumFreeBlocks + getNumEvictableBlocks pool blocks := by
  have counted : getNumEvictableBlocks pool blocks = (blocks.filter fun block =>
      (pool.blocks block).refCnt = 0 ∧ block ≠ nullBlock).length :=
    List.countP_eq_length_filter
  rw [counted]
  apply consistent.getNumFreeBlocks_le taken.consistent taken.toSameConfig
  intro block nonNull idle
  by_cases listed : block ∈ blocks
  · exact .inr (List.mem_filter.mpr ⟨listed, decide_eq_true ⟨idle, nonNull⟩⟩)
  · refine .inl ?_
    rw [taken.refCnt, idle, List.count_eq_zero.mpr listed]
    rfl

variable [DecidableEq H] [BlockHashing H]

variable {numBlocks : Nat}

/-- `get_new_blocks` costs what it returns. -/
theorem Consistent.getNewBlocks_cost (consistent : Consistent pool)
    (got : pool.getNewBlocks numBlocks = .ok (ret, pool')) :
    Grown pool pool' ∧ pool.getNumFreeBlocks ≤ pool'.getNumFreeBlocks + numBlocks := by
  rcases consistent.getNewBlocks got with ⟨taken, length, _, _⟩
  refine ⟨taken.grown, Int.le_trans (taken.getNumFreeBlocks_le consistent) ?_⟩
  have bound : getNumEvictableBlocks pool ret ≤ ret.length := List.countP_le_length
  omega

/-- Exactly that many. -/
theorem Consistent.getNewBlocks_exact (consistent : Consistent pool)
    (got : pool.getNewBlocks numBlocks = .ok (ret, pool')) :
    pool'.getNumFreeBlocks + numBlocks = pool.getNumFreeBlocks := by
  rcases consistent.free with ⟨free, list⟩
  have enough : numBlocks ≤ free.length := by
    by_contra short
    have raised : (numBlocks : Int) > pool.getNumFreeBlocks := by
      rw [list.getNumFreeBlocks_eq]
      omega
    unfold BlockPool.getNewBlocks at got
    rw [if_pos raised] at got
    contradiction
  rcases getNewBlocks_spec list enough with ⟨other, taken, rest, _⟩
  rw [got] at taken
  cases taken
  rw [list.getNumFreeBlocks_eq, rest.getNumFreeBlocks_eq, List.length_drop]
  omega

/-- It never raises when the queue is long enough. -/
theorem Consistent.getNewBlocks_ne_error (consistent : Consistent pool)
    (enough : (numBlocks : Int) ≤ pool.getNumFreeBlocks) {failure : PyError} :
    pool.getNewBlocks numBlocks ≠ .error failure := by
  rcases consistent.free with ⟨free, list⟩
  rw [list.getNumFreeBlocks_eq] at enough
  rcases getNewBlocks_spec list (Int.ofNat_le.mp enough) with ⟨_, got, _⟩
  rw [got]
  exact fun impossible => by contradiction

end BlockPool

/-! ## Funded calls -/

/-- A call with a fund: it raises for lack of blocks only if the fund exceeds the
free queue; otherwise the blocks it takes, together with the fund that it
leaves, come out of the fund. -/
structure Funded {ρ : Type} (pool : BlockPool H) (fund : Nat) (after : ρ → BlockPool H)
    (left : ρ → Nat) (good : ρ → Prop) (result : Except PyError ρ) : Prop where
  failure : ∀ raised, result = .error raised → (fund : Int) ≤ pool.getNumFreeBlocks →
    ¬ OutOfBlocks raised
  success : ∀ value, result = .ok value →
    Grown pool (after value) ∧
      pool.getNumFreeBlocks + left value ≤ (after value).getNumFreeBlocks + fund ∧ good value

namespace Funded

variable {ρ τ : Type} {pool : BlockPool H} {fund : Nat} {after : ρ → BlockPool H}
  {left : ρ → Nat} {good : ρ → Prop} {result : Except PyError ρ}

theorem ok {value : ρ} (grown : Grown pool (after value))
    (paid : pool.getNumFreeBlocks + left value ≤ (after value).getNumFreeBlocks + fund)
    (holds : good value) : Funded pool fund after left good (.ok value) := by
  constructor
  · intro raised impossible
    contradiction
  · intro other same
    cases same
    exact ⟨grown, paid, holds⟩

/-- A failure for another reason. -/
theorem error {raised : PyError} (other : ¬ OutOfBlocks raised) :
    Funded pool fund after left good (.error raised) := by
  constructor
  · intro failure same _
    cases same
    exact other
  · intro value impossible
    contradiction

theorem weaken (funded : Funded pool fund after left good result) {fund' : Nat}
    {left' : ρ → Nat} {good' : ρ → Prop} (more : fund ≤ fund')
    (less : ∀ value, good value → left' value ≤ left value)
    (implies : ∀ value, good value → good' value) : Funded pool fund' after left' good' result := by
  constructor
  · intro raised ran enough
    exact funded.failure raised ran (by omega)
  · intro value ran
    rcases funded.success value ran with ⟨grown, paid, holds⟩
    have := less value holds
    exact ⟨grown, by omega, implies value holds⟩

/-- The fund left by a first call pays for the next one. -/
theorem bind {after' : τ → BlockPool H} {left' : τ → Nat} {good' : τ → Prop}
    {next : ρ → Except PyError τ} (first : Funded pool fund after left good result)
    (second : ∀ value, result = .ok value → Grown pool (after value) → good value →
      Funded (after value) (left value) after' left' good' (next value)) :
    Funded pool fund after' left' good' (result >>= next) := by
  constructor
  · intro raised ran enough
    rcases bind_eq_error.mp ran with early | ⟨value, early, ran⟩
    · exact first.failure raised early enough
    · rcases first.success value early with ⟨grown, paid, holds⟩
      exact (second value early grown holds).failure raised ran (by omega)
  · intro last ran
    obtain ⟨value, early, ran⟩ := bind_eq_ok.mp ran
    rcases first.success value early with ⟨grown, paid, holds⟩
    rcases (second value early grown holds).success last ran with ⟨more, paidNext, holdsNext⟩
    exact ⟨grown.trans more, by omega, holdsNext⟩

theorem map {after' : τ → BlockPool H} {left' : τ → Nat} {good' : τ → Prop} (view : ρ → τ)
    (funded : Funded pool fund (fun value => after' (view value)) (fun value => left' (view value))
      (fun value => good' (view value)) result) :
    Funded pool fund after' left' good' (result.map view) := by
  cases result with
  | error raised =>
      constructor
      · intro failure same
        cases same
        exact funded.failure raised rfl
      · intro value impossible
        contradiction
  | ok value =>
      rcases funded.success value rfl with ⟨grown, paid, holds⟩
      exact ok grown paid holds

end Funded

/-- The fund of a list of managers, counted from group `i` on. -/
def fundOf (fund : Nat → SingleTypeKVCacheManager H → Nat) :
    Nat → List (SingleTypeKVCacheManager H) → Nat
  | _, [] => 0
  | i, manager :: rest => fund i manager + fundOf fund (i + 1) rest

/-- A property of every manager with its group index. -/
def AllManagers (property : Nat → SingleTypeKVCacheManager H → Prop) :
    Nat → List (SingleTypeKVCacheManager H) → Prop
  | _, [] => True
  | i, manager :: rest => property i manager ∧ AllManagers property (i + 1) rest

variable {property : Nat → SingleTypeKVCacheManager H → Prop}
  {managers : List (SingleTypeKVCacheManager H)}

theorem AllManagers.of_forall (i : Nat) (all : ∀ j, ∀ manager ∈ managers, property j manager) :
    AllManagers property i managers := by
  induction managers generalizing i with
  | nil => trivial
  | cons manager rest ih =>
      exact ⟨all i manager (.head _), ih (i + 1) fun j other member => all j other (.tail _ member)⟩

theorem fundOf_mono {less more : Nat → SingleTypeKVCacheManager H → Nat}
    (le : ∀ i manager, property i manager → less i manager ≤ more i manager) {i : Nat}
    (all : AllManagers property i managers) : fundOf less i managers ≤ fundOf more i managers := by
  induction managers generalizing i with
  | nil => exact le_rfl
  | cons manager rest ih => exact Nat.add_le_add (le _ _ all.1) (ih all.2)

namespace KVCacheCoordinator

/-- A round of funded calls over all the managers. -/
theorem forManagers_funded (fund left : Nat → SingleTypeKVCacheManager H → Nat)
    (ready good : Nat → SingleTypeKVCacheManager H → Prop) {α : Type} {start : BlockPool H}
    {visit : Nat → BlockPool H → SingleTypeKVCacheManager H →
      Except PyError (α × BlockPool H × SingleTypeKVCacheManager H)}
    (step : ∀ i pool manager, Grown start pool → ready i manager →
      Funded pool (fund i manager) (·.2.1) (fun visited => left i visited.2.2)
        (fun visited => good i visited.2.2) (visit i pool manager)) {i : Nat} {pool : BlockPool H}
    (grown : Grown start pool) (allReady : AllManagers ready i managers) :
    Funded pool (fundOf fund i managers) (·.2.1) (fun visited => fundOf left i visited.2.2)
      (fun visited => AllManagers good i visited.2.2) (forManagers visit i pool managers) := by
  induction managers generalizing i pool with
  | nil => exact .ok (.refl grown.consistent) (Int.le_refl _) trivial
  | cons manager rest ih =>
      have here := step i pool manager grown allReady.1
      constructor
      · intro raised ran enough
        simp only [fundOf] at enough
        rcases bind_eq_error.mp ran with first | ⟨⟨value, middle, visited⟩, first, ran⟩
        · exact here.failure raised first (by omega)
        · rcases here.success (value, middle, visited) first with ⟨more, paid, _⟩
          have others := ih (grown.trans more) allReady.2
          rcases bind_eq_error.mp ran with second | ⟨⟨tailValues, last, tail⟩, _, ran⟩
          · exact others.failure raised second (by omega)
          · contradiction
      · rintro ⟨values, pool', managers'⟩ ran
        obtain ⟨⟨value, middle, visited⟩, first, ran⟩ := bind_eq_ok.mp ran
        obtain ⟨⟨tailValues, last, tail⟩, second, ran⟩ := bind_eq_ok.mp ran
        cases ran
        rcases here.success (value, middle, visited) first with ⟨more, paid, goodHere⟩
        rcases (ih (grown.trans more) allReady.2).success (tailValues, pool', tail) second with
          ⟨moreRest, paidRest, goodRest⟩
        refine ⟨more.trans moreRest, ?_, goodHere, goodRest⟩
        simp only [fundOf] at paid paidRest ⊢
        omega

/-- The same for calls without a result. -/
theorem visitManagers_funded {coordinator : KVCacheCoordinator H}
    {visit : Nat → BlockPool H → SingleTypeKVCacheManager H →
      Except PyError (BlockPool H × SingleTypeKVCacheManager H)}
    {fund left : Nat → SingleTypeKVCacheManager H → Nat}
    {ready good : Nat → SingleTypeKVCacheManager H → Prop}
    (step : ∀ i pool manager, Grown coordinator.blockPool pool → ready i manager →
      Funded pool (fund i manager) (·.1) (fun visited => left i visited.2)
        (fun visited => good i visited.2) (visit i pool manager))
    (consistent : Consistent coordinator.blockPool)
    (allReady : AllManagers ready 0 coordinator.singleTypeManagers) :
    Funded coordinator.blockPool (fundOf fund 0 coordinator.singleTypeManagers) (·.blockPool)
      (fun visited => fundOf left 0 visited.singleTypeManagers)
      (fun visited => AllManagers good 0 visited.singleTypeManagers)
      (coordinator.visitManagers visit) := by
  have round := forManagers_funded fund left ready good
    (fun i pool manager grown ready => (step i pool manager grown ready).map
      (fun after => ((), after)))
    (.refl consistent) allReady
  exact round.bind fun _ _ grown all => .ok (.refl grown.consistent) (Int.le_refl _) all

end KVCacheCoordinator

/-! ## Attention managers -/

namespace SingleTypeKVCacheManager

/-- Every class but Mamba. -/
def IsAttention (manager : SingleTypeKVCacheManager H) : Prop :=
  manager.kvCacheSpec.isMamba = false

/-- A request without books in a manager. -/
structure Unknown (requestId : RequestId) (manager : SingleTypeKVCacheManager H) : Prop where
  table : manager.blocksOf requestId = []
  untracked : manager.isTracked requestId = false
  settled : manager.partialHitReqs.get? requestId = none
  unallocated : ∀ numSpeculative numCheckpoint,
    manager.kvCacheSpec.kind = .mamba .align numSpeculative numCheckpoint →
    requestId ∉ manager.allocatedBlockReqs

/-- The blocks that the table of a request lacks for `numTokens` tokens, with the
copy of a pending partial hit. -/
def need (manager : SingleTypeKVCacheManager H) (requestId : RequestId) (numTokens : Nat) : Nat :=
  if manager.kvCacheSpec.kind = .circularBuffer then
    if manager.blocksOf requestId = [] then 1 else 0
  else
    (manager.partialHitReqs.get? requestId).isSome.toNat +
      (cdiv numTokens manager.blockSize - (manager.blocksOf requestId).length)

/-- What an attention manager predicts in `allocate_slots`. -/
def demand (pool : BlockPool H) (manager : SingleTypeKVCacheManager H) (requestId : RequestId)
    (numTokens : Nat) (newComputedBlocks : List BlockId) (totalComputed numLocal : Nat) : Nat :=
  let numReqBlocks := (manager.blocksOf requestId).length
  let numSkipped := manager.getNumSkippedBlocks totalComputed
  if manager.kvCacheSpec.kind = .circularBuffer then
    if manager.blocksOf requestId ≠ [] then 0 else 1
  else if manager.isTracked requestId then
    cdiv numTokens manager.blockSize - numReqBlocks
  else
    (cdiv numTokens manager.blockSize - max numSkipped (newComputedBlocks.length + numReqBlocks)) +
      (manager.hasPartialLocalHit newComputedBlocks numLocal).toNat +
      getNumEvictableBlocks pool (newComputedBlocks.drop (numSkipped - numReqBlocks))

section Predictor

variable [DecidableEq H]

variable {manager manager' : SingleTypeKVCacheManager H}
  {numTokens totalComputed numLocal numTokensMainModel : Nat}

variable {newComputedBlocks : List BlockId}

variable {pool : BlockPool H} {requestId : RequestId} {count : Int}

/-- A prediction of an attention manager notes nothing. -/
theorem getNumBlocksToAllocate_unchanged (attention : manager.IsAttention)
    {applyAdmissionCap : Bool}
    (predicted : getNumBlocksToAllocate pool manager requestId numTokens newComputedBlocks
      totalComputed numLocal numTokensMainModel applyAdmissionCap = .ok (count, manager')) :
    manager' = manager := by
  unfold getNumBlocksToAllocate at predicted
  split at predicted
  · cases predicted
    rfl
  · rename_i kind
    simp [IsAttention, KVCacheSpec.isMamba, kind] at attention
  · rcases map_eq_ok.mp predicted with ⟨_, _, same⟩
    cases same
    rfl

/-- The prediction of an attention manager is its demand; nothing is noted. -/
theorem getNumBlocksToAllocate_attention (attention : manager.IsAttention)
    (predicted : getNumBlocksToAllocate pool manager requestId numTokens newComputedBlocks
      totalComputed numLocal numTokensMainModel false = .ok (count, manager')) :
    manager' = manager ∧ count = manager.demand pool requestId numTokens newComputedBlocks
      totalComputed numLocal := by
  refine ⟨getNumBlocksToAllocate_unchanged attention predicted, ?_⟩
  have base : ∀ value : Nat, manager.kvCacheSpec.kind ≠ .circularBuffer →
      baseNumBlocksToAllocate pool manager requestId numTokens newComputedBlocks totalComputed
        numLocal false = .ok value →
      value = manager.demand pool requestId numTokens newComputedBlocks totalComputed
        numLocal := by
    intro value notRing counted
    unfold baseNumBlocksToAllocate at counted
    unfold demand
    have uncapped : manager.numRequiredBlocks numTokens false =
        cdiv numTokens manager.blockSize := rfl
    rw [uncapped] at counted
    rw [if_neg notRing]
    split at counted
    · rename_i tracked
      rw [if_pos tracked]
      obtain ⟨_, _, counted⟩ := bind_eq_ok.mp counted
      cases counted
      rfl
    · rename_i untracked
      rw [if_neg untracked]
      cases counted
      cases manager.hasPartialLocalHit newComputedBlocks numLocal <;> simp
  unfold getNumBlocksToAllocate at predicted
  split at predicted
  · rename_i ring
    cases predicted
    unfold demand
    split <;> rfl
  · rename_i kind
    simp [IsAttention, KVCacheSpec.isMamba, kind] at attention
  · rename_i notRing _
    rcases map_eq_ok.mp predicted with ⟨value, counted, same⟩
    cases same
    rw [base value notRing counted]

end Predictor

section Calls

theorem withLocalHits_blocksOf (manager : SingleTypeKVCacheManager H) (requestId : RequestId)
    (newComputedBlocks : List BlockId) (numLocal numComputed : Nat) :
    (manager.withLocalHits requestId newComputedBlocks numLocal numComputed).blocksOf requestId =
      manager.localTable newComputedBlocks numComputed :=
  Dict.getD_insert_self ..

theorem length_localTable (manager : SingleTypeKVCacheManager H)
    (newComputedBlocks : List BlockId) (numComputed : Nat) :
    (manager.localTable newComputedBlocks numComputed).length =
      max (manager.getNumSkippedBlocks numComputed) newComputedBlocks.length := by
  simp only [localTable, List.length_append, List.length_replicate, List.length_drop]
  omega

variable {requestId : RequestId} {pool pool' : BlockPool H}
  {manager manager' : SingleTypeKVCacheManager H} {numLocal numExternal numTokens count : Nat}
  {failure : PyError}

/-- A pending redirect stands for a partial hit. -/
theorem withLocalHits_pending (manager : SingleTypeKVCacheManager H)
    (settled : manager.partialHitReqs.get? requestId = none) (newComputedBlocks : List BlockId)
    (numLocal numComputed : Nat) :
    ((manager.withLocalHits requestId newComputedBlocks numLocal
        numComputed).partialHitReqs.get? requestId).isSome.toNat ≤
      (manager.hasPartialLocalHit newComputedBlocks numLocal).toNat := by
  cases tail : manager.partialTail newComputedBlocks numLocal numComputed with
  | none =>
      have unchanged : (manager.withLocalHits requestId newComputedBlocks numLocal
          numComputed).partialHitReqs = manager.partialHitReqs := by
        simp only [withLocalHits, tail, Option.map_none, Option.getD_none]
      rw [unchanged, settled]
      exact Nat.zero_le _
  | some hit =>
      have isPartial : manager.hasPartialLocalHit newComputedBlocks numLocal = true := by
        unfold partialTail at tail
        split at tail
        · rename_i remainder
          apply decide_eq_true
          refine ⟨fun empty => ?_, remainder⟩
          rw [empty] at tail
          simp at tail
        · contradiction
      rw [isPartial]
      exact Bool.toNat_le _

variable {newComputedBlocks : List BlockId}

/-- Adding blocks of the pool fails only on the assertions of the source. -/
theorem addLocalHits_error (consistent : Consistent pool)
    (valid : ∀ block ∈ newComputedBlocks, block < pool.numGpuBlocks)
    (raised : addLocalHits pool manager requestId newComputedBlocks numLocal numExternal =
      .error failure) : failure = .assertionError := by
  rcases bind_eq_error.mp raised with first | ⟨_, _, raised⟩
  · exact eq_assertionError_of_pyAssert first
  rcases bind_eq_error.mp raised with second | ⟨touched, _, raised⟩
  · split at second
    · rcases consistent.free with ⟨free, list⟩
      rcases touch_spec list (fun block member =>
        valid block (List.mem_of_mem_drop member)) with ⟨_, touched, _⟩
      rw [touched] at second
      contradiction
    · exact eq_assertionError_of_pyAssert (map_eq_error.mp second)
  · dsimp only at raised
    split at raised
    · split at raised <;> contradiction
    · contradiction

/-- The table of the request never gets shorter, and no other request is
concerned. -/
def Extends (requestId : RequestId) (manager manager' : SingleTypeKVCacheManager H) : Prop :=
  OnlyFor requestId manager manager' ∧
    (manager.blocksOf requestId).length ≤ (manager'.blocksOf requestId).length

theorem Extends.trans {first second third : SingleTypeKVCacheManager H}
    (left : Extends requestId first second) (right : Extends requestId second third) :
    Extends requestId first third :=
  ⟨left.1.trans right.1, left.2.trans right.2⟩

/-- Adding hits costs the evictable ones among them. -/
theorem addLocalHits_funded {start : BlockPool H} (startConsistent : Consistent start)
    (grown : Grown start pool) (settled : manager.partialHitReqs.get? requestId = none)
    (untracked : manager.isTracked requestId = false)
    (valid : ∀ block ∈ newComputedBlocks, block < pool.numGpuBlocks)
    (notRing : manager.kvCacheSpec.kind ≠ .circularBuffer) :
    Funded pool
      (manager.demand start requestId numTokens newComputedBlocks (numLocal + numExternal) numLocal)
      (·.1) (·.2.need requestId numTokens) (fun added => Extends requestId manager added.2)
      (addLocalHits pool manager requestId newComputedBlocks numLocal numExternal) := by
  have consistent := grown.consistent
  constructor
  · intro failure raised _
    rw [addLocalHits_error consistent valid raised]
    exact not_outOfBlocks_assertionError
  · rintro ⟨pool', manager'⟩ added
    rcases addLocalHits_eq_ok added with ⟨empty, touched, rfl⟩
    have taken := consistent.touch
      (fun block member => valid block (List.mem_of_mem_drop member)) touched
    have paid := taken.getNumFreeBlocks_le consistent
    have fewer := grown.getNumEvictableBlocks_le startConsistent
      (newComputedBlocks.drop (manager.getNumSkippedBlocks (numLocal + numExternal)))
    have pending := manager.withLocalHits_pending settled newComputedBlocks numLocal
      (numLocal + numExternal)
    have frame := manager.withLocalHits_onlyFor requestId newComputedBlocks numLocal
      (numLocal + numExternal)
    refine ⟨taken.grown, ?_, frame, by rw [empty]; exact Nat.zero_le _⟩
    have kind : (manager.withLocalHits requestId newComputedBlocks numLocal
        (numLocal + numExternal)).kvCacheSpec.kind = manager.kvCacheSpec.kind := rfl
    have size : (manager.withLocalHits requestId newComputedBlocks numLocal
        (numLocal + numExternal)).blockSize = manager.blockSize := rfl
    unfold need demand
    rw [kind, size, if_neg notRing, if_neg notRing, withLocalHits_blocksOf, length_localTable,
      empty, untracked]
    simp only [List.length_nil, Nat.add_zero, Nat.sub_zero, Bool.false_eq_true, if_false]
    omega

/-- The need of a manager after its table grew. -/
theorem need_eq {manager manager' : SingleTypeKVCacheManager H} {requestId : RequestId}
    (frame : manager'.settings = manager.settings)
    (notRing : manager.kvCacheSpec.kind ≠ .circularBuffer) (numTokens : Nat) :
    manager'.need requestId numTokens =
      (manager'.partialHitReqs.get? requestId).isSome.toNat +
        (cdiv numTokens manager.blockSize - (manager'.blocksOf requestId).length) := by
  have spec : manager'.kvCacheSpec = manager.kvCacheSpec :=
    kvCacheSpec_of_settings frame
  have size : manager'.blockSize = manager.blockSize :=
    blockSize_of_settings frame
  unfold need
  rw [spec, size, if_neg notRing]

variable [DecidableEq H] [BlockHashing H]

/-- Extending a table by `count` blocks. -/
theorem extendBlocks_effect (consistent : Consistent pool) {newBlocks : List BlockId}
    (extended : extendBlocks pool manager requestId count = .ok (newBlocks, pool', manager')) :
    Grown pool pool' ∧ pool.getNumFreeBlocks ≤ pool'.getNumFreeBlocks + count ∧
      manager'.blocksOf requestId = manager.blocksOf requestId ++ newBlocks ∧
      newBlocks.length = count ∧ manager'.partialHitReqs = manager.partialHitReqs := by
  rcases extendBlocks_eq_ok extended with ⟨got, rfl⟩
  have cost := consistent.getNewBlocks_cost got
  refine ⟨cost.1, cost.2, ?_, (consistent.getNewBlocks got).2.1, ?_⟩
  · rw [(recordBlocks_sameTables _ newBlocks).blocksOf, blocksOf_setBlocks_self]
  · unfold recordBlocks
    split <;> rfl

theorem extendBlocks_ne_error (consistent : Consistent pool)
    (enough : (count : Int) ≤ pool.getNumFreeBlocks) :
    extendBlocks pool manager requestId count ≠ .error failure := by
  intro raised
  rcases bind_eq_error.mp raised with first | ⟨_, _, raised⟩
  · exact consistent.getNewBlocks_ne_error enough first
  · contradiction

/-- The ring buffer takes its block once. -/
theorem claimRingBlock_funded (consistent : Consistent pool) (numTokens : Nat)
    (ring : manager.kvCacheSpec.kind = .circularBuffer) :
    Funded pool (manager.need requestId numTokens) (·.2.1) (·.2.2.need requestId numTokens)
      (fun claimed => Extends requestId manager claimed.2.2 ∧
        claimed.2.2.partialHitReqs = manager.partialHitReqs)
      (claimRingBlock pool manager requestId) := by
  unfold claimRingBlock
  by_cases empty : manager.blocksOf requestId = []
  · have fund : manager.need requestId numTokens = 1 := by
      unfold need
      rw [if_pos ring, if_pos empty]
    rw [if_neg (not_not_intro empty), fund]
    constructor
    · intro failure raised enough
      exact absurd raised (extendBlocks_ne_error consistent enough)
    · rintro ⟨newBlocks, pool', manager'⟩ extended
      rcases extendBlocks_effect consistent extended with ⟨grown, cost, table, length, pending⟩
      have frame := extendBlocks_onlyFor extended
      have claimed : manager'.blocksOf requestId ≠ [] := by
        rw [table, empty, List.nil_append]
        exact List.ne_nil_of_length_pos (by omega)
      have spec := kvCacheSpec_of_settings frame.settings
      refine ⟨grown, ?_, ⟨frame, ?_⟩, pending⟩
      · unfold need
        dsimp only
        rw [spec, if_pos ring, if_neg claimed]
        omega
      · rw [empty]
        exact Nat.zero_le _
  · rw [if_pos empty]
    exact .ok (.refl consistent) (Int.le_refl _) ⟨⟨.refl _ _, le_rfl⟩, rfl⟩

/-- External tokens take the first part of what the request needs. -/
theorem allocateExternalComputedBlocks_funded (consistent : Consistent pool)
    (within : manager.kvCacheSpec.kind ≠ .crossAttention → numLocal + numExternal ≤ numTokens) :
    Funded pool (manager.need requestId numTokens) (·.1) (·.2.need requestId numTokens)
      (fun allocated => Extends requestId manager allocated.2 ∧
        allocated.2.partialHitReqs = manager.partialHitReqs)
      (allocateExternalComputedBlocks pool manager requestId numLocal numExternal) := by
  have unchanged : Funded pool (manager.need requestId numTokens) (·.1)
      (·.2.need requestId numTokens)
      (fun allocated => Extends requestId manager allocated.2 ∧
        allocated.2.partialHitReqs = manager.partialHitReqs) (.ok (pool, manager)) :=
    .ok (.refl consistent) (Int.le_refl _) ⟨⟨.refl _ _, le_rfl⟩, rfl⟩
  unfold allocateExternalComputedBlocks
  split
  · rename_i ring
    exact (claimRingBlock_funded consistent numTokens ring).bind fun _ _ grown claimed =>
      .ok (.refl grown.consistent) (Int.le_refl _) claimed
  · exact unchanged
  · rename_i notRing notCross
    unfold allocateExternalHits
    split
    · exact unchanged
    · -- The table grows to the computed tokens, which lie within the needed ones.
      have blocks : cdiv (numLocal + numExternal) manager.blockSize ≤
          cdiv numTokens manager.blockSize :=
        Nat.div_le_div_right (by have := within notCross; omega)
      have fund := @need_eq _ manager _ requestId rfl notRing numTokens
      constructor
      · intro failure raised enough
        rcases bind_eq_error.mp raised with first | ⟨_, _, raised⟩
        · exact absurd first (extendBlocks_ne_error consistent (by omega))
        · contradiction
      · rintro ⟨pool', manager'⟩ allocated
        obtain ⟨⟨newBlocks, after, extended⟩, ran, allocated⟩ := bind_eq_ok.mp allocated
        cases allocated
        rcases extendBlocks_effect consistent ran with ⟨grown, cost, table, length, pending⟩
        have frame := extendBlocks_onlyFor ran
        refine ⟨grown, ?_, ⟨frame, ?_⟩, pending⟩
        · dsimp only
          rw [fund, need_eq frame.settings notRing, pending, table, List.length_append, length]
          omega
        · rw [table, List.length_append]
          omega

/-- The redirect of a partial hit takes one block. -/
theorem redirectPartialHit_effect (consistent : Consistent pool) {cowBlocks : List BlockId}
    (redirected : redirectPartialHit pool manager requestId = .ok (cowBlocks, pool', manager')) :
    Grown pool pool' ∧
      pool.getNumFreeBlocks ≤ pool'.getNumFreeBlocks +
        (manager.partialHitReqs.get? requestId).isSome.toNat ∧
      (manager'.blocksOf requestId).length = (manager.blocksOf requestId).length ∧
      manager'.partialHitReqs.get? requestId = none := by
  rcases redirectPartialHit_cases consistent redirected with
    ⟨settled, _, rfl, rfl⟩ | ⟨blockIdx, sourceBlock, cowBlock, middle, applied, pending, got, ran,
      _, rfl⟩
  · refine ⟨.refl consistent, ?_, rfl, settled⟩
    omega
  · have cost := consistent.getNewBlocks_cost got
    have moved := moved_of_cow consistent got ran
    rcases applyCow_eq_ok ran with ⟨_, _, _, poolEq, rfl⟩
    have grown : Grown pool pool' := by
      refine ⟨moved.config, moved.consistent, fun block => Int.le_trans (cost.1.refCnt block) ?_⟩
      rw [poolEq]
      by_cases same : block = cowBlock
      · subst same
        simp only [setBlock, Function.update_self]
        omega
      · simp only [setBlock, Function.update_of_ne same]
        exact Int.le_refl _
    refine ⟨grown, ?_, ?_, Dict.get?_erase_self ..⟩
    · have queue : pool'.getNumFreeBlocks = middle.getNumFreeBlocks := by
        rw [poolEq]
        rfl
      rw [queue, pending]
      exact cost.2
    · change ((SingleTypeKVCacheManager.setBlocks _ _ _).blocksOf requestId).length = _
      rw [blocksOf_setBlocks_self, List.length_set]
      rfl

theorem redirectPartialHit_failure (consistent : Consistent pool)
    (enough : ((manager.partialHitReqs.get? requestId).isSome.toNat : Int) ≤
      pool.getNumFreeBlocks) (raised : redirectPartialHit pool manager requestId = .error failure) :
    ¬ OutOfBlocks failure := by
  unfold redirectPartialHit at raised
  split at raised
  · contradiction
  · rename_i blockIdx sourceBlock pending
    rw [pending] at enough
    rcases bind_eq_error.mp raised with first | ⟨_, _, raised⟩
    · exact absurd first (consistent.getNewBlocks_ne_error enough)
    rcases bind_eq_error.mp raised with second | ⟨_, _, raised⟩
    · rw [eq_indexError_of_pyIndex second]
      exact not_outOfBlocks_indexError
    rcases bind_eq_error.mp raised with third | ⟨_, _, raised⟩
    · suffices failure = .assertionError by
        rw [this]
        exact not_outOfBlocks_assertionError
      rcases bind_eq_error.mp third with located | ⟨_, _, third⟩
      · exact eq_assertionError_of_pyAssert located
      rcases bind_eq_error.mp third with usable | ⟨_, _, third⟩
      · exact eq_assertionError_of_pyAssert usable
      · contradiction
    · contradiction

/-- The base class allocates exactly what the request needs. -/
theorem baseAllocateNewBlocks_funded (consistent : Consistent pool)
    (notRing : manager.kvCacheSpec.kind ≠ .circularBuffer) :
    Funded pool (manager.need requestId numTokens) (·.2.1) (fun _ => 0)
      (fun allocated => Extends requestId manager allocated.2.2 ∧
        allocated.2.2.partialHitReqs.get? requestId = none ∧
        cdiv numTokens manager.blockSize ≤ (allocated.2.2.blocksOf requestId).length)
      (baseAllocateNewBlocks pool manager requestId numTokens) := by
  have fund := @need_eq _ manager _ requestId rfl notRing numTokens
  constructor
  · intro failure raised enough
    rcases bind_eq_error.mp raised with first | ⟨⟨cowBlocks, middle, redirected⟩, first, raised⟩
    · exact redirectPartialHit_failure consistent (by omega) first
    · rcases redirectPartialHit_effect consistent first with ⟨grown, cost, length, _⟩
      have frame := redirectPartialHit_onlyFor consistent first
      have size : redirected.blockSize = manager.blockSize :=
        blockSize_of_settings frame.settings
      have ensured := (redirected.ensureBlocks_sameTables requestId).blocksOf requestId
      have ensuredSize : (redirected.ensureBlocks requestId).blockSize = manager.blockSize := size
      dsimp only at raised
      rw [ensured, ensuredSize] at raised
      split at raised
      · contradiction
      · rcases bind_eq_error.mp raised with second | ⟨_, _, raised⟩
        · exact absurd second (extendBlocks_ne_error grown.consistent (by omega))
        · contradiction
  · rintro ⟨newBlocks, pool', manager'⟩ allocated
    rcases baseAllocateNewBlocks_cases allocated with ⟨cowBlocks, middle, redirected, first, rest⟩
    rcases redirectPartialHit_effect consistent first with ⟨grown, cost, length, settled⟩
    have frame := redirectPartialHit_onlyFor consistent first
    have size : redirected.blockSize = manager.blockSize :=
      blockSize_of_settings frame.settings
    have ensured := (redirected.ensureBlocks_sameTables requestId).blocksOf requestId
    have ensuredFrame := frame.trans (redirected.ensureBlocks_onlyFor requestId)
    rw [size] at rest
    rcases rest with ⟨enough, _, rfl, rfl⟩ | ⟨taken, extended, _⟩
    · refine ⟨grown, by dsimp only; omega, ⟨ensuredFrame, ?_⟩, settled, ?_⟩
      · rw [ensured]
        omega
      · rw [ensured]
        exact enough
    · rcases extendBlocks_effect grown.consistent extended with
        ⟨more, paid, table, count, pending⟩
      have whole := ensuredFrame.trans (extendBlocks_onlyFor extended)
      refine ⟨grown.trans more, by dsimp only; omega, ⟨whole, ?_⟩, ?_, ?_⟩
      · rw [table, List.length_append, ensured]
        omega
      · rw [pending]
        exact settled
      · rw [table, List.length_append, ensured]
        omega

/-- A request was given slots for `numTokens` tokens. -/
structure Served (requestId : RequestId) (numTokens : Nat)
    (manager manager' : SingleTypeKVCacheManager H) : Prop where
  extended : Extends requestId manager manager'
  settled : (manager.kvCacheSpec.kind = .circularBuffer →
      manager.partialHitReqs.get? requestId = none) →
    manager'.partialHitReqs.get? requestId = none
  slots : manager.kvCacheSpec.kind ≠ .circularBuffer →
    cdiv numTokens manager.blockSize ≤ (manager'.blocksOf requestId).length

/-- The allocation of an attention manager takes what the request needs. -/
theorem allocateNewBlocks_funded (consistent : Consistent pool) (attention : manager.IsAttention)
    (numTokens numTokensMainModel : Nat) :
    Funded pool (manager.need requestId numTokens) (·.2.1) (fun _ => 0)
      (fun allocated => Served requestId numTokens manager allocated.2.2)
      (allocateNewBlocks pool manager requestId numTokens numTokensMainModel) := by
  unfold allocateNewBlocks
  split
  · rename_i ring
    exact (claimRingBlock_funded consistent numTokens ring).weaken le_rfl
      (fun _ _ => Nat.zero_le _) fun _ claimed =>
        ⟨claimed.1, fun settled => claimed.2 ▸ settled ring, fun notRing => absurd ring notRing⟩
  · rename_i kind
    simp [IsAttention, KVCacheSpec.isMamba, kind] at attention
  · rename_i notRing _
    exact (baseAllocateNewBlocks_funded consistent notRing).weaken le_rfl
      (fun _ _ => le_rfl) fun _ allocated =>
        ⟨allocated.1, fun _ => allocated.2.1, fun _ => allocated.2.2⟩

end Calls

end SingleTypeKVCacheManager

/-! ## Rounds of an allocation -/

namespace KVCacheCoordinator

section Rounds

variable (requestId : RequestId) (numTokens numEncoderTokens : Nat)
  (hits : List (List BlockId)) (numLocal numExternal : Nat)

/-- The tokens that a group provides for. -/
def tokensFor (manager : SingleTypeKVCacheManager H) : Nat :=
  if manager.kvCacheSpec.isCrossAttention then numEncoderTokens else numTokens

/-- The demand of group `i`. -/
def demandFor (pool : BlockPool H) (i : Nat) (manager : SingleTypeKVCacheManager H) : Nat :=
  if manager.kvCacheSpec.isCrossAttention then
    manager.demand pool requestId numEncoderTokens [] 0 0
  else
    manager.demand pool requestId numTokens (hits.getD i []) (numLocal + numExternal) numLocal

/-- The need of a group. -/
def needFor (_ : Nat) (manager : SingleTypeKVCacheManager H) : Nat :=
  manager.need requestId (tokensFor numTokens numEncoderTokens manager)

/-- Without hits the demand of an unknown or settled request is its need, where
the window has not moved past its table. -/
theorem demandFor_eq_needFor {start : BlockPool H} {i : Nat} {manager : SingleTypeKVCacheManager H}
    (settled : manager.partialHitReqs.get? requestId = none) (noHits : hits.getD i [] = [])
    (window : manager.kvCacheSpec.isCrossAttention = false →
      manager.kvCacheSpec.kind ≠ .circularBuffer → manager.isTracked requestId = false →
      manager.getNumSkippedBlocks (numLocal + numExternal) ≤ (manager.blocksOf requestId).length) :
    demandFor requestId numTokens numEncoderTokens hits numLocal numExternal start i manager =
      needFor requestId numTokens numEncoderTokens i manager := by
  have plain : ∀ tokens totalComputed local',
      (manager.kvCacheSpec.kind ≠ .circularBuffer → manager.isTracked requestId = false →
        manager.getNumSkippedBlocks totalComputed ≤ (manager.blocksOf requestId).length) →
      manager.demand start requestId tokens [] totalComputed local' =
        manager.need requestId tokens := by
    intro tokens totalComputed local' window
    unfold demand need
    rw [settled]
    split
    · split <;> simp_all
    · rename_i notRing
      split
      · simp
      · rename_i untracked
        have := window notRing (Bool.not_eq_true _ ▸ untracked)
        simp only [List.length_nil, Nat.zero_add, List.drop_nil, hasPartialLocalHit,
          getNumEvictableBlocks, List.countP_nil, Option.isSome_none, Bool.toNat_false,
          Nat.add_zero, ne_eq, not_true_eq_false, false_and, decide_false]
        omega
  unfold demandFor needFor tokensFor
  split
  · rename_i cross
    apply plain
    intro _ _
    have skipped : manager.getNumSkippedBlocks 0 = 0 := by
      have := manager.getNumSkippedTokens_le 0
      unfold getNumSkippedBlocks
      rw [Nat.le_zero.mp this, Nat.zero_div]
    rw [skipped]
    exact Nat.zero_le _
  · rename_i notCross
    rw [noHits]
    exact plain _ _ _ (window (Bool.not_eq_true _ ▸ notCross))

theorem isCrossAttention_eq_true {spec : KVCacheSpec} :
    spec.isCrossAttention = true ↔ spec.kind = .crossAttention := by
  unfold KVCacheSpec.isCrossAttention
  split <;> simp_all

theorem needFor_of_extends {manager manager' : SingleTypeKVCacheManager H}
    (extended : Extends requestId manager manager') (i : Nat) :
    needFor requestId numTokens numEncoderTokens i manager' =
      manager'.need requestId (tokensFor numTokens numEncoderTokens manager) := by
  unfold needFor tokensFor
  rw [kvCacheSpec_of_settings extended.1.settings]

variable {coordinator : KVCacheCoordinator H}

/-- The round over the local hits. -/
theorem addLocalComputedBlocks_fundedRound (consistent : Consistent coordinator.blockPool)
    (valid : ∀ blocks ∈ hits, ∀ block ∈ blocks, block < coordinator.blockPool.numGpuBlocks)
    (ready : AllManagers (fun _ manager => manager.IsAttention ∧ Unknown requestId manager) 0
      coordinator.singleTypeManagers) :
    Funded coordinator.blockPool
      (fundOf (demandFor requestId numTokens numEncoderTokens hits numLocal numExternal
        coordinator.blockPool) 0 coordinator.singleTypeManagers) (·.blockPool)
      (fun added => fundOf (needFor requestId numTokens numEncoderTokens) 0
        added.singleTypeManagers)
      (fun added => AllManagers (fun _ manager => manager.IsAttention) 0 added.singleTypeManagers)
      (coordinator.visitManagers fun i pool manager => do
        let blocks ← pyIndex hits i
        manager.addLocalComputedBlocks pool requestId blocks numLocal numExternal) := by
  refine visitManagers_funded ?_ consistent ready
  rintro i pool manager grown ⟨attention, empty, untracked, settled, _⟩
  cases located : pyIndex hits i with
  | error failure =>
      rw [eq_indexError_of_pyIndex located]
      exact .error not_outOfBlocks_indexError
  | ok blocks =>
      have listed := pyIndex_eq_ok.mp located
      have here : hits.getD i [] = blocks := by
        rw [List.getD_eq_getElem?_getD, listed]
        rfl
      have inPool : ∀ block ∈ blocks, block < pool.numGpuBlocks := by
        intro block member
        rw [grown.config.numGpuBlocks]
        exact valid blocks (List.mem_of_getElem? listed) block member
      change Funded pool _ _ _ _ (manager.addLocalComputedBlocks pool requestId blocks _ _)
      unfold addLocalComputedBlocks
      split
      · rename_i ring
        refine .ok (.refl grown.consistent) (Int.le_of_eq ?_) attention
        have notCross : ¬ manager.kvCacheSpec.isCrossAttention = true := by
          rw [isCrossAttention_eq_true, ring]
          exact fun impossible => by contradiction
        unfold needFor demandFor tokensFor demand need
        rw [if_neg notCross, if_neg notCross, if_pos ring, if_pos ring, empty]
        rfl
      · rename_i cross
        have isCross := isCrossAttention_eq_true.mpr cross
        by_cases none : blocks.length = 0
        · have same := @demandFor_eq_needFor _ requestId numTokens numEncoderTokens hits numLocal
            numExternal coordinator.blockPool i _ settled
            (here.trans (List.eq_nil_of_length_eq_zero none))
            (fun notCross => by rw [isCross] at notCross; contradiction)
          rw [same]
          simp only [pyAssert, none, if_true]
          exact .ok (.refl grown.consistent) (Int.le_refl _) attention
        · simp only [pyAssert, none, if_false]
          exact .error not_outOfBlocks_assertionError
      · rename_i notRing notCross
        have isPlain : ¬ manager.kvCacheSpec.isCrossAttention = true := fun cross =>
          notCross (isCrossAttention_eq_true.mp cross)
        have fund : demandFor requestId numTokens numEncoderTokens hits numLocal numExternal
            coordinator.blockPool i manager = manager.demand coordinator.blockPool requestId
              numTokens blocks (numLocal + numExternal) numLocal := by
          unfold demandFor
          rw [if_neg isPlain, here]
        rw [fund]
        refine (addLocalHits_funded consistent grown settled untracked inPool notRing).weaken
          le_rfl (fun added extended => ?_) (fun added extended => ?_)
        · rw [needFor_of_extends requestId numTokens numEncoderTokens extended, tokensFor,
            if_neg isPlain]
        · unfold IsAttention
          rw [kvCacheSpec_of_settings extended.1.settings]
          exact attention

variable [DecidableEq H]

/-- The coordinator's prediction is the sum of the demands, and the managers note
nothing. -/
theorem getNumBlocksToAllocate_eq_demand {coordinator' : KVCacheCoordinator H}
    (attention : ∀ manager ∈ coordinator.singleTypeManagers, manager.IsAttention)
    {numTokensMainModel : Nat} {count : Int}
    (predicted : coordinator.getNumBlocksToAllocate requestId numTokens hits numEncoderTokens
      (numLocal + numExternal) numLocal numTokensMainModel false = .ok (count, coordinator')) :
    coordinator' = coordinator ∧ count = fundOf (demandFor requestId numTokens numEncoderTokens
      hits numLocal numExternal coordinator.blockPool) 0 coordinator.singleTypeManagers := by
  obtain ⟨⟨counts, pool, managers⟩, visited, predicted⟩ := bind_eq_ok.mp predicted
  cases predicted
  suffices ∀ i (managers managers' : List (SingleTypeKVCacheManager H)) counts pool',
      (∀ manager ∈ managers, manager.IsAttention) →
      forManagers (fun i pool manager => do
        let asked ←
          (if manager.kvCacheSpec.isCrossAttention then
            manager.getNumBlocksToAllocate pool requestId numEncoderTokens [] 0 0
              numEncoderTokens false
          else do
            let blocks ← pyIndex hits i
            manager.getNumBlocksToAllocate pool requestId numTokens blocks
              (numLocal + numExternal) numLocal numTokensMainModel false)
        pure (asked.1, pool, asked.2)) i coordinator.blockPool managers =
          .ok (counts, pool', managers') →
      pool' = coordinator.blockPool ∧ managers' = managers ∧
        counts.sum = (fundOf (demandFor requestId numTokens numEncoderTokens hits numLocal
          numExternal coordinator.blockPool) i managers : Int) by
    rcases this 0 _ _ _ _ attention visited with ⟨rfl, rfl, total⟩
    exact ⟨rfl, total⟩
  intro i managers
  induction managers generalizing i with
  | nil =>
      intro managers' counts pool' _ ran
      cases ran
      exact ⟨rfl, rfl, rfl⟩
  | cons manager rest ih =>
      intro managers' counts pool' attention ran
      obtain ⟨⟨_, middle, _⟩, first, ran⟩ := bind_eq_ok.mp ran
      obtain ⟨⟨others, last, tail⟩, second, ran⟩ := bind_eq_ok.mp ran
      cases ran
      obtain ⟨⟨count, noted⟩, called, first⟩ := bind_eq_ok.mp first
      cases first
      rcases ih (i + 1) _ _ _ (fun other member => attention other (.tail _ member)) second with
        ⟨rfl, rfl, total⟩
      have here : noted = manager ∧ count = (demandFor requestId numTokens numEncoderTokens hits
          numLocal numExternal coordinator.blockPool i manager : Int) := by
        unfold demandFor
        split at called
        · rename_i cross
          rw [if_pos cross]
          exact getNumBlocksToAllocate_attention (attention manager (.head _)) called
        · rename_i notCross
          obtain ⟨blocks, located, called⟩ := bind_eq_ok.mp called
          rw [if_neg notCross, List.getD_eq_getElem?_getD, pyIndex_eq_ok.mp located]
          exact getNumBlocksToAllocate_attention (attention manager (.head _)) called
      rcases here with ⟨rfl, rfl⟩
      refine ⟨rfl, rfl, ?_⟩
      rw [List.sum_cons, total]
      exact (Int.natCast_add _ _).symm

variable [BlockHashing H]

/-- The round over the external tokens. -/
theorem allocateExternalComputedBlocks_fundedRound (consistent : Consistent coordinator.blockPool)
    (within : numLocal + numExternal ≤ numTokens)
    (ready : AllManagers (fun _ manager => manager.IsAttention) 0 coordinator.singleTypeManagers) :
    Funded coordinator.blockPool
      (fundOf (needFor requestId numTokens numEncoderTokens) 0 coordinator.singleTypeManagers)
      (·.blockPool)
      (fun after => fundOf (needFor requestId numTokens numEncoderTokens) 0
        after.singleTypeManagers)
      (fun after => AllManagers (fun _ manager => manager.IsAttention) 0 after.singleTypeManagers)
      (coordinator.visitManagers fun _ pool manager =>
        manager.allocateExternalComputedBlocks pool requestId numLocal numExternal) := by
  refine visitManagers_funded ?_ consistent ready
  intro i pool manager grown attention
  refine (allocateExternalComputedBlocks_funded grown.consistent fun notCross => ?_).weaken
    le_rfl (fun after extended => ?_) (fun after extended => ?_)
  · unfold tokensFor
    rw [if_neg fun cross => notCross (isCrossAttention_eq_true.mp cross)]
    exact within
  · rw [needFor_of_extends requestId numTokens numEncoderTokens extended.1]
  · unfold IsAttention
    rw [kvCacheSpec_of_settings extended.1.1.settings]
    exact attention

/-- The round over the new blocks. -/
theorem allocateNewBlocks_fundedRound (consistent : Consistent coordinator.blockPool)
    (numTokensMainModel : Nat) (ready : AllManagers (fun _ manager => manager.IsAttention) 0
      coordinator.singleTypeManagers) :
    Funded coordinator.blockPool
      (fundOf (needFor requestId numTokens numEncoderTokens) 0 coordinator.singleTypeManagers)
      (·.2.blockPool) (fun _ => 0) (fun _ => True)
      (coordinator.allocateNewBlocks requestId numTokens numTokensMainModel numEncoderTokens) := by
  have round := forManagers_funded (needFor requestId numTokens numEncoderTokens) (fun _ _ => 0)
    (fun _ manager => manager.IsAttention) (fun _ _ => True)
    (fun i pool manager grown attention =>
      (allocateNewBlocks_funded grown.consistent attention
        (tokensFor numTokens numEncoderTokens manager) numTokensMainModel).weaken le_rfl
          (fun _ _ => le_rfl) (fun _ _ => trivial))
    (.refl consistent) ready
  exact round.bind fun _ _ grown _ =>
    .ok (.refl grown.consistent) (Int.add_le_add_left (Int.natCast_nonneg _) _) trivial

end Rounds

end KVCacheCoordinator

end Vllm.Core
