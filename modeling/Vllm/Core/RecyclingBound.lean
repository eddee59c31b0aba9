import Mathlib.Data.List.TakeWhile
import Vllm.Core.AdmissionRuns
import Vllm.Core.SkippedBlocks

/-!
# The blocks that a request holds

A window or a local chunk gives its blocks back while the request goes on.  Between the first
block that is not yet given back and the last one that is allocated lie no more blocks than the
cap that sizes the pool and admits requests.
-/

namespace Vllm.Core

open Vllm.Library BlockPool SingleTypeKVCacheManager

/-! ## Counting blocks over a range of tokens -/

/-- A range of tokens needs one block more than its length when it starts inside a block. -/
theorem cdiv_sub_div_le {size first last span : Nat} (positive : 0 < size)
    (within : last ≤ first + span) :
    cdiv last size - first / size ≤ cdiv span size + if size ∣ first then 0 else 1 := by
  have whole := le_cdiv_mul positive span
  have split := Nat.div_add_mod first size
  have inside := Nat.mod_lt first positive
  rw [← not_lt, Nat.lt_sub_iff_add_lt, lt_cdiv_iff positive, Nat.add_mul, Nat.add_mul, not_lt,
    Nat.mul_comm (first / size)]
  split
  · rename_i aligned
    omega
  · rw [Nat.one_mul]
    omega

/-- How many blocks of a table are not null. -/
def heldBlocks (table : List BlockId) : Nat :=
  table.countP (· ≠ nullBlock)

variable {table : List BlockId}

theorem NullsFirst.heldBlocks_eq {count : Nat} (nulls : NullsFirst count table) :
    heldBlocks table = table.length - count := by
  rcases nulls with ⟨rest, rfl, kept⟩
  have all : rest.countP (· ≠ nullBlock) = rest.length := by
    rw [List.countP_eq_length]
    intro block member
    exact decide_eq_true fun null => kept (null ▸ member)
  rw [heldBlocks, List.countP_append, List.countP_replicate, all, List.length_append,
    List.length_replicate]
  simp

/-- The table starts with at least `front` null blocks and has at most `limit` entries. -/
def Fronted (front limit : Nat) (table : List BlockId) : Prop :=
  table.length ≤ limit ∧ ∃ count, front ≤ count ∧ NullsFirst count table

theorem Fronted.heldBlocks_le {front limit : Nat} (fronted : Fronted front limit table) :
    heldBlocks table ≤ limit - front := by
  rcases fronted with ⟨length, count, most, nulls⟩
  rw [nulls.heldBlocks_eq]
  omega

/-! ## What the calls do to one table -/

section Calls

variable {H : Type} {pool pool' : BlockPool H} {manager manager' : SingleTypeKVCacheManager H}
  {requestId : RequestId} {limit : Nat}

/-- The call leaves the null blocks where they are and fills the table up to `limit` entries. -/
structure Fills (requestId : RequestId) (limit : Nat)
    (manager manager' : SingleTypeKVCacheManager H) : Prop where
  nulls : KeepsNulls requestId manager manager'
  length : (manager.blocksOf requestId).length ≤ limit →
    (manager'.blocksOf requestId).length ≤ limit

theorem Fills.trans {middle : SingleTypeKVCacheManager H}
    (first : Fills requestId limit manager middle)
    (second : Fills requestId limit middle manager') : Fills requestId limit manager manager' :=
  ⟨first.nulls.trans second.nulls, fun before => second.length (first.length before)⟩

theorem Fills.of_sameTables (same : SameTables manager manager') :
    Fills requestId limit manager manager' :=
  ⟨.of_sameTables same, fun before => by rwa [same.blocksOf]⟩

theorem Fills.fronted {front : Nat} (fills : Fills requestId limit manager manager')
    (fronted : Fronted front limit (manager.blocksOf requestId)) :
    Fronted front limit (manager'.blocksOf requestId) := by
  rcases fronted with ⟨length, count, most, nulls⟩
  exact ⟨fills.length length, count, most, fills.nulls.nulls count nulls⟩

variable [DecidableEq H] [BlockHashing H]

variable {newBlocks : List BlockId}

theorem extendBlocks_fills {count : Nat} (consistent : Consistent pool)
    (enough : (manager.blocksOf requestId).length ≤ limit →
      (manager.blocksOf requestId).length + count ≤ limit)
    (extended : extendBlocks pool manager requestId count = .ok (newBlocks, pool', manager')) :
    Fills requestId limit manager manager' := by
  constructor
  · exact extendBlocks_keepsNulls consistent extended
  · intro before
    rcases extendBlocks_eq_ok extended with ⟨got, rfl⟩
    rcases consistent.getNewBlocks got with ⟨_, length, _⟩
    have recorded := recordBlocks_sameTables
      (manager.setBlocks requestId (manager.blocksOf requestId ++ newBlocks)) newBlocks
    rw [recorded.blocksOf, blocksOf_setBlocks_self, List.length_append, length]
    exact enough before

theorem redirectPartialHit_fills {cowBlocks : List BlockId} (consistent : Consistent pool)
    (redirected : redirectPartialHit pool manager requestId = .ok (cowBlocks, pool', manager')) :
    Fills requestId limit manager manager' := by
  constructor
  · exact redirectPartialHit_keepsNulls consistent redirected
  · intro before
    rcases redirectPartialHit_cases consistent redirected with
      ⟨_, _, _, rfl⟩ | ⟨blockIdx, sourceBlock, cowBlock, middle, applied, _, _, ran, _, rfl⟩
    · exact before
    · rcases applyCow_eq_ok ran with ⟨_, _, _, _, rfl⟩
      have table := blocksOf_setBlocks_self manager requestId
        ((manager.blocksOf requestId).set blockIdx cowBlock)
      have length_eq := congrArg List.length table
      rw [List.length_set] at length_eq
      exact (le_of_eq length_eq).trans before

theorem baseAllocateNewBlocks_fills {numTokens : Nat} (consistent : Consistent pool)
    (enough : cdiv numTokens manager.blockSize ≤ limit)
    (allocated : baseAllocateNewBlocks pool manager requestId numTokens =
      .ok (newBlocks, pool', manager')) : Fills requestId limit manager manager' := by
  rcases baseAllocateNewBlocks_cases allocated with ⟨cowBlocks, middle, redirected, ran, rest⟩
  have first := @redirectPartialHit_fills _ _ _ _ _ _ limit _ _ _ consistent ran
  have ensured : Fills requestId limit redirected (redirected.ensureBlocks requestId) :=
    .of_sameTables (redirected.ensureBlocks_sameTables requestId)
  rcases rest with ⟨_, _, _, rfl⟩ | ⟨taken, extended, _⟩
  · exact first.trans ensured
  · refine (first.trans ensured).trans (extendBlocks_fills
      (redirectPartialHit_moved consistent ran).consistent ?_ extended)
    have size := blockSize_of_settings first.nulls.settings
    rw [(redirected.ensureBlocks_sameTables requestId).blocksOf, size]
    omega

theorem allocateExternalHits_fills {numLocal numExternal : Nat} (consistent : Consistent pool)
    (enough : cdiv (numLocal + numExternal) manager.blockSize ≤ limit)
    (allocated : allocateExternalHits pool manager requestId numLocal numExternal =
      .ok (pool', manager')) : Fills requestId limit manager manager' := by
  unfold allocateExternalHits at allocated
  split at allocated
  · cases allocated
    exact .of_sameTables (.refl manager)
  · rcases bind_eq_ok.mp allocated with ⟨⟨newBlocks, after, extended⟩, ran, done⟩
    cases done
    exact extendBlocks_fills consistent (by omega) ran

end Calls

/-! ## The cap -/

section Cap

variable {H : Type} {manager manager' : SingleTypeKVCacheManager H}
  {maxInFlightTokens maxModelLen processed needed : Nat}

theorem kind_of_front (front : manager.kvCacheSpec.kind.releasesFront = true) :
    manager.IsAttention ∧ manager.kvCacheSpec.isCrossAttention = false ∧
      manager.kvCacheSpec.kind ≠ .circularBuffer := by
  unfold IsAttention KVCacheSpec.isMamba KVCacheSpec.isCrossAttention
  cases kindEq : manager.kvCacheSpec.kind with
  | slidingWindow _ _ | chunkedLocalAttention _ => exact ⟨rfl, rfl, nofun⟩
  | fullAttention | rswa _ | circularBuffer | mamba _ _ _ | crossAttention =>
      rw [kindEq] at front
      cases front

/-- A chunk that ends inside a block makes a request hold one block more. -/
def straddle (manager : SingleTypeKVCacheManager H) : Nat :=
  match manager.kvCacheSpec.kind with
  | .chunkedLocalAttention attentionChunkSize =>
      if manager.blockSize ∣ attentionChunkSize then 0 else 1
  | _ => 0

/-- What a manager of the coordinator is set up with. -/
structure Capped (maxInFlightTokens maxModelLen : Nat) (manager : SingleTypeKVCacheManager H) :
    Prop where
  cap : manager.maxAdmissionBlocksPerRequest =
    manager.kvCacheSpec.maxAdmissionBlocksPerRequest maxInFlightTokens maxModelLen
  size : manager.kvCacheSpec.kind.releasesFront = true →
    manager.blockSize = manager.kvCacheSpec.blockSize
  chunk : manager.kvCacheSpec.kind ≠ .chunkedLocalAttention 0

theorem maxAdmission_of_settings (same : manager'.settings = manager.settings) :
    manager'.maxAdmissionBlocksPerRequest = manager.maxAdmissionBlocksPerRequest := by
  have cap_eq : manager'.settings.maxAdmissionBlocksPerRequest =
      manager.settings.maxAdmissionBlocksPerRequest := by rw [same]
  exact cap_eq

theorem Capped.of_settings (capped : Capped maxInFlightTokens maxModelLen manager)
    (same : manager'.settings = manager.settings) :
    Capped maxInFlightTokens maxModelLen manager' := by
  constructor
  · rw [kvCacheSpec_of_settings same, maxAdmission_of_settings same]
    exact capped.cap
  · rw [kvCacheSpec_of_settings same, blockSize_of_settings same]
    exact capped.size
  · rw [kvCacheSpec_of_settings same]
    exact capped.chunk

/-- The tokens behind the window are few enough for the cap. -/
theorem Capped.resident_le (capped : Capped maxInFlightTokens maxModelLen manager)
    (front : manager.kvCacheSpec.kind.releasesFront = true) (inFlight : needed ≤ processed +
      maxInFlightTokens) (within : needed ≤ maxModelLen) :
    ∃ cap, manager.maxAdmissionBlocksPerRequest = some cap ∧
      (∀ count, processed ≤ count * manager.blockSize →
        cdiv needed manager.blockSize - count ≤ cap) ∧
      cdiv needed manager.blockSize - manager.getNumSkippedBlocks processed ≤
        cap + straddle manager := by
  have positive := manager.blockSize_pos
  have cap_eq := capped.cap
  have size := capped.size front
  unfold KVCacheSpec.maxAdmissionBlocksPerRequest at cap_eq
  unfold straddle getNumSkippedBlocks getNumSkippedTokens
  have whole (span count : Nat) (enough : min maxInFlightTokens maxModelLen ≤ span)
      (covered : processed ≤ count * manager.blockSize) :
      cdiv needed manager.blockSize - count ≤ cdiv span manager.blockSize := by
    have bound := @cdiv_sub_div_le _ (count * manager.blockSize) needed span positive (by omega)
    rwa [Nat.mul_div_cancel _ positive, if_pos (Nat.dvd_mul_left ..)] at bound
  cases kindEq : manager.kvCacheSpec.kind with
  | slidingWindow window extra =>
      rw [kindEq, ← size] at cap_eq
      dsimp only
      refine ⟨_, cap_eq, fun count covered => ?_, ?_⟩
      · exact (whole _ count (by omega) covered).trans (Nat.le_succ _)
      · refine (@cdiv_sub_div_le _ _ needed
          (min (window - 1 + extra + maxInFlightTokens) maxModelLen) positive (by omega)).trans ?_
        split <;> omega
  | chunkedLocalAttention chunk =>
      rw [kindEq, ← size] at cap_eq
      have chunk_pos : 0 < chunk := Nat.pos_of_ne_zero fun zero =>
        capped.chunk (zero ▸ kindEq)
      have split := Nat.div_add_mod' processed chunk
      have inside := Nat.mod_lt processed chunk_pos
      dsimp only
      refine ⟨_, cap_eq, fun count covered => whole _ count (by omega) covered, ?_⟩
      refine (@cdiv_sub_div_le _ _ needed (min (chunk + maxInFlightTokens) maxModelLen) positive
        (by omega)).trans ?_
      apply Nat.add_le_add_left
      split
      · exact Nat.zero_le _
      · rename_i unaligned
        rw [if_neg fun aligned => unaligned (Nat.dvd_mul_left_of_dvd aligned _)]
  | fullAttention | rswa _ | circularBuffer | mamba _ _ _ | crossAttention =>
      rw [kindEq] at front
      cases front

end Cap

/-! ## The table of a request between two calls -/

section Table

variable {H : Type} {pool pool' : BlockPool H} {manager manager' : SingleTypeKVCacheManager H}
  {requestId : RequestId} {maxInFlightTokens maxModelLen processed needed : Nat}

/-- What a table keeps to when `processed` tokens have come back. -/
structure Held (requestId : RequestId) (maxInFlightTokens maxModelLen processed : Nat)
    (manager : SingleTypeKVCacheManager H) : Prop where
  nulls : NullPrefix (manager.blocksOf requestId)
  length : (manager.blocksOf requestId).length ≤
    cdiv (min (processed + maxInFlightTokens) maxModelLen) manager.blockSize
  held : ∀ cap, manager.maxAdmissionBlocksPerRequest = some cap →
    heldBlocks (manager.blocksOf requestId) ≤ cap + straddle manager

/-- The blocks below the window of `processed` tokens are null, as far as the table goes. -/
def ReleasedTo (requestId : RequestId) (processed : Nat) (manager : SingleTypeKVCacheManager H) :
    Prop :=
  ∃ count, NullsFirst count (manager.blocksOf requestId) ∧
    min (manager.getNumSkippedBlocks processed) (manager.blocksOf requestId).length ≤ count

/-- However the table is filled up for `needed` tokens, it keeps to the cap. -/
def StaysBelow (requestId : RequestId) (needed : Nat) (manager : SingleTypeKVCacheManager H) :
    Prop :=
  ∃ front, Fronted front (cdiv needed manager.blockSize) (manager.blocksOf requestId) ∧
    ∀ cap, manager.maxAdmissionBlocksPerRequest = some cap →
      cdiv needed manager.blockSize - front ≤ cap + straddle manager

theorem straddle_of_settings (same : manager'.settings = manager.settings) :
    straddle manager' = straddle manager := by
  unfold straddle
  rw [kvCacheSpec_of_settings same, blockSize_of_settings same]

theorem Held.of_same (held : Held requestId maxInFlightTokens maxModelLen processed manager)
    (same : manager'.settings = manager.settings)
    (table : manager'.blocksOf requestId = manager.blocksOf requestId) :
    Held requestId maxInFlightTokens maxModelLen processed manager' := by
  constructor
  · rw [table]
    exact held.nulls
  · rw [table, blockSize_of_settings same]
    exact held.length
  · rw [table, maxAdmission_of_settings same, straddle_of_settings same]
    exact held.held

theorem Held.mono {later : Nat}
    (held : Held requestId maxInFlightTokens maxModelLen processed manager)
    (le : processed ≤ later) : Held requestId maxInFlightTokens maxModelLen later manager :=
  ⟨held.nulls, held.length.trans (cdiv_mono (by omega) _), held.held⟩

theorem Held.empty (table : manager.blocksOf requestId = []) :
    Held requestId maxInFlightTokens maxModelLen processed manager := by
  constructor
  · rw [table]
    exact .nil
  · rw [table]
    exact Nat.zero_le _
  · rw [table]
    exact fun _ _ => Nat.zero_le _

theorem ReleasedTo.of_same (released : ReleasedTo requestId processed manager)
    (same : manager'.settings = manager.settings)
    (table : manager'.blocksOf requestId = manager.blocksOf requestId) :
    ReleasedTo requestId processed manager' := by
  unfold ReleasedTo
  rw [table, getNumSkippedBlocks_of_settings same]
  exact released

/-- A release, at whatever number of tokens. -/
theorem Held.release {before : Nat} {numPromptTokens : Option Nat}
    (held : Held requestId maxInFlightTokens maxModelLen before manager)
    (front : manager.kvCacheSpec.kind.releasesFront = true)
    (ran : removeSkippedBlocks pool manager requestId processed numPromptTokens =
      .ok (pool', manager')) :
    manager'.settings = manager.settings ∧
      Held requestId maxInFlightTokens maxModelLen before manager' ∧
      ReleasedTo requestId processed manager' := by
  rcases held.nulls with ⟨count, nulls⟩
  rw [removeSkippedBlocks_of_front front] at ran
  rcases baseRemoveSkippedBlocks_eq rfl rfl nulls ran with ⟨settings, table, -⟩
  have size_le := Nat.min_le_right (manager.getNumSkippedBlocks processed)
    (manager.blocksOf requestId).length
  have after := nulls.extend size_le
  rw [← table] at after
  have length_eq : (manager'.blocksOf requestId).length = (manager.blocksOf requestId).length := by
    rw [table, List.length_append, List.length_replicate, List.length_drop,
      Nat.add_sub_cancel' size_le]
  refine ⟨settings, ⟨⟨_, after⟩, ?_, ?_⟩, _, after, ?_⟩
  · rw [length_eq, blockSize_of_settings settings]
    exact held.length
  · intro cap isCap
    rw [maxAdmission_of_settings settings] at isCap
    have most := held.held cap isCap
    rw [nulls.heldBlocks_eq] at most
    rw [after.heldBlocks_eq, length_eq, straddle_of_settings settings]
    omega
  · rw [length_eq, getNumSkippedBlocks_of_settings settings]
    exact Nat.le_max_right ..

theorem StaysBelow.held (stays : StaysBelow requestId
      (min (processed + maxInFlightTokens) maxModelLen) manager) :
    Held requestId maxInFlightTokens maxModelLen processed manager := by
  rcases stays with ⟨front, fronted, below⟩
  refine ⟨?_, fronted.1, fun cap isCap => fronted.heldBlocks_le.trans (below cap isCap)⟩
  rcases fronted.2 with ⟨count, -, nulls⟩
  exact ⟨count, nulls⟩

theorem StaysBelow.fills (stays : StaysBelow requestId needed manager)
    (fills : Fills requestId (cdiv needed manager.blockSize) manager manager') :
    StaysBelow requestId needed manager' := by
  have settings := fills.nulls.settings
  rcases stays with ⟨front, fronted, below⟩
  refine ⟨front, ?_, ?_⟩
  · rw [blockSize_of_settings settings]
    exact fills.fronted fronted
  · rw [blockSize_of_settings settings, maxAdmission_of_settings settings,
      straddle_of_settings settings]
    exact below

/-- A table with slots for the processed tokens. -/
theorem ReleasedTo.staysBelow (released : ReleasedTo requestId processed manager)
    (capped : Capped maxInFlightTokens maxModelLen manager)
    (front : manager.kvCacheSpec.kind.releasesFront = true)
    (inFlight : needed ≤ processed + maxInFlightTokens) (within : needed ≤ maxModelLen)
    (covered : processed ≤ (manager.blocksOf requestId).length * manager.blockSize)
    (length : (manager.blocksOf requestId).length ≤ cdiv needed manager.blockSize) :
    StaysBelow requestId needed manager := by
  rcases released with ⟨count, nulls, most⟩
  rcases capped.resident_le front inFlight within with ⟨cap, isCap, short, behind⟩
  refine ⟨_, ⟨length, count, most, nulls⟩, fun other isOther => ?_⟩
  cases isCap.symm.trans isOther
  have few := short _ covered
  omega

variable [DecidableEq H] [BlockHashing H]

omit [DecidableEq H] [BlockHashing H] in
/-- The hits of a request without blocks. -/
theorem addLocalHits_staysBelow {newComputedBlocks : List BlockId} {numLocal numExternal : Nat}
    (capped : Capped maxInFlightTokens maxModelLen manager)
    (front : manager.kvCacheSpec.kind.releasesFront = true)
    (inFlight : needed ≤ numLocal + numExternal + maxInFlightTokens)
    (within : needed ≤ maxModelLen) (enough : numLocal + numExternal ≤ needed)
    (hits : NullPrefix newComputedBlocks)
    (length : newComputedBlocks.length * manager.blockSize = numLocal)
    (added : addLocalHits pool manager requestId newComputedBlocks numLocal numExternal =
      .ok (pool', manager')) :
    manager'.settings = manager.settings ∧ StaysBelow requestId needed manager' := by
  rcases addLocalHits_eq_ok added with ⟨-, -, rfl⟩
  have settings := (withLocalHits_onlyFor manager requestId newComputedBlocks numLocal
    (numLocal + numExternal)).settings
  have table : (manager.withLocalHits requestId newComputedBlocks numLocal
      (numLocal + numExternal)).blocksOf requestId =
      manager.localTable newComputedBlocks (numLocal + numExternal) :=
    blocksOf_setBlocks_self manager requestId _
  rcases capped.resident_le front inFlight within with ⟨cap, isCap, -, behind⟩
  rcases hits.drop (manager.getNumSkippedBlocks (numLocal + numExternal)) with
    ⟨count, rest, split, kept⟩
  refine ⟨settings, manager.getNumSkippedBlocks (numLocal + numExternal), ⟨?_, ?_⟩, ?_⟩
  · have skipped := manager.getNumSkippedBlocks_mul_le (numLocal + numExternal)
    have first := Nat.le_of_mul_le_mul_right ((skipped.trans enough).trans
      (le_cdiv_mul manager.blockSize_pos needed)) manager.blockSize_pos
    have second := Nat.le_of_mul_le_mul_right (((Nat.le_of_eq length).trans
      (Nat.le_add_right _ numExternal)).trans (enough.trans
        (le_cdiv_mul manager.blockSize_pos needed))) manager.blockSize_pos
    rw [table, blockSize_of_settings settings]
    unfold localTable
    rw [List.length_append, List.length_replicate, List.length_drop]
    omega
  · refine ⟨_ + count, Nat.le_add_right _ count, rest, ?_, kept⟩
    rw [table]
    unfold localTable
    rw [split, ← List.append_assoc, List.replicate_append_replicate]
  · rw [blockSize_of_settings settings, maxAdmission_of_settings settings,
      straddle_of_settings settings]
    intro other isOther
    cases isCap.symm.trans isOther
    exact behind

end Table

/-! ## One allocation -/

section Stages

variable {H : Type}

/-- A call takes what `before` says of the front-releasing groups to what `after` says. -/
def Carries (setup : Nat → SingleTypeKVCacheManager H → Prop)
    (before after : SingleTypeKVCacheManager H → Prop) (i : Nat)
    (group group' : SingleTypeKVCacheManager H) : Prop :=
  group'.settings = group.settings ∧
    (setup i group → group.kvCacheSpec.kind.releasesFront = true → before group → after group')

/-- What holds of the front-releasing groups between two calls. -/
def Staged (setup : Nat → SingleTypeKVCacheManager H → Prop)
    (property : SingleTypeKVCacheManager H → Prop)
    (managers : List (SingleTypeKVCacheManager H)) : Prop :=
  ∀ i group, managers[i]? = some group → setup i group ∧
    (group.kvCacheSpec.kind.releasesFront = true → property group)

variable {setup : Nat → SingleTypeKVCacheManager H → Prop}
  {before after : SingleTypeKVCacheManager H → Prop}
  {managers managers' : List (SingleTypeKVCacheManager H)}

theorem Staged.carry (stable : ∀ i group group', group'.settings = group.settings →
      setup i group → setup i group') (staged : Staged setup before managers)
    (carries : Pointwise (Carries setup before after) 0 managers managers') :
    Staged setup after managers' := by
  intro i group' located
  rcases carries.getElem? located with ⟨group, found, settings, carry⟩
  rw [Nat.zero_add] at carry
  rcases staged i group found with ⟨known, property⟩
  refine ⟨stable i group group' settings known, fun front => ?_⟩
  rw [kvCacheSpec_of_settings settings] at front
  exact carry known front (property front)

theorem Staged.mono (staged : Staged setup before managers)
    (implies : ∀ group, group ∈ managers → group.kvCacheSpec.kind.releasesFront = true →
      before group → after group) : Staged setup after managers :=
  fun i group located => ⟨(staged i group located).1, fun front =>
    implies group (List.mem_of_getElem? located) front ((staged i group located).2 front)⟩

end Stages

namespace KVCacheManager

open KVCacheCoordinator

variable {H : Type} {manager manager' : KVCacheManager H} {others : BlockId → Nat}
  {request : Request H} {args : AllocateSlotsArgs}
  {maxInFlightTokens before : Nat}

/-- A group with its cap and with hits that are as long as the tokens they stand for. -/
def FitsGroup (manager : KVCacheManager H) (args : AllocateSlotsArgs) (maxInFlightTokens i : Nat)
    (group : SingleTypeKVCacheManager H) : Prop :=
  Capped maxInFlightTokens manager.maxModelLen group ∧
    (group.kvCacheSpec.kind.releasesFront = true →
      NullPrefix ((manager.newComputedBlockList args).getD i []) ∧
      ((manager.newComputedBlockList args).getD i []).length * group.blockSize =
        args.numNewComputedTokens)

theorem FitsGroup.of_settings {i : Nat} {group group' : SingleTypeKVCacheManager H}
    (same : group'.settings = group.settings)
    (fits : manager.FitsGroup args maxInFlightTokens i group) :
    manager.FitsGroup args maxInFlightTokens i group' := by
  refine ⟨fits.1.of_settings same, fun front => ?_⟩
  rw [kvCacheSpec_of_settings same] at front
  rw [blockSize_of_settings same]
  exact fits.2 front

/-- The processed tokens after a successful allocation. -/
def processedAfter (request : Request H) (args : AllocateSlotsArgs) : Nat :=
  ((numLocalComputedTokens request args + args.numExternalComputedTokens : Nat) -
    request.numInFlightTokens).toNat

variable [DecidableEq H]

variable {property : SingleTypeKVCacheManager H → Prop}
  {setup : Nat → SingleTypeKVCacheManager H → Prop}
  {coordinator coordinator' : KVCacheCoordinator H} {requestId : RequestId}

variable {fits : Bool}

theorem fullSequenceFits_staged
    (stable : ∀ i group group', group'.settings = group.settings → setup i group → setup i group')
    (same : ∀ group group', SameTables group group' → property group → property group')
    (conserved : Conserved manager others)
    (staged : Staged setup property manager.coordinator.singleTypeManagers)
    (checked : manager.fullSequenceFits request args = .ok (fits, manager')) :
    Staged setup property manager'.coordinator.singleTypeManagers := by
  unfold fullSequenceFits at checked
  split at checked
  · rcases bind_eq_ok.mp checked with ⟨⟨count, coordinator⟩, predicted, checked⟩
    cases checked
    have round := getNumBlocksToAllocate_round (fun _ group group' => SameTables group group')
      (fun _ _ _ _ _ _ _ _ _ _ predicted => getNumBlocksToAllocate_sameTables predicted)
      conserved predicted
    exact staged.carry stable (round.related.mono fun _ group group' tables =>
      ⟨tables.settings, fun _ _ => same group group' tables⟩)
  · cases checked
    exact staged

omit [DecidableEq H] in
/-- A release for the request leaves the tables held. -/
theorem removeSkippedBlocks_staged {maxModelLen processed : Nat} {numPromptTokens : Option Nat}
    (stable : ∀ i group group', group'.settings = group.settings → setup i group → setup i group')
    (balanced : Balanced coordinator.blockPool coordinator.singleTypeManagers others)
    (staged : Staged setup (Held requestId maxInFlightTokens maxModelLen before)
      coordinator.singleTypeManagers)
    (removed : coordinator.removeSkippedBlocks requestId processed numPromptTokens =
      .ok coordinator') :
    Staged setup (fun group => Held requestId maxInFlightTokens maxModelLen before group ∧
      ReleasedTo requestId processed group) coordinator'.singleTypeManagers := by
  have round := visitManagers_round anyPool
    (Carries setup (Held requestId maxInFlightTokens maxModelLen before) fun group =>
      Held requestId maxInFlightTokens maxModelLen before group ∧
        ReleasedTo requestId processed group)
    (fun i pool group pool' group' _ consistent backed _ ran => by
      have released := removeSkippedBlocks_released consistent backed ran
      exact ⟨released.moved, trivial, released.toTrimmed.frame.settings, fun _ front held =>
        (held.release front ran).2⟩)
    balanced trivial removed
  exact staged.carry stable round.related

/-- Up to the final check the tables are released. -/
theorem checked_staged {gated : KVCacheManager H} {skipped predicted : KVCacheCoordinator H}
    {count : Int} (conserved : Conserved manager others)
    (staged : Staged (manager.FitsGroup args maxInFlightTokens)
      (Held request.requestId maxInFlightTokens manager.maxModelLen before)
      manager.coordinator.singleTypeManagers)
    (checked : manager.fullSequenceFits request args = .ok (fits, gated))
    (removed : gated.coordinator.removeSkippedBlocks request.requestId
      (gated.processedComputedTokens request args) (some request.numPromptTokens) = .ok skipped)
    (counted : skipped.getNumBlocksToAllocate request.requestId
      (gated.numTokensNeedSlot request args) (gated.newComputedBlockList args)
      args.numEncoderTokens (numLocalComputedTokens request args + args.numExternalComputedTokens)
      (numLocalComputedTokens request args) (gated.numTokensMainModel request args) false =
        .ok (count, predicted)) :
    Staged (manager.FitsGroup args maxInFlightTokens)
      (fun group => Held request.requestId maxInFlightTokens manager.maxModelLen before group ∧
        ReleasedTo request.requestId (manager.processedComputedTokens request args) group)
      predicted.singleTypeManagers := by
  have gate := beforeCheck_of_gate conserved checked
  have gatedStage := fullSequenceFits_staged (fun _ _ _ same fits => fits.of_settings same)
    (fun group group' tables held => held.of_same tables.settings (tables.blocksOf _))
    conserved staged checked
  rcases gate.same with ⟨coordinator, rfl⟩
  have released := removeSkippedBlocks_staged (fun _ _ _ same fits => fits.of_settings same)
    gate.conserved gatedStage removed
  have release := removeSkippedBlocks_round anyPool anyChange
    (fun _ _ _ _ _ _ _ _ => ⟨trivial, trivial⟩) gate.conserved trivial removed
  have prediction := getNumBlocksToAllocate_round (fun _ group group' => SameTables group group')
    (fun _ _ _ _ _ _ _ _ _ _ predicted => getNumBlocksToAllocate_sameTables predicted)
    release.balanced counted
  exact released.carry (fun _ _ _ same fits => fits.of_settings same)
    (prediction.related.mono fun _ group group' tables => ⟨tables.settings, fun _ _ known =>
      ⟨known.1.of_same tables.settings (tables.blocksOf _),
        known.2.of_same tables.settings (tables.blocksOf _)⟩⟩)

variable [BlockHashing H]

/-- The hits and the external tokens of a request without blocks. -/
theorem allocateNewComputedBlocks_staged {hits : List (List BlockId)} {numExternal needed : Nat}
    (same : ∀ i, hits.getD i [] = (manager.newComputedBlockList args).getD i [])
    (balanced : Balanced coordinator.blockPool coordinator.singleTypeManagers others)
    (untracked : ∀ group ∈ coordinator.singleTypeManagers, group.isTracked requestId = false)
    (valid : ∀ blocks ∈ hits, ∀ block ∈ blocks, block < coordinator.blockPool.numGpuBlocks)
    (inFlight : needed ≤ args.numNewComputedTokens + numExternal + maxInFlightTokens)
    (within : needed ≤ manager.maxModelLen)
    (enough : args.numNewComputedTokens + numExternal ≤ needed)
    (staged : Staged (manager.FitsGroup args maxInFlightTokens) property
      coordinator.singleTypeManagers)
    (allocated : coordinator.allocateNewComputedBlocks requestId hits args.numNewComputedTokens
      numExternal = .ok coordinator') :
    Balanced coordinator'.blockPool coordinator'.singleTypeManagers others ∧
      Staged (manager.FitsGroup args maxInFlightTokens) (StaysBelow requestId needed)
        coordinator'.singleTypeManagers := by
  rcases allocateNewComputedBlocks_cases allocated with
    ⟨tracked, -, -⟩ | ⟨-, middle, addedLocal, external⟩
  · rcases List.any_eq_true.mp tracked with ⟨group, member, isTracked⟩
    rw [untracked group member] at isTracked
    cases isTracked
  · have first := addLocalComputedBlocks_round anyPool
      (Carries (manager.FitsGroup args maxInFlightTokens) property (StaysBelow requestId needed))
      (fun i pool group blocks pool' group' _ _ located ran => by
        refine ⟨trivial, (addLocalComputedBlocks_onlyFor ran).settings, fun fits front _ => ?_⟩
        rw [addLocalComputedBlocks_of_front front] at ran
        have listed : (manager.newComputedBlockList args).getD i [] = blocks := by
          rw [← same, List.getD_eq_getElem?_getD, located, Option.getD_some]
        rcases fits.2 front with ⟨nulls, length⟩
        rw [listed] at nulls length
        exact (addLocalHits_staysBelow fits.1 front inFlight within enough nulls length ran).2)
      balanced trivial valid addedLocal
    have middleStage := staged.carry (fun _ _ _ same fits => fits.of_settings same) first.related
    rcases external with ⟨-, addedExternal⟩ | ⟨-, rfl⟩
    · have second := allocateExternalComputedBlocks_round anyPool
        (Carries (manager.FitsGroup args maxInFlightTokens) (StaysBelow requestId needed)
          (StaysBelow requestId needed))
        (fun i pool group pool' group' consistent _ ran => by
          refine ⟨trivial, ?_, fun _ front stays => ?_⟩
          · exact (allocateExternalComputedBlocks_prepared consistent ran).extended.1.settings
          · rw [allocateExternalComputedBlocks_of_front front] at ran
            exact stays.fills (allocateExternalHits_fills consistent (cdiv_mono enough _) ran))
        first.balanced trivial addedExternal
      exact ⟨second.balanced,
        middleStage.carry (fun _ _ _ same fits => fits.of_settings same) second.related⟩
    · exact ⟨first.balanced, middleStage⟩

/-- The new blocks, and caching after it. -/
theorem allocateNewBlocks_staged {committed : KVCacheManager H}
    {numTokens numTokensMainModel numEncoderTokens needed : Nat} {newBlocks : List (List BlockId)}
    (balanced : Balanced coordinator.blockPool coordinator.singleTypeManagers others)
    (enough : numTokens ≤ needed)
    (staged : Staged (manager.FitsGroup args maxInFlightTokens) (StaysBelow requestId needed)
      coordinator.singleTypeManagers)
    (allocated : coordinator.allocateNewBlocks requestId numTokens numTokensMainModel
      numEncoderTokens = .ok (newBlocks, coordinator'))
    (cached : (committed.setCoordinator coordinator').cacheCommitted request args = .ok manager') :
    Staged (manager.FitsGroup args maxInFlightTokens) (StaysBelow requestId needed)
      manager'.coordinator.singleTypeManagers := by
  have round := allocateNewBlocks_round anyPool
    (Carries (manager.FitsGroup args maxInFlightTokens) (StaysBelow requestId needed)
      (StaysBelow requestId needed))
    (fun i pool group ret pool' group' consistent _ _ ran => by
      refine ⟨trivial, (allocateNewBlocks_onlyFor consistent ran).settings, fun _ front stays => ?_⟩
      rw [allocateNewBlocks_of_front front, (kind_of_front front).2.1] at ran
      exact stays.fills (baseAllocateNewBlocks_fills consistent (cdiv_mono enough _) ran))
    balanced trivial allocated
  have filled := staged.carry (fun _ _ _ same fits => fits.of_settings same) round.related
  unfold cacheCommitted at cached
  split at cached
  · cases cached
    exact filled
  · rcases bind_eq_ok.mp cached with ⟨stored, ran, cached⟩
    cases cached
    have round := cacheBlocks_round anyPool (fun _ group group' => SameTables group group')
      (fun _ _ _ _ _ _ _ _ ran => ⟨trivial, (cacheBlocks_same ran).2⟩) round.balanced trivial ran
    exact filled.carry (fun _ _ _ same fits => fits.of_settings same)
      (round.related.mono fun _ group group' tables => ⟨tables.settings, fun _ _ stays =>
        stays.fills (.of_sameTables tables)⟩)

end KVCacheManager

namespace CacheState

open KVCacheManager KVCacheCoordinator

variable {H : Type} [DecidableEq H] [BlockHashing H] {state : CacheState H} {request : Request H}
  {args : AllocateSlotsArgs} {manager : KVCacheManager H} {maxInFlightTokens before : Nat}

omit [DecidableEq H] [BlockHashing H] in
/-- Without hits no tokens are new, and the computed ones have slots. -/
theorem covered_of_orderly {checked : KVCacheManager H}
    (permitted : Orderly state (.allocateSlots request args))
    (noHits : ∀ blocks ∈ checked.newComputedBlockList args, blocks = [])
    (noExternal : args.numExternalComputedTokens = 0) :
    args.numNewComputedTokens = 0 ∧ ∀ group : SingleTypeKVCacheManager H, Booked state.progress group →
      group.kvCacheSpec.kind.releasesFront = true →
      request.numComputedTokens ≤ (group.blocksOf request.requestId).length * group.blockSize := by
  have promise := permitted.2
  dsimp only at promise
  cases progress : state.progress request.requestId with
  | none =>
      rw [progress] at promise
      refine ⟨promise.2.2 ?_ noExternal, fun _ _ _ => by rw [promise.1]; exact Nat.zero_le _⟩
      unfold newComputedBlockList at noHits
      cases hits : args.newComputedBlocks with
      | none => exact fun _ member => absurd member List.not_mem_nil
      | some lists =>
          rw [hits] at noHits
          exact noHits
  | some known =>
      rw [progress] at promise
      refine ⟨promise.2.2.1, fun group booked front => promise.2.2.2.trans ?_⟩
      rcases kind_of_front front with ⟨attention, notCross, notRing⟩
      exact booked.slots attention notCross notRing _ known progress

/-- One call of `allocate_slots` for the request keeps its tables held. -/
theorem allocateSlots_staged {newBlocks : Option (List (List BlockId))}
    (conserved : Conserved state.manager state.retained.count) (inOrder : InOrder state)
    (permitted : Orderly state (.allocateSlots request args))
    (bounded : request.numInFlightTokens + args.numNewTokens + args.numLookaheadTokens ≤
      maxInFlightTokens) (settled : 0 ≤ request.numInFlightTokens)
    (progressed : (before : Int) ≤ max 0 (request.numComputedTokens - request.numInFlightTokens))
    (staged : Staged (state.manager.FitsGroup args maxInFlightTokens)
      (Held request.requestId maxInFlightTokens state.manager.maxModelLen before)
      state.manager.coordinator.singleTypeManagers)
    (allocated : state.manager.allocateSlots request args = .ok (newBlocks, manager)) :
    Staged (state.manager.FitsGroup args maxInFlightTokens)
      (Held request.requestId maxInFlightTokens state.manager.maxModelLen
        (if newBlocks.isSome then processedAfter request args else before))
      manager.coordinator.singleTypeManagers := by
  rcases allocateSlots_cases allocated with ⟨fits, gated, checked, rest⟩
  rcases rest with ⟨-, rfl, rfl⟩ | ⟨-, skipped, count, predicted, removed, counted, rest⟩
  · exact fullSequenceFits_staged (fun _ _ _ same fits => fits.of_settings same)
      (fun group group' tables held => held.of_same tables.settings (tables.blocksOf _))
      conserved staged checked
  have stage := checked_staged conserved staged checked removed counted
  have prior := beforeCheck_of_prediction conserved checked removed counted
  rcases (beforeCheck_of_gate conserved checked).same with ⟨gatedCoordinator, rfl⟩
  rcases rest with ⟨rfl, rfl⟩ | ⟨blocks, committed, -, ran, cached, rfl⟩
  · exact stage.mono fun _ _ _ known => known.1
  have booked : ∀ group ∈ predicted.singleTypeManagers, Booked state.progress group := by
    intro group' member
    rcases prior.groups.of_mem member with ⟨_, group, known, trimmed⟩
    exact (inOrder group known).trimmed trimmed
  rcases commitSlots_cases ran with ⟨added, last, rfl, computed, ranNew⟩
  have slots : ((state.manager.setCoordinator gatedCoordinator).setCoordinator
      predicted).numTokensNeedSlot request args ≤ min (processedAfter request args +
        maxInFlightTokens) state.manager.maxModelLen := by
    unfold numTokensNeedSlot numTokensMainModel totalComputedTokens processedAfter
    change min (min _ state.manager.maxModelLen + _ + _) state.manager.maxModelLen ≤ _
    omega
  have added_staged : Balanced added.blockPool added.singleTypeManagers state.retained.count ∧
      Staged (state.manager.FitsGroup args maxInFlightTokens)
        (StaysBelow request.requestId (min (processedAfter request args + maxInFlightTokens)
          state.manager.maxModelLen)) added.singleTypeManagers := by
    rcases computed with ⟨some, ranAdd⟩ | ⟨noHits, noExternal, rfl⟩
    · have promise := permitted.2
      dsimp only at promise
      cases progress : state.progress request.requestId with
      | none =>
          rw [progress] at promise
          have numLocal_eq : numLocalComputedTokens request args = args.numNewComputedTokens := by
            unfold numLocalComputedTokens
            omega
          rw [numLocal_eq] at ranAdd
          refine allocateNewComputedBlocks_staged (newComputedBlockList_getD _ _ args)
            prior.conserved (fun group member => ((booked group member).unknown _
              progress).untracked) (permitted.1.newComputedBlockList prior.setup.config) ?_
            (Nat.min_le_right ..) ?_ stage ranAdd
          · unfold processedAfter
            omega
          · unfold processedAfter
            omega
      | some known =>
          rw [progress] at promise
          have none := @newComputedBlockList_eq_nil _ ((state.manager.setCoordinator
            gatedCoordinator).setCoordinator predicted) _ promise.1
          rcases some with listed | external
          · rcases List.any_eq_true.mp listed with ⟨blocks, member, nonempty⟩
            exact absurd (none blocks member) (of_decide_eq_true nonempty)
          · omega
    · rcases covered_of_orderly permitted noHits noExternal with ⟨noNew, covered⟩
      refine ⟨prior.conserved, fun i group located => ?_⟩
      rcases stage i group located with ⟨fits, known⟩
      refine ⟨fits, fun front => ?_⟩
      rcases known front with ⟨held, released⟩
      have enough := covered group (booked group (List.mem_of_getElem? located)) front
      refine released.staysBelow fits.1 front ?_ (Nat.min_le_right ..) ?_ ?_
      · unfold processedAfter processedComputedTokens totalComputedTokens numLocalComputedTokens
        omega
      · unfold processedComputedTokens totalComputedTokens numLocalComputedTokens
        omega
      · refine held.length.trans (cdiv_mono ?_ _)
        unfold processedAfter numLocalComputedTokens
        omega
  exact (allocateNewBlocks_staged added_staged.1 slots added_staged.2 ranNew cached).mono
    fun _ _ _ stays => stays.held

end CacheState

/-! ## Runs for one request -/

/-- The calls that the scheduler makes for a request, its outputs, and all the other calls. -/
inductive RequestCall (H : Type) where
  | schedule (request : Request H) (args : AllocateSlotsArgs)
  | update (numTokensScheduled numRejected : Nat)
  | free (request : Request H)
  | others (call : CacheCall H)

/-- A cache with the counters of one request. -/
structure RequestRun (H : Type) where
  cache : CacheState H
  numComputedTokens : Nat
  numInFlightTokens : Nat

namespace RequestRun

open KVCacheManager KVCacheCoordinator CacheState

variable {H : Type}

/-- The call is made for another request. -/
def ForOther (requestId : RequestId) : CacheCall H → Prop
  | .allocateSlots request _ => request.requestId ≠ requestId
  | .free request => request.requestId ≠ requestId
  | _ => True

instance (requestId : RequestId) : DecidablePred (@ForOther H requestId)
  | .allocateSlots request _ => inferInstanceAs (Decidable (request.requestId ≠ requestId))
  | .free request => inferInstanceAs (Decidable (request.requestId ≠ requestId))
  | .getComputedBlocks _ | .removeSkippedBlocks .. | .cacheBlocks .. | .takeKvCacheBlockCopies
  | .releaseRetained _ | .evictBlocks _ | .resetPrefixCache | .newStepStarts => isTrue trivial

/-- The hits of a front-releasing group start with their null blocks and are as long as the tokens
they stand for. -/
def HitsFit (manager : KVCacheManager H) (args : AllocateSlotsArgs) : Prop :=
  ∀ entry ∈ manager.coordinator.singleTypeManagers.zipIdx,
    entry.1.kvCacheSpec.kind.releasesFront = true →
      NullPrefix ((manager.newComputedBlockList args).getD entry.2 []) ∧
      ((manager.newComputedBlockList args).getD entry.2 []).length * entry.1.blockSize =
        args.numNewComputedTokens

variable [DecidableEq H] [BlockHashing H]

/-- The scheduler's calls: all its counters are passed on, the tokens in flight stay within
`max_in_flight_tokens`, and an output takes back no more than was scheduled. -/
def Allowed (requestId : RequestId) (maxInFlightTokens : Nat) (run : RequestRun H) :
    RequestCall H → Prop
  | .schedule request args => request.requestId = requestId ∧
      request.numComputedTokens = run.numComputedTokens ∧
      request.numInFlightTokens = run.numInFlightTokens ∧
      Orderly run.cache (.allocateSlots request args) ∧ HitsFit run.cache.manager args ∧
      run.numInFlightTokens + args.numNewTokens + args.numLookaheadTokens ≤ maxInFlightTokens
  | .update numTokensScheduled numRejected =>
      numTokensScheduled ≤ run.numInFlightTokens ∧ numRejected ≤ numTokensScheduled
  | .free request => request.requestId = requestId
  | .others call => Orderly run.cache call ∧ ForOther requestId call

omit [DecidableEq H] [BlockHashing H] in
/-- After an allocation.  A scheduled request has its new tokens computed and in flight. -/
def scheduled (run : RequestRun H) (request : Request H) (args : AllocateSlotsArgs)
    (newBlocks : Option (List (List BlockId))) (manager : KVCacheManager H) : RequestRun H where
  cache :=
    { run.cache with
      manager := manager
      progress :=
        if newBlocks.isSome then
          Function.update run.cache.progress request.requestId
            (some (advance run.cache.manager request args
              (run.cache.progress request.requestId)))
        else
          run.cache.progress }
  numComputedTokens :=
    if newBlocks.isSome then
      numLocalComputedTokens request args + args.numExternalComputedTokens + args.numNewTokens
    else
      run.numComputedTokens
  numInFlightTokens :=
    if newBlocks.isSome then run.numInFlightTokens + args.numNewTokens else run.numInFlightTokens

/-- Execute a call. -/
def execute (run : RequestRun H) : RequestCall H → Except PyError (RequestRun H)
  | .schedule request args => do
      let (newBlocks, manager) ← run.cache.manager.allocateSlots request args
      pure (run.scheduled request args newBlocks manager)
  | .update numTokensScheduled numRejected =>
      .ok { run with
        numComputedTokens := run.numComputedTokens - numRejected
        numInFlightTokens := run.numInFlightTokens - numTokensScheduled }
  | .free request => do
      let cache ← run.cache.execute (.free request)
      pure { run with cache := cache, numComputedTokens := 0 }
  | .others call => do
      let cache ← run.cache.execute call
      pure { run with cache := cache }

/-- The runs of a request on a fresh manager. -/
def system (requestId : RequestId) (maxInFlightTokens : Nat) : System (RequestRun H) where
  start run := run.numComputedTokens = 0 ∧ run.cache.retained = [] ∧
    (run.cache.progress = fun _ => none) ∧
    ∃ config maxModelLen schedulerBlockSize hashBlockSize enableCaching useEagle
      numPrefillLookahead enableKvCacheEvents dcpWorldSize watermarkBlocks,
      (∀ group ∈ config.kvCacheGroups, group.kvCacheSpec.kind ≠ .chunkedLocalAttention 0) ∧
      KVCacheManager.init config maxModelLen schedulerBlockSize hashBlockSize
        (some maxInFlightTokens) enableCaching useEagle numPrefillLookahead enableKvCacheEvents
        dcpWorldSize watermarkBlocks = .ok run.cache.manager
  step run next := ∃ call, Allowed requestId maxInFlightTokens run call ∧
    run.execute call = .ok next

/-- The tokens whose outputs have come back. -/
def processed (run : RequestRun H) : Nat :=
  run.numComputedTokens - run.numInFlightTokens

/-- What holds throughout a run. -/
structure Inv (requestId : RequestId) (maxInFlightTokens : Nat) (run : RequestRun H) : Prop where
  conserved : Conserved run.cache.manager run.cache.retained.count
  inOrder : InOrder run.cache
  held : Staged (fun _ => Capped maxInFlightTokens run.cache.manager.maxModelLen)
    (Held requestId maxInFlightTokens run.cache.manager.maxModelLen run.processed)
    run.cache.manager.coordinator.singleTypeManagers

section Runs

variable {requestId : RequestId} {maxInFlightTokens : Nat} {run next : RequestRun H}

/-- A visit keeps the table of the request as it is, or only releases blocks of it. -/
def Leaves (requestId : RequestId) (maxInFlightTokens maxModelLen processed : Nat)
    (group group' : SingleTypeKVCacheManager H) : Prop :=
  group'.settings = group.settings ∧
    (group.kvCacheSpec.kind.releasesFront = true →
      Held requestId maxInFlightTokens maxModelLen processed group →
      Held requestId maxInFlightTokens maxModelLen processed group')

variable {maxModelLen processed : Nat} {group group' : SingleTypeKVCacheManager H}

section

omit [DecidableEq H] [BlockHashing H]

theorem Leaves.of_same (same : group'.settings = group.settings)
    (table : group'.blocksOf requestId = group.blocksOf requestId) :
    Leaves requestId maxInFlightTokens maxModelLen processed group group' :=
  ⟨same, fun _ held => held.of_same same table⟩

theorem Leaves.of_onlyFor {other : RequestId} (different : other ≠ requestId)
    (frame : OnlyFor other group group') :
    Leaves requestId maxInFlightTokens maxModelLen processed group group' :=
  .of_same frame.settings (frame.blocksOf requestId different.symm)

theorem Leaves.map {maxModelLen processed : Nat}
    {change : SingleTypeKVCacheManager H → SingleTypeKVCacheManager H}
    (leaves : ∀ group, Leaves requestId maxInFlightTokens maxModelLen processed group
      (change group)) (managers : List (SingleTypeKVCacheManager H)) (i : Nat) :
    Pointwise (fun _ => Leaves requestId maxInFlightTokens maxModelLen processed) i managers
      (managers.map change) := by
  induction managers generalizing i with
  | nil => trivial
  | cons group rest inductionHypothesis => exact ⟨leaves group, inductionHypothesis (i + 1)⟩

end

theorem allocateSlots_maxModelLen {manager manager' : KVCacheManager H} {request : Request H}
    {args : AllocateSlotsArgs} {newBlocks : Option (List (List BlockId))}
    (allocated : manager.allocateSlots request args = .ok (newBlocks, manager')) :
    manager'.maxModelLen = manager.maxModelLen := by
  rcases allocateSlots_cases allocated with ⟨fits, gated, checked, rest⟩
  have gate : gated.maxModelLen = manager.maxModelLen := by
    unfold fullSequenceFits at checked
    split at checked
    · rcases bind_eq_ok.mp checked with ⟨_, -, checked⟩
      cases checked
      rfl
    · cases checked
      rfl
  rcases rest with ⟨-, -, rfl⟩ | ⟨-, skipped, count, predicted, -, -, rest⟩
  · exact gate
  · rcases rest with ⟨-, rfl⟩ | ⟨blocks, committed, -, ran, cached, -⟩
    · exact gate
    · rcases commitSlots_cases ran with ⟨added, last, rfl, -⟩
      unfold cacheCommitted at cached
      split at cached
      · cases cached
        exact gate
      · rcases bind_eq_ok.mp cached with ⟨_, -, cached⟩
        cases cached
        exact gate

/-- What the calls for other requests do. -/
theorem leaves_of_others {state cache : CacheState H} {call : CacheCall H}
    (conserved : Conserved state.manager state.retained.count) (permitted : Orderly state call)
    (other : ForOther requestId call) (ran : state.execute call = .ok cache) (processed : Nat) :
    cache.manager.maxModelLen = state.manager.maxModelLen ∧
      Pointwise (fun _ => Leaves requestId maxInFlightTokens state.manager.maxModelLen processed) 0
        state.manager.coordinator.singleTypeManagers
        cache.manager.coordinator.singleTypeManagers := by
  have unchanged (managers : List (SingleTypeKVCacheManager H)) :
      Pointwise (fun _ => Leaves requestId maxInFlightTokens state.manager.maxModelLen processed) 0
        managers managers :=
    .refl (fun _ _ => .of_same rfl rfl) _ _
  cases call with
  | getComputedBlocks request =>
      rcases bind_eq_ok.mp ran with ⟨⟨hits, manager⟩, computed, ran⟩
      cases ran
      rcases getComputedBlocks_sameRefs computed with ⟨pool, -, rfl⟩
      exact ⟨rfl, unchanged _⟩
  | allocateSlots request args =>
      rcases bind_eq_ok.mp ran with ⟨⟨newBlocks, manager⟩, allocated, ran⟩
      cases ran
      refine ⟨allocateSlots_maxModelLen allocated, ?_⟩
      cases newBlocks with
      | none =>
          exact (allocateSlots_none conserved allocated).groups.mono fun _ _ _ trimmed =>
            .of_onlyFor other trimmed.frame
      | some blocks =>
          exact (allocateSlots_served conserved permitted.1 allocated).mono fun _ _ _ served =>
            .of_onlyFor other served.1
  | removeSkippedBlocks released count numPromptTokens =>
      rcases bind_eq_ok.mp ran with ⟨manager, removed, ran⟩
      cases ran
      rcases bind_eq_ok.mp removed with ⟨coordinator, visited, removed⟩
      cases removed
      have round := visitManagers_round anyPool (fun _ => Leaves requestId maxInFlightTokens
          state.manager.maxModelLen processed)
        (fun i pool group pool' group' _ consistent backed _ ran => by
          have trimmed := removeSkippedBlocks_released consistent backed ran
          refine ⟨trimmed.moved, trivial, ?_⟩
          by_cases same : released = requestId
          · subst same
            exact ⟨trimmed.toTrimmed.frame.settings, fun front held =>
              (held.release front ran).2.1⟩
          · exact .of_onlyFor same trimmed.toTrimmed.frame)
        conserved trivial visited
      exact ⟨rfl, round.related⟩
  | cacheBlocks request numComputedTokens =>
      rcases bind_eq_ok.mp ran with ⟨manager, cached, ran⟩
      cases ran
      unfold KVCacheManager.cacheBlocks at cached
      split at cached
      · rcases bind_eq_ok.mp cached with ⟨coordinator, stored, cached⟩
        cases cached
        have round := cacheBlocks_round anyPool (fun _ group group' => SameTables group group')
          (fun _ _ _ _ _ _ _ _ ran => ⟨trivial, (cacheBlocks_same ran).2⟩)
          conserved trivial stored
        exact ⟨rfl, round.related.mono fun _ _ _ tables =>
          .of_same tables.settings (tables.blocksOf _)⟩
      · cases cached
        exact ⟨rfl, unchanged _⟩
  | free request =>
      rcases bind_eq_ok.mp ran with ⟨manager, freed, ran⟩
      cases ran
      rcases bind_eq_ok.mp freed with ⟨coordinator, released, freed⟩
      cases freed
      have round := free_round anyPool (fun _ group group' => OnlyFor request.requestId group group')
        (fun _ _ _ _ _ _ _ _ ran => ⟨trivial, free_onlyFor ran⟩) conserved trivial released
      exact ⟨rfl, round.related.mono fun _ _ _ frame => .of_onlyFor other frame⟩
  | takeKvCacheBlockCopies =>
      cases ran
      exact ⟨rfl, @Leaves.map H requestId maxInFlightTokens _ processed
        (fun group => group.takePendingCowCopies.2) (fun _ => .of_same rfl rfl) _ _⟩
  | releaseRetained blocks =>
      rcases bind_eq_ok.mp ran with ⟨pool, -, ran⟩
      cases ran
      exact ⟨rfl, unchanged _⟩
  | evictBlocks blockIds =>
      rcases bind_eq_ok.mp ran with ⟨manager, evicted, ran⟩
      cases ran
      rcases bind_eq_ok.mp evicted with ⟨pool, -, evicted⟩
      cases evicted
      exact ⟨rfl, unchanged _⟩
  | resetPrefixCache =>
      cases ran
      exact ⟨rfl, unchanged _⟩
  | newStepStarts =>
      cases ran
      refine ⟨rfl, Leaves.map (fun group => ?_) _ _⟩
      unfold SingleTypeKVCacheManager.newStepStarts
      split
      · exact .of_same rfl rfl
      · exact .of_same rfl rfl

/-- One call keeps the invariant. -/
theorem Inv.step {call : RequestCall H} (inv : Inv requestId maxInFlightTokens run)
    (permitted : Allowed requestId maxInFlightTokens run call)
    (ran : run.execute call = .ok next) : Inv requestId maxInFlightTokens next := by
  have stable : ∀ (i : Nat) (group group' : SingleTypeKVCacheManager H),
      group'.settings = group.settings →
      Capped maxInFlightTokens run.cache.manager.maxModelLen group →
      Capped maxInFlightTokens run.cache.manager.maxModelLen group' :=
    fun _ _ _ same capped => capped.of_settings same
  cases call with
  | schedule request args =>
      rcases permitted with ⟨named, computed, inFlight, orderly, hits, bounded⟩
      rcases bind_eq_ok.mp ran with ⟨⟨newBlocks, manager⟩, allocated, ran⟩
      cases ran
      have sameLen := allocateSlots_maxModelLen allocated
      have conserved := (allocateSlots_conserved inv.conserved orderly.1 allocated).2
      have ordered := inOrder_allocateSlots inv.conserved inv.inOrder orderly.1 allocated
      refine ⟨conserved, ordered, ?_⟩
      have fitted : Staged (run.cache.manager.FitsGroup args maxInFlightTokens)
          (Held request.requestId maxInFlightTokens run.cache.manager.maxModelLen run.processed)
          run.cache.manager.coordinator.singleTypeManagers := by
        intro i group located
        rcases inv.held i group located with ⟨capped, held⟩
        rw [named]
        exact ⟨⟨capped, hits (group, i) (List.mem_zipIdx_iff_getElem?.mpr located)⟩, held⟩
      have staged := allocateSlots_staged inv.conserved inv.inOrder orderly (by omega) (by omega)
        (by unfold processed; omega) fitted allocated
      intro i group located
      rcases staged i group located with ⟨fits, held⟩
      change Capped _ manager.maxModelLen group ∧ (_ → Held requestId maxInFlightTokens
        manager.maxModelLen (run.scheduled request args newBlocks manager).processed group)
      rw [sameLen]
      refine ⟨fits.1, fun front => ?_⟩
      rw [named] at held
      apply (held front).mono
      unfold processed scheduled processedAfter
      split
      · dsimp only
        omega
      · exact Nat.le_refl _
  | update numTokensScheduled numRejected =>
      cases ran
      refine ⟨inv.conserved, inv.inOrder, inv.held.mono fun group _ _ held => held.mono ?_⟩
      rcases permitted with ⟨scheduled, rejected⟩
      unfold processed
      dsimp only
      omega
  | free request =>
      rcases bind_eq_ok.mp ran with ⟨cache, freed, ran⟩
      cases ran
      have orderly : Orderly run.cache (.free request) := ⟨trivial, trivial⟩
      have conserved := conserved_step inv.conserved orderly.1 freed
      have ordered := inOrder_step inv.conserved inv.inOrder orderly freed
      refine ⟨conserved, ordered, ?_⟩
      rcases bind_eq_ok.mp freed with ⟨manager, visited, freed⟩
      cases freed
      rcases bind_eq_ok.mp visited with ⟨coordinator, released, visited⟩
      cases visited
      have round := free_round anyPool
        (fun _ group group' => group'.settings = group.settings ∧ Unknown request.requestId group')
        (fun _ _ _ _ _ _ _ _ ran => ⟨trivial, (free_onlyFor ran).settings, free_unknown ran⟩)
        inv.conserved trivial released
      refine inv.held.carry stable (round.related.mono fun _ group group' known =>
        ⟨known.1, fun _ _ _ => .empty ?_⟩)
      rw [← permitted]
      exact known.2.table
  | others call =>
      rcases permitted with ⟨orderly, other⟩
      rcases bind_eq_ok.mp ran with ⟨cache, executed, ran⟩
      cases ran
      rcases leaves_of_others inv.conserved orderly other executed run.processed with
        ⟨sameLen, related⟩
      refine ⟨conserved_step inv.conserved orderly.1 executed,
        inOrder_step inv.conserved inv.inOrder orderly executed, ?_⟩
      rw [sameLen]
      exact inv.held.carry stable (related.mono fun _ group group' leaves =>
        ⟨leaves.1, fun _ => leaves.2⟩)

section

omit [DecidableEq H] [BlockHashing H]

theorem dcpWorldSize_of_front {spec : KVCacheSpec} (front : spec.kind.releasesFront = true)
    (dcpWorldSize : Nat) : dcpWorldSizeForKvCacheSpec spec dcpWorldSize = 1 := by
  have notFull : spec.isFullAttention = false := by
    unfold KVCacheSpec.isFullAttention
    cases kindEq : spec.kind with
    | fullAttention | rswa _ =>
        rw [kindEq] at front
        cases front
    | slidingWindow _ _ | chunkedLocalAttention _ | circularBuffer | mamba _ _ _
    | crossAttention => rfl
  unfold dcpWorldSizeForKvCacheSpec
  rw [notFull]
  split <;> rfl

/-- The groups of a new manager have their caps. -/
theorem capped_of_init {config : KVCacheConfig} {manager : KVCacheManager H}
    {schedulerBlockSize hashBlockSize : Nat} {enableCaching useEagle : Bool}
    {numPrefillLookahead : Nat} {enableKvCacheEvents : Bool} {dcpWorldSize watermarkBlocks : Nat}
    (chunks : ∀ group ∈ config.kvCacheGroups, group.kvCacheSpec.kind ≠ .chunkedLocalAttention 0)
    (started : KVCacheManager.init config maxModelLen schedulerBlockSize hashBlockSize
      (some maxInFlightTokens) enableCaching useEagle numPrefillLookahead enableKvCacheEvents
      dcpWorldSize watermarkBlocks = .ok manager) :
    ∀ group ∈ manager.coordinator.singleTypeManagers,
      Capped maxInFlightTokens manager.maxModelLen group := by
  rcases bind_eq_ok.mp started with ⟨coordinator, created, started⟩
  cases started
  have base : ∀ {kind : CoordinatorKind} {caching : Bool} {result : KVCacheCoordinator H},
      baseInit kind config maxModelLen maxInFlightTokens useEagle caching enableKvCacheEvents
        dcpWorldSize schedulerBlockSize hashBlockSize numPrefillLookahead = .ok result →
      ∀ group ∈ result.singleTypeManagers, Capped maxInFlightTokens maxModelLen group := by
    intro kind caching result built
    rcases bind_eq_ok.mp built with ⟨_, -, built⟩
    rcases bind_eq_ok.mp built with ⟨pool, -, built⟩
    dsimp only at built
    split at built
    · cases built
    rcases bind_eq_ok.mp built with ⟨retention, -, built⟩
    cases built
    intro group member
    rcases List.mem_mapIdx.mp member with ⟨index, bound, rfl⟩
    refine ⟨rfl, fun front => ?_, chunks _ (List.getElem_mem bound)⟩
    have single := @dcpWorldSize_of_front config.kvCacheGroups[index].kvCacheSpec front
      dcpWorldSize
    unfold SingleTypeKVCacheManager.init
    dsimp only
    rw [single]
    rfl
  unfold getKvCacheCoordinator at created
  split at created
  · exact base created
  · split at created
    · rcases bind_eq_ok.mp created with ⟨built, first, created⟩
      rcases bind_eq_ok.mp created with ⟨group, located, created⟩
      rcases bind_eq_ok.mp created with ⟨_, -, created⟩
      rcases bind_eq_ok.mp created with ⟨_, -, created⟩
      cases created
      intro other member
      have capped := base first group (List.mem_of_getElem? (pyIndex_eq_ok.mp located))
      rw [List.mem_singleton.mp member]
      exact ⟨capped.cap, capped.size, capped.chunk⟩
    · rcases bind_eq_ok.mp created with ⟨built, first, created⟩
      rcases bind_eq_ok.mp created with ⟨_, -, created⟩
      rcases bind_eq_ok.mp created with ⟨_, -, created⟩
      rcases bind_eq_ok.mp created with ⟨_, -, created⟩
      cases created
      intro other member
      rcases List.mem_mapIdx.mp member with ⟨index, bound, rfl⟩
      have capped := base first _ (List.getElem_mem bound)
      exact ⟨capped.cap, capped.size, capped.chunk⟩

end

theorem Inv.start (starts : (system requestId maxInFlightTokens).start run) :
    Inv requestId maxInFlightTokens run := by
  rcases starts with ⟨-, retained, noProgress, config, maxModelLen, _, _, _, _, _, _, _, _, chunks,
    started⟩
  have conserved := conserved_of_init started
  have fresh := (init_fresh started).2
  refine ⟨⟨conserved.consistent, fun block nonNull => ?_⟩, fun group member => ?_,
    fun i group located => ?_⟩
  · rw [retained, List.count_nil]
    exact conserved.refCnt block nonNull
  · rw [← fresh group member, noProgress]
    exact ⟨fun _ _ => ⟨rfl, rfl, rfl, fun _ _ _ => List.not_mem_nil⟩, fun _ _ => rfl,
      fun _ _ _ _ _ impossible => by cases impossible⟩
  · have member := List.mem_of_getElem? located
    refine ⟨capped_of_init chunks started group member, fun _ => .empty ?_⟩
    rw [← fresh group member]
    rfl

theorem reachable_inv (reached : Reachable (system requestId maxInFlightTokens) run) :
    Inv requestId maxInFlightTokens run :=
  reached.invariant (fun _ => Inv.start) fun _ _ inv ⟨_, permitted, ran⟩ => inv.step permitted ran

instance : DecidablePred NullPrefix := fun table =>
  decidable_of_iff (nullBlock ∉ table.dropWhile (· = nullBlock)) <| by
    constructor
    · intro kept
      refine ⟨(table.takeWhile (· = nullBlock)).length, _, ?_, kept⟩
      have nulls : table.takeWhile (· = nullBlock) =
          List.replicate (table.takeWhile (· = nullBlock)).length nullBlock :=
        List.eq_replicate_iff.mpr ⟨rfl, fun block member => by
          simpa using List.mem_takeWhile_imp member⟩
      rw [← nulls, List.takeWhile_append_dropWhile]
    · rintro ⟨count, rest, rfl, kept⟩
      rw [List.dropWhile_append_of_pos (by simp)]
      exact fun null => kept ((List.dropWhile_sublist _).mem null)

instance (manager : KVCacheManager H) (args : AllocateSlotsArgs) :
    Decidable (HitsFit manager args) :=
  inferInstanceAs (Decidable (∀ entry ∈ manager.coordinator.singleTypeManagers.zipIdx, _))

instance (requestId : RequestId) (maxInFlightTokens : Nat) (run : RequestRun H) :
    DecidablePred (Allowed requestId maxInFlightTokens run)
  | .schedule _ _ => inferInstanceAs (Decidable (_ ∧ _ ∧ _ ∧ _ ∧ _ ∧ _))
  | .update _ _ => inferInstanceAs (Decidable (_ ∧ _))
  | .free request => inferInstanceAs (Decidable (request.requestId = requestId))
  | .others _ => inferInstanceAs (Decidable (_ ∧ _))

/-- Execute one allowed call. -/
def executeAllowed (requestId : RequestId) (maxInFlightTokens : Nat) (run : RequestRun H)
    (call : RequestCall H) : Option (RequestRun H) :=
  if Allowed requestId maxInFlightTokens run call then (run.execute call).toOption else none

theorem executeAllowed_sound (requestId : RequestId) (maxInFlightTokens : Nat)
    (run : RequestRun H) (call : RequestCall H) (next : RequestRun H)
    (executed : executeAllowed requestId maxInFlightTokens run call = some next) :
    (system requestId maxInFlightTokens).step run next := by
  unfold executeAllowed at executed
  split at executed
  · rename_i permitted
    cases ran : run.execute call with
    | error failure =>
        rw [ran] at executed
        cases executed
    | ok result =>
        rw [ran] at executed
        cases executed
        exact ⟨call, permitted, ran⟩
  · cases executed

/-- Schedule some tokens of a prompt of 20, or process their output. -/
def prefillStep (run : RequestRun SymbolicHash) : Nat ⊕ Nat → Option (RequestRun SymbolicHash)
  | .inl numNewTokens =>
      let request := Request.updateBlockHashes (some 4)
        { requestId := "long", allTokenIds := List.replicate 20 7, numPromptTokens := 20
          numComputedTokens := run.numComputedTokens
          numInFlightTokens := run.numInFlightTokens }
      executeAllowed "long" 2 run (.schedule request { numNewTokens := numNewTokens })
  | .inr numTokensScheduled => executeAllowed "long" 2 run (.update numTokensScheduled 0)

/-- A prefill in small steps, with one group of blocks of four tokens. -/
def prefill (group : KVCacheGroupSpec) (steps : List Nat) : Option (RequestRun SymbolicHash) :=
  match KVCacheManager.init { numBlocks := 12, kvCacheGroups := [group] } 100 4 4 (some 2) true
      false 0 false 1 0 with
  | .error _ => none
  | .ok manager =>
      replay prefillStep (steps.flatMap fun step => [.inl step, .inr step])
        ⟨⟨manager, [], fun _ => none⟩, 0, 0⟩

theorem prefill_reachable {group : KVCacheGroupSpec} {steps : List Nat}
    {run : RequestRun SymbolicHash} (chunk : group.kvCacheSpec.kind ≠ .chunkedLocalAttention 0)
    (ran : prefill group steps = some run) : Reachable (system "long" 2) run := by
  unfold prefill at ran
  split at ran
  · cases ran
  · rename_i manager started
    refine Reachable.replay ?_ (.start ⟨rfl, rfl, rfl, _, _, _, _, _, _, _, _, _, _, ?_, started⟩) ran
    · intro state action next executed
      cases action with
      | inl numNewTokens => exact executeAllowed_sound _ _ _ _ _ executed
      | inr numTokensScheduled => exact executeAllowed_sound _ _ _ _ _ executed
    · intro other member
      rwa [List.mem_singleton.mp member]

end Runs

end RequestRun

end Vllm.Core
