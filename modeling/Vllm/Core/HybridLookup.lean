import Vllm.Core.KVCacheCoordinator
import Vllm.Core.WindowHits

/-!
# Lookups of the hybrid coordinator

What the constructor of the hybrid coordinator guarantees about its specification
groups, and what one lookup of one group returns for a candidate length.
-/

namespace Vllm.Core

namespace KVCacheCoordinator

variable {H : Type}

/-- `group_block_size`: the block size of the group's first manager. -/
def groupBlockSize (coordinator : KVCacheCoordinator H) (group : SpecGroup) : Nat :=
  match group.groupIds[0]?.bind fun groupId => coordinator.singleTypeManagers[groupId]? with
  | some manager => manager.blockSize
  | none => 0

/-- What the constructor leaves behind, for any contents of the pool and the managers:
each cacheable group belongs to one specification group, and every block size fits the
alignment of hits. -/
structure SearchLayout (coordinator : KVCacheCoordinator H) : Prop where
  hash_eq : coordinator.blockPool.hashBlockSize = coordinator.hashBlockSize
  nonempty : coordinator.attentionGroups ≠ []
  manager : ∀ group ∈ coordinator.attentionGroups, ∃ firstGroupId manager,
    group.groupIds[0]? = some firstGroupId ∧
      coordinator.singleTypeManagers[firstGroupId]? = some manager ∧
      manager.blockSize = group.spec.blockSize * manager.dcpWorldSize ∧
      (group.spec.isFullAttention = false → manager.dcpWorldSize = 1)
  inRange : ∀ group ∈ coordinator.attentionGroups, ∀ groupId ∈ group.groupIds,
    groupId < coordinator.singleTypeManagers.length
  distinct : (coordinator.attentionGroups.flatMap (·.groupIds)).Nodup
  fits : ∀ group ∈ coordinator.attentionGroups, Fits coordinator.hashBlockSize
    coordinator.cacheHitAlignmentTokens (coordinator.groupBlockSize group)
  whole : ∀ group ∈ coordinator.attentionGroups,
    (coordinator.enablePartialHashHits && group.spec.supportsFineGrainedHashLookup) = false →
      coordinator.groupBlockSize group ∣ coordinator.cacheHitAlignmentTokens
  fine : coordinator.enablePartialHashHits = true →
    coordinator.cacheHitAlignmentTokens = coordinator.hashBlockSize
  cacheable : ∀ group ∈ coordinator.attentionGroups, group.spec.prefixCacheable = true
  sorted : ∀ before group after, coordinator.attentionGroups = before ++ group :: after →
    group.spec.isFullAttention = true → ∀ other ∈ before, other.spec.isFullAttention = true

/-- The kinds of attention with a lookup of their own, within the guards of that lookup:
chunked local attention takes no drop and no other block size than the alignment. -/
def Guarded (coordinator : KVCacheCoordinator H) (group : SpecGroup) : Prop :=
  match group.spec.kind with
  | .chunkedLocalAttention _ =>
      group.useEagle = false ∧
        coordinator.groupBlockSize group = coordinator.cacheHitAlignmentTokens
  | .crossAttention => False
  | _ => True

/-- The lookup of `candidate` tokens stays settled at its answer: the chunk of the answer
starts in the same block. -/
def Settled (spec : KVCacheSpec) (blockSize candidate length : Nat) : Prop :=
  match spec.kind with
  | .chunkedLocalAttention chunk =>
      chunkStartBlock chunk blockSize candidate ≤ chunkStartBlock chunk blockSize length
  | _ => True

/-- Chunks are made of whole blocks, or blocks of whole chunks. -/
def ChunksFit (spec : KVCacheSpec) (blockSize : Nat) : Prop :=
  match spec.kind with
  | .chunkedLocalAttention chunk => blockSize ∣ chunk ∨ chunk ∣ blockSize
  | _ => True

/-- The unit after the first `length` tokens is cached in the group. -/
def FollowingCached [DecidableEq H] (coordinator : KVCacheCoordinator H) (blockHashes : List H)
    (group : SpecGroup) (length : Nat) : Prop :=
  ∃ row numTokens,
    length / coordinator.groupBlockSize group * coordinator.groupBlockSize group < numTokens ∧
    numTokens ≤ (length / coordinator.groupBlockSize group + 1) *
      coordinator.groupBlockSize group ∧
    length + dropUnit coordinator.cacheHitAlignmentTokens (coordinator.groupBlockSize group) ≤
      numTokens ∧
    CachedAt coordinator.blockPool blockHashes group.groupIds numTokens row

/-- What one lookup of a group returns for a candidate length. -/
structure GroupHit [DecidableEq H] (coordinator : KVCacheCoordinator H) (blockHashes : List H)
    (group : SpecGroup) (dropped : Bool) (candidate length : Nat) (rows : List HitRow) :
    Prop where
  aligned : coordinator.cacheHitAlignmentTokens ∣ length
  within : length ≤ candidate
  valid : Settled group.spec (coordinator.groupBlockSize group) candidate length →
    RowsHit coordinator.blockPool blockHashes group.groupIds group.spec
      (coordinator.groupBlockSize group) length rows
  settles : ChunksFit group.spec (coordinator.groupBlockSize group) →
    coordinator.cacheHitAlignmentTokens ∣ candidate →
      Settled group.spec (coordinator.groupBlockSize group) candidate length
  following : dropped = true → group.spec.isMamba = false → ∀ final, 0 < final →
    final ≤ length → coordinator.cacheHitAlignmentTokens ∣ final →
    (group.spec.isFullAttention = false → final = length) →
    coordinator.FollowingCached blockHashes group final

section Lookup

variable [DecidableEq H] {coordinator : KVCacheCoordinator H} {blockHashes : List H}
  {group : SpecGroup}

omit [DecidableEq H] in
/-- Two multiples of one unit lie at least the unit apart. -/
theorem add_le_of_dvd {unit smaller larger : Nat} (left : unit ∣ smaller) (right : unit ∣ larger)
    (less : smaller < larger) : smaller + unit ≤ larger := by
  rcases left with ⟨fewer, rfl⟩
  rcases right with ⟨more, rfl⟩
  exact Nat.mul_le_mul_left unit (Nat.lt_of_mul_lt_mul_left less)

variable {length candidate maxLength : Nat}

/-- In a longer hit of full attention the unit after a shorter one is cached. -/
theorem followingCached_of_rowsHit (full : group.spec.isFullAttention = true)
    (fits : Fits coordinator.hashBlockSize coordinator.cacheHitAlignmentTokens
      (coordinator.groupBlockSize group)) {found : Nat} {rows : List HitRow}
    (hit : RowsHit coordinator.blockPool blockHashes group.groupIds group.spec
      (coordinator.groupBlockSize group) found rows)
    (aligned : coordinator.cacheHitAlignmentTokens ∣ length)
    (longer : length + dropUnit coordinator.cacheHitAlignmentTokens
      (coordinator.groupBlockSize group) ≤ found) :
    coordinator.FollowingCached blockHashes group length := by
  unfold FollowingCached
  generalize coordinator.groupBlockSize group = blockSize at fits hit longer ⊢
  have positive := fits.block_pos
  have unit_pos : 0 < dropUnit coordinator.cacheHitAlignmentTokens blockSize :=
    Nat.lt_min.mpr ⟨fits.alignment_pos, positive⟩
  have before : length / blockSize * blockSize ≤ length := Nat.div_mul_le_self _ _
  have inside : length / blockSize < rows.length := by
    rw [hit.size, lt_cdiv_iff positive]
    omega
  have unit : length + dropUnit coordinator.cacheHitAlignmentTokens blockSize ≤
      (length / blockSize + 1) * blockSize := by
    have upper := Nat.lt_div_mul_add positive (a := length)
    have expand : (length / blockSize + 1) * blockSize =
        length / blockSize * blockSize + blockSize := Nat.succ_mul ..
    rcases fits.aligned with whole | ⟨same, finer⟩
    · have exact : length / blockSize * blockSize = length :=
        Nat.div_mul_cancel (whole.trans aligned)
      have least : dropUnit coordinator.cacheHitAlignmentTokens blockSize ≤ blockSize :=
        Nat.min_le_right ..
      omega
    · rw [← same] at fits
      exact (Nat.add_le_add_left (Nat.min_le_left ..) _).trans
        (add_le_of_dvd aligned (fits.hash_dvd.mul_left _) (by omega))
  have entry := List.getElem?_eq_getElem inside
  rcases hit.cached _ _ entry (KVCacheSpec.reads_of_isFullAttention full _ _) with
    ⟨numTokens, _, covers, cached⟩
  exact ⟨_, numTokens, covers.starts, covers.ends, (Nat.le_min.mpr ⟨longer, unit⟩).trans covers.reaches,
    cached⟩

section

omit [DecidableEq H]

/-- The margin of the search is the unit that the drop takes off. -/
theorem eagleMargin_eq (layout : coordinator.SearchLayout)
    (member : group ∈ coordinator.attentionGroups) :
    (if coordinator.enablePartialHashHits && group.spec.supportsFineGrainedHashLookup &&
        decide (coordinator.groupBlockSize group > coordinator.hashBlockSize) then
      coordinator.hashBlockSize else coordinator.groupBlockSize group) =
      dropUnit coordinator.cacheHitAlignmentTokens (coordinator.groupBlockSize group) := by
  have fits := layout.fits group member
  have least := Nat.le_of_dvd fits.block_pos fits.hash_dvd
  cases finer : coordinator.enablePartialHashHits && group.spec.supportsFineGrainedHashLookup with
  | false =>
      have whole := Nat.le_of_dvd fits.alignment_pos (layout.whole group member finer)
      simp only [Bool.false_and, Bool.false_eq_true, if_false, dropUnit]
      omega
  | true =>
      have same := layout.fine (Bool.and_eq_true_iff.mp finer).1
      simp only [Bool.true_and, decide_eq_true_eq, dropUnit, same]
      split <;> omega

/-- The length that a group is searched for. -/
def searchLength (coordinator : KVCacheCoordinator H) (group : SpecGroup) (dropped : Bool)
    (candidate maxCacheHitLength : Nat) : Nat :=
  if dropped && !group.spec.isMamba then
    min (candidate + dropUnit coordinator.cacheHitAlignmentTokens
      (coordinator.groupBlockSize group)) maxCacheHitLength
  else
    candidate

theorem searchLength_le {candidate maxLength : Nat} {dropped : Bool} (le : candidate ≤ maxLength) :
    coordinator.searchLength group dropped candidate maxLength ≤ maxLength := by
  unfold searchLength
  split
  · exact Nat.min_le_right ..
  · exact le

/-- Looking up the answer again without a drop gives the answer. -/
def Idempotent (coordinator : KVCacheCoordinator H) (blockHashes : List H) (group : SpecGroup)
    (dropped : Bool) (candidate length : Nat) (rows : List HitRow) : Prop :=
  group.spec.isFullAttention = false →
    Settled group.spec (coordinator.groupBlockSize group) candidate length →
    (dropped = true → ∀ window retained, group.spec.kind = .slidingWindow window retained →
      1 < window) →
    Core.findLongestCacheHit group.spec coordinator.blockPool blockHashes length group.groupIds false
      coordinator.cacheHitAlignmentTokens 1 = .ok (hitColumns group.groupIds.length rows, length)

theorem settled_of_isFullAttention {spec : KVCacheSpec} {blockSize : Nat}
    (full : spec.isFullAttention = true) : Settled spec blockSize candidate length := by
  unfold Settled
  unfold KVCacheSpec.isFullAttention at full
  split
  · rename_i kind
    simp [kind] at full
  · trivial

end

variable {manager : SingleTypeKVCacheManager H}

theorem groupHit_of_full (layout : coordinator.SearchLayout)
    (member : group ∈ coordinator.attentionGroups) (full : group.spec.isFullAttention = true)
    (sized : group.spec.blockSize * manager.dcpWorldSize = coordinator.groupBlockSize group)
    (reaches : maxLength / coordinator.hashBlockSize ≤ blockHashes.length)
    (le : candidate ≤ maxLength) (dropped : Bool) :
    ∃ rows length, Core.findLongestCacheHit group.spec coordinator.blockPool blockHashes
        (coordinator.searchLength group dropped candidate maxLength) group.groupIds dropped
        coordinator.cacheHitAlignmentTokens manager.dcpWorldSize =
          .ok (hitColumns group.groupIds.length rows, length) ∧
      coordinator.GroupHit blockHashes group dropped candidate length rows := by
  have fits := layout.fits group member
  have notMamba := KVCacheSpec.isMamba_of_isFullAttention full
  have searched := @searchLength_le _ coordinator group _ _ dropped le
  rw [← layout.hash_eq] at fits reaches
  rcases @findLongestFullAttentionHit_spec _ _ _ _ _ group.groupIds _ _ _ full fits
    ((Nat.div_le_div_right searched).trans reaches) dropped with
    ⟨rows, found, length, ran, hit, divides, within, aligned, dropUnits⟩
  refine ⟨rows.take (cdiv length (coordinator.groupBlockSize group)), length, ?_, ?_⟩
  · unfold Core.findLongestCacheHit
    unfold KVCacheSpec.isFullAttention at full
    split at full
    · rename_i kind
      simp only [kind, sized, ran]
      rfl
    · rename_i kind
      simp only [kind, sized, ran]
      rfl
    · cases full
  · have shorter : length ≤ found := by omega
    constructor
    · exact aligned
    · unfold searchLength at within
      simp only [notMamba, Bool.not_false, Bool.and_true] at within
      by_cases some : dropped = true ∧ 0 < found
      · rw [if_pos some] at dropUnits
        rw [if_pos some.1] at within
        omega
      · rw [if_neg some] at dropUnits
        cases dropped with
        | false => simp only [Bool.false_eq_true, if_false] at within; omega
        | true => simp only [true_and, Nat.not_lt] at some; omega
    · intro _
      exact hit.shorten full shorter
    · intro _ _
      exact settled_of_isFullAttention full
    · intro drop _ final nonzero le_length final_aligned _
      rw [if_pos ⟨drop, by omega⟩] at dropUnits
      rw [layout.hash_eq] at fits
      exact followingCached_of_rowsHit full fits hit final_aligned (by omega)

theorem groupHit_of_slidingWindow {window retained : Nat} (layout : coordinator.SearchLayout)
    (member : group ∈ coordinator.attentionGroups)
    (kind : group.spec.kind = .slidingWindow window retained)
    (sized : group.spec.blockSize = coordinator.groupBlockSize group)
    (reaches : maxLength / coordinator.hashBlockSize ≤ blockHashes.length)
    (le : candidate ≤ maxLength) (dropped : Bool) :
    ∃ rows length, Core.findLongestCacheHit group.spec coordinator.blockPool blockHashes
        (coordinator.searchLength group dropped candidate maxLength) group.groupIds dropped
        coordinator.cacheHitAlignmentTokens 1 = .ok
          (hitColumns group.groupIds.length rows, length) ∧
      coordinator.GroupHit blockHashes group dropped candidate length rows ∧
      coordinator.Idempotent blockHashes group dropped candidate length rows := by
  have fits := layout.fits group member
  have whole := layout.whole group member (by simp [KVCacheSpec.supportsFineGrainedHashLookup, kind])
  have notMamba : group.spec.isMamba = false := by simp [KVCacheSpec.isMamba, kind]
  have notFull : group.spec.isFullAttention = false := by simp [KVCacheSpec.isFullAttention, kind]
  have unit : dropUnit coordinator.cacheHitAlignmentTokens (coordinator.groupBlockSize group) =
      coordinator.groupBlockSize group := Nat.min_eq_right (Nat.le_of_dvd fits.alignment_pos whole)
  have reached := (Nat.div_le_div_right (c := coordinator.hashBlockSize)
    (@searchLength_le _ coordinator group _ _ dropped le)).trans
    reaches
  rw [← layout.hash_eq] at fits reached
  rcases @findLongestSlidingWindowHit_spec _ _ _ _ _ group.groupIds _ _ window fits whole reached
    dropped with ⟨rows, ran, hit⟩
  have within := hit.within
  unfold searchLength at within
  simp only [notMamba, Bool.not_false, Bool.and_true, unit] at within
  refine ⟨rows, rows.length * coordinator.groupBlockSize group, ?_, ?_, ?_⟩
  · simp only [Core.findLongestCacheHit, kind, sized, ran]
    rfl
  · constructor
    · exact hit.aligned.dvd
    · by_cases nonempty : rows = []
      · simp [nonempty]
      · cases dropped with
        | false => simpa using within
        | true =>
            rw [if_pos ⟨rfl, nonempty⟩, if_pos rfl] at within
            omega
    · intro _
      exact hit.rowsHit fits kind
    · intro _ _
      simp [Settled, kind]
    · intro drop _ final nonzero _ _ exact_
      have nonempty : rows ≠ [] := by
        rintro rfl
        rw [exact_ notFull] at nonzero
        simp at nonzero
      rcases hit.following drop nonempty with ⟨row, cached⟩
      rw [exact_ notFull]
      unfold FollowingCached
      rw [unit, Nat.mul_div_cancel _ fits.block_pos, Nat.succ_mul]
      have positive := fits.block_pos
      exact ⟨row, _, by omega, Nat.le_refl _, Nat.le_refl _, by rwa [← Nat.succ_mul]⟩
  · intro _ _ wide
    have again := hit.again fits whole reached (fun drop => wide drop window retained kind)
    simp only [Core.findLongestCacheHit, kind, sized, again]
    rfl

theorem groupHit_of_chunkedLocal {chunk : Nat} (layout : coordinator.SearchLayout)
    (member : group ∈ coordinator.attentionGroups)
    (kind : group.spec.kind = .chunkedLocalAttention chunk)
    (sized : group.spec.blockSize = coordinator.groupBlockSize group)
    (unit : coordinator.groupBlockSize group = coordinator.cacheHitAlignmentTokens)
    (reaches : maxLength / coordinator.hashBlockSize ≤ blockHashes.length)
    (le : candidate ≤ maxLength) :
    ∃ rows length, Core.findLongestCacheHit group.spec coordinator.blockPool blockHashes
        (coordinator.searchLength group false candidate maxLength) group.groupIds false
        coordinator.cacheHitAlignmentTokens 1 = .ok
          (hitColumns group.groupIds.length rows, length) ∧
      coordinator.GroupHit blockHashes group false candidate length rows ∧
      coordinator.Idempotent blockHashes group false candidate length rows := by
  have fits := layout.fits group member
  rw [← layout.hash_eq, ← unit] at fits
  rcases @findLongestChunkedLocalHit_spec _ _ _ _ _ group.groupIds _ chunk fits
    (layout.hash_eq ▸ (Nat.div_le_div_right le).trans reaches) with ⟨rows, ran, hit, again⟩
  refine ⟨rows, rows.length * coordinator.groupBlockSize group, ?_, ?_, ?_⟩
  · simp only [searchLength, Bool.false_and, Bool.false_eq_true, if_false, Core.findLongestCacheHit,
      kind, sized, ← unit, ran]
    rfl
  · constructor
    · exact unit ▸ Nat.dvd_mul_left ..
    · exact hit.within
    · intro settled
      unfold Settled at settled
      rw [kind] at settled
      exact hit.rowsHit fits kind settled
    · intro sizes aligned
      unfold ChunksFit at sizes
      unfold Settled
      rw [kind] at sizes ⊢
      rcases sizes with whole | whole
      · exact hit.settled_of_dvd whole
      · exact hit.settled_of_chunk_dvd whole (unit ▸ aligned)
    · nofun
  · intro _ settled _
    unfold Settled at settled
    rw [kind] at settled
    simp only [Core.findLongestCacheHit, kind, sized, ← unit, again settled]
    rfl

theorem groupHit_of_mamba (layout : coordinator.SearchLayout)
    (member : group ∈ coordinator.attentionGroups) (mamba : group.spec.isMamba = true)
    (sized : group.spec.blockSize = coordinator.groupBlockSize group)
    (reaches : maxLength / coordinator.hashBlockSize ≤ blockHashes.length)
    (le : candidate ≤ maxLength) (dropped : Bool) :
    ∃ rows length, Core.findLongestCacheHit group.spec coordinator.blockPool blockHashes
        (coordinator.searchLength group dropped candidate maxLength) group.groupIds dropped
        coordinator.cacheHitAlignmentTokens 1 = .ok
          (hitColumns group.groupIds.length rows, length) ∧
      coordinator.GroupHit blockHashes group dropped candidate length rows ∧
      coordinator.Idempotent blockHashes group dropped candidate length rows := by
  have fits := layout.fits group member
  rw [← layout.hash_eq] at fits
  rcases @findLongestMambaHit_spec _ _ _ _ _ group.groupIds _ _ fits
    (layout.hash_eq ▸ (Nat.div_le_div_right le).trans reaches) with
    ⟨rows, length, ran, hit, aligned, within, again⟩
  have looked (searched : Nat) (drop : Bool) : Core.findLongestCacheHit group.spec
      coordinator.blockPool blockHashes searched group.groupIds drop
      coordinator.cacheHitAlignmentTokens 1 =
      (findLongestMambaHit coordinator.blockPool blockHashes searched group.groupIds
        (coordinator.groupBlockSize group) coordinator.cacheHitAlignmentTokens).map
        fun found => (hitColumns group.groupIds.length found.1, found.2) := by
    unfold KVCacheSpec.isMamba at mamba
    split at mamba
    · rename_i kind
      simp only [Core.findLongestCacheHit, kind, sized]
      rfl
    · cases mamba
  refine ⟨rows, length, ?_, ?_, ?_⟩
  · rw [looked]
    simp only [searchLength, mamba, Bool.not_true, Bool.and_false, Bool.false_eq_true, if_false, ran]
    rfl
  · constructor
    · exact aligned
    · exact within
    · intro _
      exact hit.rowsHit fits.block_pos mamba
    · intro _ _
      unfold Settled
      unfold KVCacheSpec.isMamba at mamba
      split
      · rename_i kind
        simp [kind] at mamba
      · trivial
    · intro _ notMamba
      rw [mamba] at notMamba
      cases notMamba
  · intro _ _ _
    rw [looked, again]
    rfl

/-- The lookup of any group within its guards. -/
theorem lookup_groupHit (layout : coordinator.SearchLayout)
    (member : group ∈ coordinator.attentionGroups) (guarded : coordinator.Guarded group)
    (sized : coordinator.groupBlockSize group = group.spec.blockSize * manager.dcpWorldSize)
    (unsharded : group.spec.isFullAttention = false → manager.dcpWorldSize = 1)
    (reaches : maxLength / coordinator.hashBlockSize ≤ blockHashes.length)
    (le : candidate ≤ maxLength) {dropped : Bool}
    (flagged : dropped = true → group.useEagle = true) :
    ∃ rows length, Core.findLongestCacheHit group.spec coordinator.blockPool blockHashes
        (coordinator.searchLength group dropped candidate maxLength) group.groupIds dropped
        coordinator.cacheHitAlignmentTokens manager.dcpWorldSize =
          .ok (hitColumns group.groupIds.length rows, length) ∧
      coordinator.GroupHit blockHashes group dropped candidate length rows ∧
      coordinator.Idempotent blockHashes group dropped candidate length rows := by
  cases full : group.spec.isFullAttention with
  | true =>
      rcases groupHit_of_full layout member full sized.symm reaches le dropped with
        ⟨rows, length, ran, hit⟩
      refine ⟨rows, length, ran, hit, fun notFull => ?_⟩
      rw [full] at notFull
      cases notFull
  | false =>
      have same : group.spec.blockSize = coordinator.groupBlockSize group := by
        rw [sized, unsharded full, Nat.mul_one]
      rw [unsharded full]
      have cacheable := layout.cacheable group member
      unfold Guarded at guarded
      cases kind : group.spec.kind with
      | fullAttention => simp [KVCacheSpec.isFullAttention, kind] at full
      | rswa window => simp [KVCacheSpec.isFullAttention, kind] at full
      | slidingWindow window retained =>
          exact groupHit_of_slidingWindow layout member kind same reaches le dropped
      | circularBuffer => simp [KVCacheSpec.prefixCacheable, kind] at cacheable
      | chunkedLocalAttention chunk =>
          rw [kind] at guarded
          have undropped : dropped = false := by
            cases dropped with
            | false => rfl
            | true => exact absurd (flagged rfl) (by simp [guarded.1])
          subst undropped
          exact groupHit_of_chunkedLocal layout member kind same guarded.2 reaches le
      | mamba mode speculative checkpoint =>
          exact groupHit_of_mamba layout member (by simp [KVCacheSpec.isMamba, kind]) same reaches
            le dropped
      | crossAttention =>
          rw [kind] at guarded
          exact guarded.elim

end Lookup

end KVCacheCoordinator

end Vllm.Core
