import Vllm.Core.HybridLookup

/-!
# The search of the hybrid coordinator

The search lowers a candidate length, group after group and round after round.  One
step of it either reads a length found before or looks the group up; the rules below
carry a property of the search through the steps of a round and through the rounds.
-/

namespace Vllm.Core

namespace KVCacheCoordinator

variable {H : Type}

/-! ## The stored hits -/

/-- The columns of a hit are stored at the groups of `group`, with its length. -/
def Placed (search : HitSearch) (group : SpecGroup) (length : Nat) (rows : List HitRow) : Prop :=
  ∀ position groupId, group.groupIds[position]? = some groupId →
    search.hitBlocksByGroup[groupId]? =
        some (some (rows.map fun row => row.getD position nullBlock)) ∧
      search.hitLengthByGroup[groupId]? = some length

/-- Nothing is stored yet for the first group of `group`. -/
def Unplaced (search : HitSearch) (group : SpecGroup) : Prop :=
  ∀ groupId, group.groupIds[0]? = some groupId → search.hitBlocksByGroup.getD groupId none = none

/-- The search has an entry for every group. -/
structure Sized (coordinator : KVCacheCoordinator H) (search : HitSearch) : Prop where
  blocks : search.hitBlocksByGroup.length = coordinator.singleTypeManagers.length
  lengths : search.hitLengthByGroup.length = coordinator.singleTypeManagers.length

/-- Storing changes the two stored lists only, and keeps their sizes. -/
theorem store_frame (hitLength : Nat) (entries : List (Nat × List BlockId)) (search : HitSearch) :
    (search.store hitLength entries).currHitLength = search.currHitLength ∧
      (search.store hitLength entries).longestHitLength = search.longestHitLength ∧
      (search.store hitLength entries).eagleVerified = search.eagleVerified ∧
      (search.store hitLength entries).hitBlocksByGroup.length = search.hitBlocksByGroup.length ∧
      (search.store hitLength entries).hitLengthByGroup.length = search.hitLengthByGroup.length := by
  induction entries generalizing search with
  | nil => exact ⟨rfl, rfl, rfl, rfl, rfl⟩
  | cons entry rest ih =>
      rw [HitSearch.store]
      rcases ih { search with
          hitBlocksByGroup := search.hitBlocksByGroup.set entry.1 (some entry.2)
          hitLengthByGroup := search.hitLengthByGroup.set entry.1 hitLength } with
        ⟨curr, longest, verified, blocks, lengths⟩
      exact ⟨curr, longest, verified, by simpa using blocks, by simpa using lengths⟩

variable {hitLength groupId : Nat} {entries : List (Nat × List BlockId)}

/-- Groups that are not stored to keep their entries. -/
theorem store_other (other : groupId ∉ entries.map (·.1)) (search : HitSearch) :
    (search.store hitLength entries).hitBlocksByGroup[groupId]? =
        search.hitBlocksByGroup[groupId]? ∧
      (search.store hitLength entries).hitLengthByGroup[groupId]? =
        search.hitLengthByGroup[groupId]? := by
  induction entries generalizing search with
  | nil => exact ⟨rfl, rfl⟩
  | cons entry rest ih =>
      rw [List.map_cons, List.mem_cons, not_or] at other
      rw [HitSearch.store]
      rcases ih other.2 { search with
          hitBlocksByGroup := search.hitBlocksByGroup.set entry.1 (some entry.2)
          hitLengthByGroup := search.hitLengthByGroup.set entry.1 hitLength } with ⟨blocks, lengths⟩
      rw [blocks, lengths]
      exact ⟨List.getElem?_set_ne (Ne.symm other.1), List.getElem?_set_ne (Ne.symm other.1)⟩

variable {search : HitSearch}

/-- Every stored entry is found again, the groups being distinct. -/
theorem store_found {blocks : List BlockId} (distinct : (entries.map (·.1)).Nodup)
    (member : (groupId, blocks) ∈ entries) (inBlocks : groupId < search.hitBlocksByGroup.length)
    (inLengths : groupId < search.hitLengthByGroup.length) :
    (search.store hitLength entries).hitBlocksByGroup[groupId]? = some (some blocks) ∧
      (search.store hitLength entries).hitLengthByGroup[groupId]? = some hitLength := by
  induction entries generalizing search with
  | nil => simp at member
  | cons entry rest ih =>
      rw [List.map_cons, List.nodup_cons] at distinct
      rw [HitSearch.store]
      rcases List.mem_cons.mp member with rfl | later
      · rcases store_other distinct.1 { search with
            hitBlocksByGroup := search.hitBlocksByGroup.set groupId (some blocks)
            hitLengthByGroup := search.hitLengthByGroup.set groupId hitLength } with
          ⟨stored, length⟩
        rw [stored, length]
        exact ⟨List.getElem?_set_self inBlocks, List.getElem?_set_self inLengths⟩
      · exact ih distinct.2 later (by simpa using inBlocks) (by simpa using inLengths)

/-- The entries that one lookup stores. -/
def hitEntries (group : SpecGroup) (rows : List HitRow) : List (Nat × List BlockId) :=
  group.groupIds.zip (hitColumns group.groupIds.length rows)

theorem map_fst_hitEntries (group : SpecGroup) (rows : List HitRow) :
    (hitEntries group rows).map (·.1) = group.groupIds := by
  rw [hitEntries, ← List.unzip_fst, List.unzip_zip_left]
  simp [hitColumns]

theorem store_placed {coordinator : KVCacheCoordinator H} {group : SpecGroup}
    (sized : coordinator.Sized search)
    (inRange : ∀ groupId ∈ group.groupIds, groupId < coordinator.singleTypeManagers.length)
    (distinct : group.groupIds.Nodup) (length : Nat) (rows : List HitRow) :
    Placed (search.store length (hitEntries group rows)) group length rows := by
  intro position groupId entry
  have below := (List.getElem?_eq_some_iff.mp entry).1
  have member : (groupId, rows.map fun row => row.getD position nullBlock) ∈
      hitEntries group rows := by
    apply List.mem_of_getElem? (i := position)
    rw [hitEntries, List.getElem?_zip_eq_some]
    exact ⟨entry, by simp [hitColumns, below]⟩
  have valid := inRange groupId (List.mem_of_getElem? entry)
  exact store_found (by rwa [map_fst_hitEntries]) member (sized.blocks ▸ valid)
    (sized.lengths ▸ valid)

/-! ## One group -/

section Steps

variable [DecidableEq H] {coordinator : KVCacheCoordinator H} {blockHashes : List H}
  {maxCacheHitLength : Nat}

/-- `drop_eagle_block`: each EAGLE group drops once per verification. -/
def drops (search : HitSearch) (idx : Nat) (group : SpecGroup) : Bool :=
  group.useEagle && !search.eagleVerified.contains idx

/-- `eagle_verified` after a lookup. -/
def verifiedAfter (search : HitSearch) (idx : Nat) (group : SpecGroup) (length : Nat) : List Nat :=
  if drops search idx group then search.eagleVerified ++ [idx]
  else if length < search.currHitLength then []
  else search.eagleVerified

/-- What one step of the search does: a full-attention group that was found before
bounds the candidate, any other group is looked up. -/
inductive Advance (coordinator : KVCacheCoordinator H) (blockHashes : List H) (idx : Nat)
    (group : SpecGroup) (search : HitSearch) : HitSearch → Prop
  | bounded (full : group.spec.isFullAttention = true) {firstGroupId : Nat}
      (first : group.groupIds[0]? = some firstGroupId)
      (found : (search.hitBlocksByGroup.getD firstGroupId none).isSome = true) :
      Advance coordinator blockHashes idx group search { search with
        currHitLength :=
          min search.currHitLength (search.hitLengthByGroup.getD firstGroupId 0) }
  | looked (fresh : group.spec.isFullAttention = true → Unplaced search group)
      {length : Nat} {rows : List HitRow}
      (hit : coordinator.GroupHit blockHashes group (drops search idx group)
        search.currHitLength length rows)
      (idempotent : coordinator.Idempotent blockHashes group (drops search idx group)
        search.currHitLength length rows) :
      Advance coordinator blockHashes idx group search (HitSearch.store
        { search with
          currHitLength := length
          longestHitLength := max search.longestHitLength length
          eagleVerified := verifiedAfter search idx group length }
        length (hitEntries group rows))

theorem searchSpecGroup_advances (layout : coordinator.SearchLayout) {group : SpecGroup}
    (member : group ∈ coordinator.attentionGroups) (guarded : coordinator.Guarded group)
    (reaches : maxCacheHitLength / coordinator.hashBlockSize ≤ blockHashes.length)
    {search : HitSearch} (le : search.currHitLength ≤ maxCacheHitLength) (idx : Nat) :
    ∃ next, searchSpecGroup coordinator blockHashes maxCacheHitLength idx group search = .ok next ∧
      Advance coordinator blockHashes idx group search next := by
  rcases layout.manager group member with ⟨firstGroupId, manager, first, managed, sized, unsharded⟩
  have blockSize : manager.blockSize = coordinator.groupBlockSize group := by
    simp [groupBlockSize, first, managed]
  have flagged : drops search idx group = true → group.useEagle = true := fun dropped =>
    (Bool.and_eq_true_iff.mp dropped).1
  rcases lookup_groupHit layout member guarded (blockSize ▸ sized) unsharded reaches le flagged with
    ⟨rows, length, ran, hit, idempotent⟩
  rw [searchSpecGroup, pyIndex_eq_ok.mpr first]
  simp only [bind, Except.bind]
  rw [pyIndex_eq_ok.mpr managed]
  simp only [blockSize, eagleMargin_eq layout member]
  split
  · rename_i found
    exact ⟨_, rfl, .bounded found.1 first found.2⟩
  · rename_i fresh
    generalize looked : Core.findLongestCacheHit group.spec coordinator.blockPool blockHashes
      _ _ _ _ _ = outcome
    cases looked.symm.trans ran
    refine ⟨_, rfl, .looked ?_ hit idempotent⟩
    intro full groupId start
    rw [first, Option.some.injEq] at start
    subst start
    simp only [full, true_and] at fresh
    simpa using fresh

variable {idx length start firstGroupId bound : Nat} {group stored : SpecGroup}
  {search next : HitSearch} {done rest : List SpecGroup}

theorem Advance.sized (advance : Advance coordinator blockHashes idx group search next)
    (sized : coordinator.Sized search) : coordinator.Sized next := by
  cases advance with
  | bounded full first found => exact ⟨sized.blocks, sized.lengths⟩
  | looked fresh hit idempotent =>
      rcases store_frame _ _ _ with ⟨_, _, _, blocks, lengths⟩
      exact ⟨blocks.trans sized.blocks, lengths.trans sized.lengths⟩

theorem Advance.le (advance : Advance coordinator blockHashes idx group search next) :
    next.currHitLength ≤ search.currHitLength := by
  cases advance with
  | bounded full first found => exact Nat.min_le_left ..
  | looked fresh hit idempotent =>
      rcases store_frame _ _ _ with ⟨curr, _⟩
      exact curr.le.trans hit.within

/-- A step on one group leaves what is stored at the others. -/
theorem Advance.other (advance : Advance coordinator blockHashes idx group search next)
    (other : groupId ∉ group.groupIds) :
    next.hitBlocksByGroup[groupId]? = search.hitBlocksByGroup[groupId]? ∧
      next.hitLengthByGroup[groupId]? = search.hitLengthByGroup[groupId]? := by
  cases advance with
  | bounded full first found => exact ⟨rfl, rfl⟩
  | looked fresh hit idempotent =>
      exact store_other (by rwa [map_fst_hitEntries]) _

variable {rows : List HitRow}

theorem Placed.other (advance : Advance coordinator blockHashes idx group search next)
    (disjoint : ∀ groupId ∈ stored.groupIds, groupId ∉ group.groupIds)
    (placed : Placed search stored length rows) : Placed next stored length rows := by
  intro position groupId entry
  rcases advance.other (disjoint groupId (List.mem_of_getElem? entry)) with ⟨blocks, lengths⟩
  rw [blocks, lengths]
  exact placed position groupId entry

theorem Unplaced.other (advance : Advance coordinator blockHashes idx group search next)
    (disjoint : ∀ groupId ∈ stored.groupIds, groupId ∉ group.groupIds)
    (unplaced : Unplaced search stored) : Unplaced next stored := by
  intro groupId entry
  rcases advance.other (disjoint groupId (List.mem_of_getElem? entry)) with ⟨blocks, _⟩
  rw [List.getD_eq_getElem?_getD, blocks, ← List.getD_eq_getElem?_getD]
  exact unplaced groupId entry

/-! ## The rounds -/

omit [DecidableEq H] in
theorem SearchLayout.disjoint (layout : coordinator.SearchLayout) {before after : List SpecGroup}
    (split : coordinator.attentionGroups = before ++ group :: after) :
    group.groupIds.Nodup ∧
      (∀ other ∈ before ++ after, ∀ groupId ∈ other.groupIds, groupId ∉ group.groupIds) := by
  have distinct := layout.distinct
  rw [split, List.flatMap_append, List.flatMap_cons] at distinct
  rcases List.nodup_append.mp distinct with ⟨_, suffix, apart⟩
  rcases List.nodup_append.mp suffix with ⟨own, _, later⟩
  refine ⟨own, fun other member groupId inOther inGroup => ?_⟩
  rcases List.mem_append.mp member with earlier | follows
  · exact apart groupId (List.mem_flatMap.mpr ⟨other, earlier, inOther⟩) groupId
      (List.mem_append_left _ inGroup) rfl
  · exact later groupId inGroup groupId (List.mem_flatMap.mpr ⟨other, follows, inOther⟩) rfl

/-- The rule for a round: what every step keeps holds after the round. -/
theorem searchRound_rule (layout : coordinator.SearchLayout)
    (guarded : ∀ group ∈ coordinator.attentionGroups, coordinator.Guarded group)
    (reaches : maxCacheHitLength / coordinator.hashBlockSize ≤ blockHashes.length)
    (property : List SpecGroup → HitSearch → Prop) (kept : ∀ done group rest search next,
      coordinator.attentionGroups = done ++ group :: rest → coordinator.Sized search →
      property done search → Advance coordinator blockHashes done.length group search next →
      property (done ++ [group]) next) {done rest : List SpecGroup} {search : HitSearch}
    (split : coordinator.attentionGroups = done ++ rest) (sized : coordinator.Sized search)
    (le : search.currHitLength ≤ maxCacheHitLength) (holds : property done search) :
    ∃ final, searchRound coordinator blockHashes maxCacheHitLength done.length rest search =
        .ok final ∧
      coordinator.Sized final ∧ final.currHitLength ≤ search.currHitLength ∧
      property coordinator.attentionGroups final := by
  induction rest generalizing done search with
  | nil =>
      rw [List.append_nil] at split
      exact ⟨search, rfl, sized, Nat.le_refl _, split ▸ holds⟩
  | cons group rest ih =>
      have member : group ∈ coordinator.attentionGroups := by simp [split]
      rcases searchSpecGroup_advances layout member (guarded group member) reaches le done.length
        with ⟨next, ran, advance⟩
      have after := kept done group rest search next split sized holds advance
      rcases ih (by simp [split]) (advance.sized sized) (advance.le.trans le) after with
        ⟨final, rounds, finalSized, lower, finalHolds⟩
      rw [List.length_append, List.length_singleton] at rounds
      refine ⟨final, ?_, finalSized, lower.trans advance.le, finalHolds⟩
      rw [searchRound, ran]
      exact rounds

/-- `group` has a stored hit of `length` tokens. -/
structure Held (coordinator : KVCacheCoordinator H) (blockHashes : List H) (search : HitSearch)
    (group : SpecGroup) (dropped : Bool) (candidate length : Nat) (rows : List HitRow) : Prop where
  placed : Placed search group length rows
  hit : coordinator.GroupHit blockHashes group dropped candidate length rows

theorem Held.other {candidate : Nat} {dropped : Bool}
    (advance : Advance coordinator blockHashes idx group search next)
    (disjoint : ∀ groupId ∈ stored.groupIds, groupId ∉ group.groupIds)
    (held : coordinator.Held blockHashes search stored dropped candidate length rows) :
    coordinator.Held blockHashes next stored dropped candidate length rows :=
  ⟨held.placed.other advance disjoint, held.hit⟩

/-- `group` was searched in the round from `start`: its hit reaches the candidate, and if
it can fail at shorter lengths it was looked up in this round. -/
def Searched (coordinator : KVCacheCoordinator H) (blockHashes : List H) (start : Nat)
    (search : HitSearch) (group : SpecGroup) : Prop :=
  ∃ dropped candidate length rows,
    coordinator.Held blockHashes search group dropped candidate length rows ∧
      search.currHitLength ≤ length ∧ (group.spec.isFullAttention = false → candidate ≤ start)

/-- `group` is yet to be searched: full attention may have a hit of an earlier round. -/
def Awaits (coordinator : KVCacheCoordinator H) (blockHashes : List H) (bound : Nat)
    (search : HitSearch) (group : SpecGroup) : Prop :=
  group.spec.isFullAttention = true → Unplaced search group ∨
    ∃ dropped candidate length rows,
      coordinator.Held blockHashes search group dropped candidate length rows ∧ bound ≤ length

/-- The candidate of a search is aligned as soon as a group was searched. -/
def CandidateAligned (coordinator : KVCacheCoordinator H) (bound : Nat) (search : HitSearch) :
    Prop :=
  coordinator.cacheHitAlignmentTokens ∣ bound ∨
    ∀ group ∈ coordinator.attentionGroups, group.spec.isFullAttention = true →
      Unplaced search group

/-- What holds inside a round from `start`, after the groups `done`. -/
structure InRound (coordinator : KVCacheCoordinator H) (blockHashes : List H) (start : Nat)
    (done : List SpecGroup) (search : HitSearch) : Prop where
  lower : search.currHitLength ≤ start
  searched : ∀ group ∈ done, coordinator.Searched blockHashes start search group
  awaits : ∀ rest, coordinator.attentionGroups = done ++ rest → ∀ group ∈ rest,
    coordinator.Awaits blockHashes search.currHitLength search group
  aligned : if done = [] then coordinator.CandidateAligned search.currHitLength search
    else coordinator.cacheHitAlignmentTokens ∣ search.currHitLength
  last : ∀ group, done.getLast? = some group → group.spec.isFullAttention = false →
    ∃ dropped candidate rows, coordinator.Held blockHashes search group dropped candidate
      search.currHitLength rows ∧
      (1 < done.length → coordinator.cacheHitAlignmentTokens ∣ candidate)

/-- A stored hit of full attention reaches the candidate, so it does not lower it. -/
theorem InRound.bounded_same (split : coordinator.attentionGroups = done ++ group :: rest)
    (full : group.spec.isFullAttention = true) (first : group.groupIds[0]? = some firstGroupId)
    (found : (search.hitBlocksByGroup.getD firstGroupId none).isSome = true)
    (inRound : coordinator.InRound blockHashes start done search) :
    min search.currHitLength (search.hitLengthByGroup.getD firstGroupId 0) =
      search.currHitLength := by
  rcases inRound.awaits _ split group List.mem_cons_self full with
    unplaced | ⟨dropped, candidate, length, rows, held, reaches⟩
  · rw [unplaced firstGroupId first] at found
    cases found
  · rw [List.getD_eq_getElem?_getD, (held.placed 0 firstGroupId first).2, Option.getD_some]
    exact Nat.min_eq_left reaches

theorem InRound.bounded (split : coordinator.attentionGroups = done ++ group :: rest)
    (full : group.spec.isFullAttention = true) (first : group.groupIds[0]? = some firstGroupId)
    (found : (search.hitBlocksByGroup.getD firstGroupId none).isSome = true)
    (inRound : coordinator.InRound blockHashes start done search) :
    coordinator.InRound blockHashes start (done ++ [group]) search := by
  rcases inRound.awaits _ split group List.mem_cons_self full with
    unplaced | ⟨dropped, candidate, length, rows, held, reaches⟩
  · rw [unplaced firstGroupId first] at found
    cases found
  · have aligned : coordinator.cacheHitAlignmentTokens ∣ search.currHitLength := by
      have before := inRound.aligned
      split at before
      · rcases before with aligned | unplaced
        · exact aligned
        · have member : group ∈ coordinator.attentionGroups := by simp [split]
          rw [unplaced group member full firstGroupId first] at found
          cases found
      · exact before
    constructor
    · exact inRound.lower
    · intro other member
      rcases List.mem_append.mp member with earlier | own
      · exact inRound.searched other earlier
      · rw [List.mem_singleton.mp own]
        refine ⟨dropped, candidate, length, rows, held, reaches, fun notFull => ?_⟩
        rw [full] at notFull
        cases notFull
    · intro later splitLater other member
      exact inRound.awaits (group :: later) (by simp [splitLater]) other
        (List.mem_cons_of_mem _ member)
    · rw [if_neg (by simp)]
      exact aligned
    · intro other isLast notFull
      rw [List.getLast?_concat, Option.some.injEq] at isLast
      rw [← isLast, full] at notFull
      cases notFull

/-- What a lookup leaves behind. -/
structure LookedUp (coordinator : KVCacheCoordinator H) (blockHashes : List H) (idx : Nat)
    (group : SpecGroup) (search next : HitSearch) (length : Nat) (rows : List HitRow) : Prop where
  fresh : group.spec.isFullAttention = true → Unplaced search group
  held : coordinator.Held blockHashes next group (drops search idx group) search.currHitLength
    length rows
  idempotent : coordinator.Idempotent blockHashes group (drops search idx group)
    search.currHitLength length rows
  curr : next.currHitLength = length
  longest : next.longestHitLength = max search.longestHitLength length
  verified : next.eagleVerified = verifiedAfter search idx group length

theorem Advance.outcome (layout : coordinator.SearchLayout)
    (split : coordinator.attentionGroups = done ++ group :: rest) (sized : coordinator.Sized search)
    (advance : Advance coordinator blockHashes idx group search next) :
    (group.spec.isFullAttention = true ∧ ∃ firstGroupId, group.groupIds[0]? = some firstGroupId ∧
      (search.hitBlocksByGroup.getD firstGroupId none).isSome = true ∧
      next = { search with
        currHitLength :=
          min search.currHitLength (search.hitLengthByGroup.getD firstGroupId 0) }) ∨
    ∃ length rows, coordinator.LookedUp blockHashes idx group search next length rows := by
  cases advance with
  | bounded full first found => exact .inl ⟨full, _, first, found, rfl⟩
  | @looked fresh length rows hit idempotent =>
      have member : group ∈ coordinator.attentionGroups := by simp [split]
      rcases store_frame length (hitEntries group rows) { search with
        currHitLength := length
        longestHitLength := max search.longestHitLength length
        eagleVerified := verifiedAfter search idx group length } with ⟨curr, longest, verified, _⟩
      refine .inr ⟨length, rows, fresh, ⟨?_, hit⟩, idempotent, curr, longest, verified⟩
      have stored : coordinator.Sized { search with
          currHitLength := length
          longestHitLength := max search.longestHitLength length
          eagleVerified := verifiedAfter search idx group length } :=
        ⟨sized.blocks, sized.lengths⟩
      exact store_placed stored (layout.inRange group member) (layout.disjoint split).1 length rows

theorem InRound.advance (layout : coordinator.SearchLayout)
    (split : coordinator.attentionGroups = done ++ group :: rest) (sized : coordinator.Sized search)
    (inRound : coordinator.InRound blockHashes start done search)
    (advance : Advance coordinator blockHashes done.length group search next) :
    coordinator.InRound blockHashes start (done ++ [group]) next := by
  have lower := advance.le
  have apart := (layout.disjoint split).2
  rcases advance.outcome layout split sized with
    ⟨full, firstGroupId, first, found, rfl⟩ | ⟨length, rows, looked⟩
  · rw [inRound.bounded_same split full first found]
    exact inRound.bounded split full first found
  · constructor
    · exact lower.trans inRound.lower
    · intro other member
      rcases List.mem_append.mp member with earlier | same
      · rcases inRound.searched other earlier with
          ⟨dropped, candidate, found, others, before, reaches, fresh⟩
        exact ⟨dropped, candidate, found, others,
          before.other advance (apart other (List.mem_append_left _ earlier)),
          lower.trans reaches, fresh⟩
      · rw [List.mem_singleton.mp same]
        exact ⟨_, _, length, rows, looked.held, looked.curr.le, fun _ => inRound.lower⟩
    · intro later splitLater other member full
      have inRest : other ∈ rest := by
        have same := split.symm.trans splitLater
        rw [List.append_assoc, List.append_cancel_left_eq, List.singleton_append,
          List.cons.injEq] at same
        exact same.2 ▸ member
      have disjoint := apart other (List.mem_append_right _ inRest)
      rcases inRound.awaits _ split other (List.mem_cons_of_mem _ inRest) full with
        unplaced | ⟨dropped, candidate, found, others, before, reaches⟩
      · exact .inl (unplaced.other advance disjoint)
      · exact .inr ⟨dropped, candidate, found, others, before.other advance disjoint,
          lower.trans reaches⟩
    · rw [if_neg (by simp), looked.curr]
      exact looked.held.hit.aligned
    · intro other isLast _
      rw [List.getLast?_concat, Option.some.injEq] at isLast
      rw [← isLast, looked.curr]
      refine ⟨_, _, rows, looked.held, fun several => ?_⟩
      have before := inRound.aligned
      rwa [if_neg (by rintro rfl; simp at several)] at before

/-- What holds between two rounds, the candidate of the next one being `bound`. -/
structure Between (coordinator : KVCacheCoordinator H) (blockHashes : List H)
    (maxCacheHitLength bound : Nat) (search : HitSearch) : Prop where
  sized : coordinator.Sized search
  within : bound ≤ maxCacheHitLength
  awaits : ∀ group ∈ coordinator.attentionGroups, coordinator.Awaits blockHashes bound search group
  aligned : coordinator.CandidateAligned bound search

/-- What a whole round gives. -/
structure RoundDone (coordinator : KVCacheCoordinator H) (blockHashes : List H)
    (start : Nat) (final : HitSearch) : Prop where
  lower : final.currHitLength ≤ start
  aligned : coordinator.cacheHitAlignmentTokens ∣ final.currHitLength
  searched : ∀ group ∈ coordinator.attentionGroups,
    coordinator.Searched blockHashes start final group
  last : ∀ group, coordinator.attentionGroups.getLast? = some group →
    group.spec.isFullAttention = false →
      ∃ dropped candidate rows, coordinator.Held blockHashes final group dropped candidate
        final.currHitLength rows ∧
        (1 < coordinator.attentionGroups.length → coordinator.cacheHitAlignmentTokens ∣ candidate)

/-- A round begins where the one before it ended. -/
theorem Between.inRound (between : coordinator.Between blockHashes maxCacheHitLength bound search) :
    coordinator.InRound blockHashes bound [] { search with currHitLength := bound } := by
  constructor
  · exact Nat.le_refl _
  · simp
  · intro rest split group member full
    rcases between.awaits group (by rwa [split]) full with
      unplaced | ⟨dropped, candidate, length, rows, held, reached⟩
    · exact .inl unplaced
    · exact .inr ⟨dropped, candidate, length, rows, ⟨held.placed, held.hit⟩, reached⟩
  · rcases between.aligned with aligned | unplaced
    · exact .inl aligned
    · exact .inr unplaced
  · simp

theorem searchRound_done (layout : coordinator.SearchLayout)
    (guarded : ∀ group ∈ coordinator.attentionGroups, coordinator.Guarded group)
    (reaches : maxCacheHitLength / coordinator.hashBlockSize ≤ blockHashes.length)
    (between : coordinator.Between blockHashes maxCacheHitLength bound search) :
    ∃ final, searchRound coordinator blockHashes maxCacheHitLength 0 coordinator.attentionGroups
        { search with currHitLength := bound } = .ok final ∧
      coordinator.RoundDone blockHashes bound final ∧
      coordinator.Between blockHashes maxCacheHitLength final.currHitLength final := by
  rcases @searchRound_rule _ _ _ _ _ layout guarded reaches
    (coordinator.InRound blockHashes bound)
    (fun done group rest search next split sized => InRound.advance layout split sized) ([])
    coordinator.attentionGroups ({ search with currHitLength := bound }) rfl
    ⟨between.sized.blocks, between.sized.lengths⟩ between.within between.inRound with
    ⟨final, ran, sized, lower, done⟩
  have aligned := done.aligned
  rw [if_neg layout.nonempty] at aligned
  refine ⟨final, ran, ⟨done.lower, aligned, done.searched, done.last⟩,
    ⟨sized, done.lower.trans between.within, ?_, .inl aligned⟩⟩
  intro group member _
  rcases done.searched group member with ⟨dropped, candidate, length, rows, held, reached, _⟩
  exact .inr ⟨dropped, candidate, length, rows, held, reached⟩

end Steps

end KVCacheCoordinator

end Vllm.Core
