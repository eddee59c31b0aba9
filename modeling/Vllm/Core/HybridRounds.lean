import Vllm.Core.HybridSearch

/-!
# The rounds of the hybrid search

Every repetition lowers the candidate, so the search ends.  It ends with a round that
kept its candidate, or early after one round of a simple hybrid; in both cases each
group holds a valid hit of the final length.
-/

namespace Vllm.Core

namespace KVCacheCoordinator

variable {H : Type}

/-- The stored blocks of one KV cache group are a valid hit of `length` tokens: they cover
exactly that length, and every block that the next query reads is cached under a hash
of the request for this group. -/
structure ValidHit (coordinator : KVCacheCoordinator H) [DecidableEq H] (blockHashes : List H)
    (group : SpecGroup) (groupId length : Nat) (blocks : List BlockId) : Prop where
  size : blocks.length = cdiv length (coordinator.groupBlockSize group)
  cached : ∀ index block, blocks[index]? = some block →
    group.spec.kind.Reads (coordinator.groupBlockSize group) length index →
      ∃ numTokens blockHash, coordinator.hashBlockSize ∣ numTokens ∧
        Covers group.spec (coordinator.groupBlockSize group) length index numTokens ∧
        prefixHash coordinator.blockPool blockHashes numTokens = some blockHash ∧
        coordinator.blockPool.cachedBlockHashToBlock.getOneBlock
          (makeBlockHashWithGroupId blockHash groupId) = some block

/-- The loop of the search without the early exit of a simple hybrid. -/
def convergeRounds [DecidableEq H] (coordinator : KVCacheCoordinator H) (blockHashes : List H)
    (maxCacheHitLength : Nat) : Nat → Nat → HitSearch → Except PyError (Nat × HitSearch)
  | 0, hitLength, search => .ok (hitLength, search)
  | rounds + 1, hitLength, search => do
      let search ← searchRound coordinator blockHashes maxCacheHitLength 0
        coordinator.attentionGroups { search with currHitLength := hitLength }
      if search.currHitLength ≥ hitLength then
        pure (hitLength, search)
      else
        convergeRounds coordinator blockHashes maxCacheHitLength rounds search.currHitLength search

/-- The search before its first round. -/
def initialSearch (coordinator : KVCacheCoordinator H) (maxCacheHitLength : Nat) : HitSearch where
  currHitLength := maxCacheHitLength
  longestHitLength := 0
  hitBlocksByGroup := List.replicate coordinator.singleTypeManagers.length none
  hitLengthByGroup := List.replicate coordinator.singleTypeManagers.length 0
  eagleVerified := []

section Rounds

variable [DecidableEq H] {coordinator : KVCacheCoordinator H} {blockHashes : List H}
  {maxCacheHitLength : Nat}

/-- The last round of a search: its start, and what it left. -/
structure LastRound (coordinator : KVCacheCoordinator H) (blockHashes : List H)
    (maxCacheHitLength start : Nat) (final : HitSearch) : Prop where
  done : coordinator.RoundDone blockHashes start final
  between : coordinator.Between blockHashes maxCacheHitLength final.currHitLength final
  exit : start ≤ final.currHitLength ∨ coordinator.isSimpleHybrid = true

variable {groupId length hitLength start idx : Nat} {search final next : HitSearch}
  {group first second : SpecGroup} {rows : List HitRow}

/-- The search ends: any number of rounds above the candidate gives the same result. -/
theorem searchRounds_lastRound (layout : coordinator.SearchLayout)
    (guarded : ∀ group ∈ coordinator.attentionGroups, coordinator.Guarded group)
    (reaches : maxCacheHitLength / coordinator.hashBlockSize ≤ blockHashes.length)
    {rounds bound : Nat} (enough : bound < rounds)
    (between : coordinator.Between blockHashes maxCacheHitLength bound search) :
    ∃ start final, start ≤ bound ∧
      coordinator.LastRound blockHashes maxCacheHitLength start final ∧
      ∀ extra, searchRounds coordinator blockHashes maxCacheHitLength (rounds + extra) bound
        search = .ok (final.currHitLength, final) := by
  induction rounds generalizing bound search with
  | zero => omega
  | succ rounds ih =>
      rcases searchRound_done layout guarded reaches between with ⟨next, ran, done, after⟩
      have unfolded (extra : Nat) : searchRounds coordinator blockHashes maxCacheHitLength
          (rounds + 1 + extra) bound search =
          if next.currHitLength ≥ bound then .ok (bound, next)
          else if coordinator.isSimpleHybrid then .ok (next.currHitLength, next)
          else searchRounds coordinator blockHashes maxCacheHitLength (rounds + extra)
            next.currHitLength next := by
        rw [show rounds + 1 + extra = rounds + extra + 1 by omega, searchRounds, ran]
        rfl
      by_cases settled : next.currHitLength ≥ bound
      · refine ⟨bound, next, Nat.le_refl _, ⟨done, after, .inl settled⟩, fun extra => ?_⟩
        rw [unfolded, if_pos settled, Nat.le_antisymm done.lower settled]
      · by_cases simple : coordinator.isSimpleHybrid = true
        · refine ⟨bound, next, Nat.le_refl _, ⟨done, after, .inr simple⟩, fun extra => ?_⟩
          rw [unfolded, if_neg settled, if_pos simple]
        · rcases ih (by omega) after with ⟨start, final, le, last, result⟩
          refine ⟨start, final, le.trans done.lower, last, fun extra => ?_⟩
          rw [unfolded, if_neg settled, if_neg simple]
          exact result extra

/-! ## The hits of the last round -/

/-- A row has the cached block of each group at the group's position. -/
theorem getElem?_getCachedBlock {pool : BlockPool H} {blockHash : H} {groupIds : List Nat}
    {row : List BlockId} (cached : pool.getCachedBlock blockHash groupIds = some row)
    {position groupId : Nat} (entry : groupIds[position]? = some groupId) :
    ∃ block, row[position]? = some block ∧
      pool.cachedBlockHashToBlock.getOneBlock (makeBlockHashWithGroupId blockHash groupId) =
        some block := by
  induction groupIds generalizing row position with
  | nil => simp at entry
  | cons first rest ih =>
      rw [BlockPool.getCachedBlock] at cached
      split at cached
      · cases cached
      · rename_i block found
        rcases Option.map_eq_some_iff.mp cached with ⟨others, later, rfl⟩
        cases position with
        | zero =>
            simp only [List.getElem?_cons_zero, Option.some.injEq] at entry
            exact ⟨block, rfl, entry ▸ found⟩
        | succ position => exact ih later (by simpa using entry)

/-- One column of a valid hit. -/
theorem validHit_of_rowsHit (layout : coordinator.SearchLayout) {position : Nat}
    (entry : group.groupIds[position]? = some groupId)
    (hit : RowsHit coordinator.blockPool blockHashes group.groupIds group.spec
      (coordinator.groupBlockSize group) length rows) :
    coordinator.ValidHit blockHashes group groupId length
      (rows.map fun row => row.getD position nullBlock) := by
  constructor
  · rw [List.length_map, hit.size]
  · intro index block found reads
    rw [List.getElem?_map, Option.map_eq_some_iff] at found
    rcases found with ⟨row, rowEntry, rfl⟩
    rcases hit.cached index row rowEntry reads with
      ⟨numTokens, divides, covers, blockHash, hash, cached⟩
    rcases getElem?_getCachedBlock cached entry with ⟨block, inRow, stored⟩
    rw [layout.hash_eq] at divides
    refine ⟨numTokens, blockHash, divides, covers, hash, ?_⟩
    rw [List.getD_eq_getElem?_getD, inRow]
    exact stored

section

omit [DecidableEq H]

/-- The specification group of a KV cache group is the only one that lists it. -/
theorem SearchLayout.group_unique (layout : coordinator.SearchLayout) {other : SpecGroup}
    (member : group ∈ coordinator.attentionGroups)
    (memberOther : other ∈ coordinator.attentionGroups) (inGroup : groupId ∈ group.groupIds)
    (inOther : groupId ∈ other.groupIds) : other = group := by
  rcases List.append_of_mem member with ⟨before, after, split⟩
  rw [split] at memberOther
  rcases List.mem_append.mp memberOther with earlier | later
  · exact absurd inGroup ((layout.disjoint split).2 other
      (List.mem_append_left _ earlier) groupId inOther)
  · rcases List.mem_cons.mp later with same | follows
    · exact same
    · exact absurd inGroup
        ((layout.disjoint split).2 other (List.mem_append_right _ follows) groupId inOther)

/-- The returned blocks of a group: those of full attention are cut to the hit. -/
theorem getElem?_truncateHits (layout : coordinator.SearchLayout)
    (member : group ∈ coordinator.attentionGroups) (inGroup : groupId ∈ group.groupIds)
    {stored : List (Option (List BlockId))} {blocks : List BlockId}
    (entry : stored[groupId]? = some (some blocks)) :
    (coordinator.truncateHits hitLength stored)[groupId]? = some
      (if group.spec.isFullAttention then
        blocks.take (cdiv hitLength (coordinator.groupBlockSize group)) else blocks) := by
  rw [truncateHits, List.getElem?_mapIdx, entry, Option.map_some, Option.getD_some]
  congr 1
  cases found : coordinator.attentionGroups.find? fun other =>
      other.spec.isFullAttention && other.groupIds.contains groupId with
  | none =>
      have notFull : group.spec.isFullAttention = false := by
        have fails := List.find?_eq_none.mp found group member
        simpa [inGroup] using fails
      rw [if_neg (by simp [notFull])]
  | some other =>
      have holds := List.find?_some found
      simp only [Bool.and_eq_true, List.contains_iff_mem] at holds
      have same := layout.group_unique member (List.mem_of_find?_eq_some found) inGroup holds.2
      subst same
      rw [if_pos holds.1]
      rcases layout.manager other member with ⟨firstGroupId, manager, first, managed, _⟩
      have firstEq : other.groupIds.getD 0 0 = firstGroupId := by
        rw [List.getD_eq_getElem?_getD, first, Option.getD_some]
      simp only [firstEq, managed, groupBlockSize, first, Option.bind_some]

/-- The group that an early exit leaves at its first lookup has steady sizes. -/
def ExitsSteadily (coordinator : KVCacheCoordinator H) : Prop :=
  coordinator.isSimpleHybrid = true → ∀ group ∈ coordinator.attentionGroups,
    ChunksFit group.spec (coordinator.groupBlockSize group)

theorem isSimpleHybrid_eq_true (simple : coordinator.isSimpleHybrid = true) :
    ∃ first second, coordinator.attentionGroups = [first, second] ∧
      first.spec.isFullAttention = true := by
  unfold isSimpleHybrid at simple
  split at simple
  · rename_i first second groups
    exact ⟨first, second, groups, simple⟩
  · cases simple

end

/-- After the last round every group that can fail at shorter lengths has a valid hit of
exactly the final length. -/
theorem LastRound.rowsHit (last : coordinator.LastRound blockHashes maxCacheHitLength start final)
    (steady : coordinator.ExitsSteadily) (member : group ∈ coordinator.attentionGroups)
    (notFull : group.spec.isFullAttention = false) :
    ∃ rows, Placed final group final.currHitLength rows ∧
      RowsHit coordinator.blockPool blockHashes group.groupIds group.spec
        (coordinator.groupBlockSize group) final.currHitLength rows := by
  rcases last.exit with settled | simple
  · rcases last.done.searched group member with
      ⟨dropped, candidate, length, rows, held, reaches, fresh⟩
    have within := held.hit.within
    have started := fresh notFull
    have same : length = final.currHitLength := by omega
    have kept : candidate = length := by omega
    subst same
    refine ⟨rows, held.placed, held.hit.valid ?_⟩
    rw [kept]
    unfold Settled
    split
    · exact Nat.le_refl _
    · trivial
  · have sizes := steady simple group member
    rcases isSimpleHybrid_eq_true simple with ⟨first, second, groups, full⟩
    have same : group = second := by
      rw [groups, List.mem_pair] at member
      rcases member with rfl | same
      · rw [full] at notFull
        cases notFull
      · exact same
    subst same
    rcases last.done.last group (by simp [groups]) notFull with
      ⟨dropped, candidate, rows, held, aligned⟩
    exact ⟨rows, held.placed, held.hit.valid (held.hit.settles sizes (aligned (by simp [groups])))⟩

theorem LastRound.validHit (layout : coordinator.SearchLayout)
    (last : coordinator.LastRound blockHashes maxCacheHitLength start final)
    (steady : coordinator.ExitsSteadily) (member : group ∈ coordinator.attentionGroups)
    (inGroup : groupId ∈ group.groupIds) :
    ∃ blocks, (coordinator.truncateHits final.currHitLength final.hitBlocksByGroup)[groupId]? =
        some blocks ∧
      coordinator.ValidHit blockHashes group groupId final.currHitLength blocks := by
  rcases List.getElem?_of_mem inGroup with ⟨position, entry⟩
  cases full : group.spec.isFullAttention with
  | false =>
      rcases last.rowsHit steady member full with ⟨rows, placed, hit⟩
      refine ⟨_, getElem?_truncateHits layout member inGroup (placed position groupId entry).1, ?_⟩
      rw [if_neg (by simp [full])]
      exact validHit_of_rowsHit layout entry hit
  | true =>
      rcases last.done.searched group member with
        ⟨dropped, candidate, length, rows, held, reaches, _⟩
      have hit := (held.hit.valid (settled_of_isFullAttention full)).shorten full reaches
      refine ⟨_, getElem?_truncateHits layout member inGroup
        (held.placed position groupId entry).1, ?_⟩
      rw [if_pos full, ← List.map_take]
      exact validHit_of_rowsHit layout entry hit

/-! ## The early exit -/

section

omit [DecidableEq H]

theorem set_of_getElem? {α : Type} {values : List α} {index : Nat} {value : α}
    (found : values[index]? = some value) : values.set index value = values := by
  rcases List.getElem?_eq_some_iff.mp found with ⟨inside, rfl⟩
  exact List.set_getElem_self inside

/-- Storing what is stored changes nothing. -/
theorem store_same {entries : List (Nat × List BlockId)}
    (stored : ∀ entry ∈ entries, search.hitBlocksByGroup[entry.1]? = some (some entry.2) ∧
      search.hitLengthByGroup[entry.1]? = some hitLength) :
    search.store hitLength entries = search := by
  induction entries with
  | nil => rfl
  | cons entry rest ih =>
      rcases stored entry List.mem_cons_self with ⟨blocks, length⟩
      rw [HitSearch.store, set_of_getElem? blocks, set_of_getElem? length]
      exact ih fun other member => stored other (List.mem_cons_of_mem _ member)

theorem store_placed_same (placed : Placed search group length rows) :
    search.store length (hitEntries group rows) = search := by
  apply store_same
  intro entry member
  rcases List.getElem?_of_mem member with ⟨position, found⟩
  rw [hitEntries, List.getElem?_zip_eq_some] at found
  rcases found with ⟨groupEntry, column⟩
  rcases placed position entry.1 groupEntry with ⟨blocks, stored⟩
  refine ⟨?_, stored⟩
  rw [blocks]
  have inside := (List.getElem?_eq_some_iff.mp groupEntry).1
  simp only [hitColumns, List.getElem?_map, List.getElem?_range inside, Option.map_some,
    Option.some.injEq] at column
  rw [column]

end

/-- A full-attention group whose stored hit reaches the candidate leaves the search as it
is. -/
theorem searchSpecGroup_full_again (layout : coordinator.SearchLayout) {group : SpecGroup}
    (member : group ∈ coordinator.attentionGroups) (full : group.spec.isFullAttention = true)
    {search : HitSearch} {length : Nat} {rows : List HitRow}
    (placed : Placed search group length rows) (le : search.currHitLength ≤ length) (idx : Nat) :
    searchSpecGroup coordinator blockHashes maxCacheHitLength idx group search = .ok search := by
  rcases layout.manager group member with ⟨firstGroupId, manager, first, managed, _⟩
  rcases placed 0 firstGroupId first with ⟨blocks, stored⟩
  rw [searchSpecGroup, pyIndex_eq_ok.mpr first]
  simp only [bind, Except.bind]
  rw [pyIndex_eq_ok.mpr managed]
  simp only [full, List.getD_eq_getElem?_getD, blocks, stored, Option.getD_some, Option.isSome_some,
    and_self, if_true, Nat.min_eq_left le]
  rfl

/-- A group that finds its stored hit again leaves the search as it is. -/
theorem searchSpecGroup_again (layout : coordinator.SearchLayout)
    (member : group ∈ coordinator.attentionGroups) (notFull : group.spec.isFullAttention = false)
    (placed : Placed search group search.currHitLength rows)
    (settled : drops search idx group = false)
    (longest : search.currHitLength ≤ search.longestHitLength)
    (again : Core.findLongestCacheHit group.spec coordinator.blockPool blockHashes
      search.currHitLength group.groupIds false coordinator.cacheHitAlignmentTokens 1 =
        .ok (hitColumns group.groupIds.length rows, search.currHitLength)) :
    searchSpecGroup coordinator blockHashes maxCacheHitLength idx group search = .ok search := by
  rcases layout.manager group member with ⟨firstGroupId, manager, first, managed, _, unsharded⟩
  unfold drops at settled
  rw [searchSpecGroup, pyIndex_eq_ok.mpr first]
  simp only [bind, Except.bind]
  rw [pyIndex_eq_ok.mpr managed]
  simp only [notFull, Bool.false_eq_true, false_and, if_false, settled, Bool.false_and,
    unsharded notFull, again, Nat.lt_irrefl, Nat.max_eq_left longest]
  exact congrArg Except.ok (store_placed_same placed)

omit [DecidableEq H] in
theorem initialSearch_sized : coordinator.Sized (coordinator.initialSearch maxCacheHitLength) :=
  ⟨List.length_replicate, List.length_replicate⟩

omit [DecidableEq H] in
theorem initialSearch_unplaced (group : SpecGroup) :
    Unplaced (coordinator.initialSearch maxCacheHitLength) group := by
  intro groupId _
  rw [List.getD_eq_getElem?_getD, initialSearch, List.getElem?_replicate]
  split <;> rfl

variable {done rest : List SpecGroup}

/-- The first round looks every group up. -/
theorem Advance.lookedUp (layout : coordinator.SearchLayout)
    (split : coordinator.attentionGroups = done ++ group :: rest) (sized : coordinator.Sized search)
    (unplaced : Unplaced search group)
    (advance : Advance coordinator blockHashes idx group search next) :
    ∃ length rows, coordinator.LookedUp blockHashes idx group search next length rows := by
  rcases advance.outcome layout split sized with
    ⟨_, firstGroupId, first, found, _⟩ | looked
  · rw [unplaced firstGroupId first] at found
    cases found
  · exact looked

/-- Where the second group of a simple hybrid finds its hit again: its sizes are steady,
and an EAGLE window has more than the current token. -/
def FindsAgain (coordinator : KVCacheCoordinator H) (group : SpecGroup) : Prop :=
  ChunksFit group.spec (coordinator.groupBlockSize group) ∧
    (group.useEagle = true → ∀ window retained, group.spec.kind = .slidingWindow window retained →
      1 < window)

omit [DecidableEq H] in
/-- After the first round the second group does not drop again. -/
theorem drops_settled {middle : HitSearch} {foundFirst found : Nat}
    (initial : search.eagleVerified = [])
    (verifiedFirst : middle.eagleVerified = verifiedAfter search 0 first foundFirst)
    (verified : next.eagleVerified = verifiedAfter middle 1 second found) :
    drops next 1 second = false := by
  have earlier : middle.eagleVerified.contains 1 = false := by
    rw [verifiedFirst, verifiedAfter, initial]
    split
    · rfl
    · split <;> rfl
  unfold drops
  rw [verified, verifiedAfter]
  split
  · simp
  · rename_i undropped
    unfold drops at undropped
    rw [earlier] at undropped
    simp only [Bool.not_false, Bool.and_true, Bool.not_eq_true] at undropped
    rw [undropped, Bool.false_and]

/-- A simple hybrid would keep its candidate in a second round. -/
theorem searchRound_again (layout : coordinator.SearchLayout)
    (guarded : ∀ group ∈ coordinator.attentionGroups, coordinator.Guarded group)
    (reaches : maxCacheHitLength / coordinator.hashBlockSize ≤ blockHashes.length)
    (groups : coordinator.attentionGroups = [first, second])
    (full : first.spec.isFullAttention = true) (finds : coordinator.FindsAgain second)
    (ran : searchRound coordinator blockHashes maxCacheHitLength 0 coordinator.attentionGroups
      (coordinator.initialSearch maxCacheHitLength) = .ok final) :
    searchRound coordinator blockHashes maxCacheHitLength 0 coordinator.attentionGroups final =
      .ok final := by
  have memberFirst : first ∈ coordinator.attentionGroups := by simp [groups]
  have memberSecond : second ∈ coordinator.attentionGroups := by simp [groups]
  have splitFirst : coordinator.attentionGroups = [] ++ first :: [second] := groups
  have splitSecond : coordinator.attentionGroups = [first] ++ second :: [] := groups
  have apart := (layout.disjoint splitSecond).2 first List.mem_cons_self
  rcases @searchSpecGroup_advances _ _ _ _ _ layout _ memberFirst (guarded first memberFirst)
    reaches (coordinator.initialSearch maxCacheHitLength) (Nat.le_refl _) 0 with
    ⟨middle, ranFirst, advanceFirst⟩
  rcases searchSpecGroup_advances layout memberSecond (guarded second memberSecond) reaches
      advanceFirst.le 1 with ⟨next, ranSecond, advanceSecond⟩
  have same : next = final := by
    rw [groups, searchRound, ranFirst] at ran
    simp only [bind, Except.bind, searchRound, ranSecond] at ran
    exact Except.ok.inj ran
  subst same
  have unplaced : Unplaced middle second := (initialSearch_unplaced second).other advanceFirst
    ((layout.disjoint splitFirst).2 second List.mem_cons_self)
  rcases advanceFirst.lookedUp layout splitFirst initialSearch_sized (initialSearch_unplaced first)
    with ⟨foundFirst, rowsFirst, lookedFirst⟩
  rcases advanceSecond.lookedUp layout splitSecond (advanceFirst.sized initialSearch_sized)
    unplaced with ⟨found, rows, looked⟩
  have placed := looked.held.placed
  rw [← looked.curr] at placed
  have firstAgain := @searchSpecGroup_full_again _ _ _ blockHashes maxCacheHitLength layout _
    memberFirst full _ _ _ (lookedFirst.held.placed.other advanceSecond apart)
    (advanceSecond.le.trans lookedFirst.curr.le) 0
  have secondAgain : searchSpecGroup coordinator blockHashes maxCacheHitLength 1 second next =
      .ok next := by
    cases fullSecond : second.spec.isFullAttention with
    | true =>
        exact searchSpecGroup_full_again layout memberSecond fullSecond placed (Nat.le_refl _) 1
    | false =>
        have aligned : coordinator.cacheHitAlignmentTokens ∣ middle.currHitLength :=
          lookedFirst.curr ▸ lookedFirst.held.hit.aligned
        have again := looked.idempotent fullSecond (looked.held.hit.settles finds.1 aligned)
          (fun dropped => finds.2 (Bool.and_eq_true_iff.mp dropped).1)
        rw [← looked.curr] at again
        refine searchSpecGroup_again layout memberSecond fullSecond placed ?_ ?_ again
        · exact drops_settled rfl lookedFirst.verified looked.verified
        · rw [looked.curr, looked.longest]
          exact Nat.le_max_right ..
  rw [groups, searchRound, firstAgain]
  simp only [bind, Except.bind, searchRound, secondAgain]

/-- Without a simple hybrid there is no early exit. -/
theorem convergeRounds_eq_of_not_simple (simple : coordinator.isSimpleHybrid = false)
    (rounds hitLength : Nat) (search : HitSearch) :
    convergeRounds coordinator blockHashes maxCacheHitLength rounds hitLength search =
      searchRounds coordinator blockHashes maxCacheHitLength rounds hitLength search := by
  induction rounds generalizing hitLength search with
  | zero => rfl
  | succ rounds ih =>
      rw [convergeRounds, searchRounds]
      simp only [simple, Bool.false_eq_true, if_false, ih]

/-- The early exit changes nothing where the second group finds its hit again. -/
theorem convergeRounds_eq (layout : coordinator.SearchLayout)
    (guarded : ∀ group ∈ coordinator.attentionGroups, coordinator.Guarded group)
    (reaches : maxCacheHitLength / coordinator.hashBlockSize ≤ blockHashes.length)
    (finds : coordinator.isSimpleHybrid = true →
      ∀ group ∈ coordinator.attentionGroups, coordinator.FindsAgain group) :
    convergeRounds coordinator blockHashes maxCacheHitLength (maxCacheHitLength + 1)
        maxCacheHitLength (coordinator.initialSearch maxCacheHitLength) =
      searchRounds coordinator blockHashes maxCacheHitLength (maxCacheHitLength + 1)
        maxCacheHitLength (coordinator.initialSearch maxCacheHitLength) := by
  cases simple : coordinator.isSimpleHybrid with
  | false => exact convergeRounds_eq_of_not_simple simple ..
  | true =>
      rcases isSimpleHybrid_eq_true simple with ⟨first, second, groups, full⟩
      rw [convergeRounds, searchRounds]
      cases ran : searchRound coordinator blockHashes maxCacheHitLength 0
          coordinator.attentionGroups (coordinator.initialSearch maxCacheHitLength) with
      | error failure =>
          have failed : searchRound coordinator blockHashes maxCacheHitLength 0
              coordinator.attentionGroups { coordinator.initialSearch maxCacheHitLength with
                currHitLength := maxCacheHitLength } = .error failure := ran
          rw [failed]
          rfl
      | ok final =>
          have first_ : searchRound coordinator blockHashes maxCacheHitLength 0
              coordinator.attentionGroups { coordinator.initialSearch maxCacheHitLength with
                currHitLength := maxCacheHitLength } = .ok final := ran
          have again := searchRound_again layout guarded reaches groups full
            (finds simple second (by simp [groups])) ran
          rw [first_]
          simp only [bind, Except.bind, simple, if_true]
          split
          · rfl
          · rename_i lowered
            cases maxCacheHitLength with
            | zero => omega
            | succ rounds =>
                rw [convergeRounds]
                have second_ : searchRound coordinator blockHashes (rounds + 1) 0
                    coordinator.attentionGroups
                      { final with currHitLength := final.currHitLength } =
                      .ok final := again
                rw [second_]
                simp only [bind, Except.bind, ge_iff_le, Nat.le_refl, if_true]

/-! ## The guards -/

/-- A chunked-local group with an EAGLE drop or another block size fails its lookup's
assertion. -/
theorem searchSpecGroup_error (layout : coordinator.SearchLayout)
    (member : group ∈ coordinator.attentionGroups) (attention : group.spec.isCrossAttention = false)
    (unguarded : ¬ coordinator.Guarded group)
    (unverified : search.eagleVerified.contains idx = false) :
    searchSpecGroup coordinator blockHashes maxCacheHitLength idx group search =
      .error .assertionError := by
  rcases layout.manager group member with ⟨firstGroupId, manager, first, managed, sized, unsharded⟩
  cases kind : group.spec.kind with
  | chunkedLocalAttention chunk =>
      have notFull : group.spec.isFullAttention = false := by
        simp [KVCacheSpec.isFullAttention, kind]
      have same : group.spec.blockSize = coordinator.groupBlockSize group := by
        simp [groupBlockSize, first, managed, sized, unsharded notFull]
      simp only [Guarded, kind] at unguarded
      rw [searchSpecGroup, pyIndex_eq_ok.mpr first]
      simp only [bind, Except.bind]
      rw [pyIndex_eq_ok.mpr managed]
      simp only [notFull, Bool.false_eq_true, false_and, if_false, unverified, Bool.not_false,
        Bool.and_true, Core.findLongestCacheHit, kind, same]
      cases eagle : group.useEagle with
      | true =>
          simp [findLongestChunkedLocalHit, pyAssert, bind, Except.bind]
      | false =>
          have differ : coordinator.groupBlockSize group ≠ coordinator.cacheHitAlignmentTokens :=
            fun unit => unguarded ⟨eagle, unit⟩
          simp [findLongestChunkedLocalHit, pyAssert, bind, Except.bind, differ]
  | crossAttention => simp [KVCacheSpec.isCrossAttention, kind] at attention
  | _ => simp [Guarded, kind] at unguarded

theorem searchRound_error (layout : coordinator.SearchLayout)
    (attention : ∀ group ∈ coordinator.attentionGroups, group.spec.isCrossAttention = false)
    (reaches : maxCacheHitLength / coordinator.hashBlockSize ≤ blockHashes.length)
    (split : coordinator.attentionGroups = done ++ rest) (sized : coordinator.Sized search)
    (le : search.currHitLength ≤ maxCacheHitLength)
    (verified : ∀ idx ∈ search.eagleVerified, idx < done.length)
    (unguarded : ∃ group ∈ rest, ¬ coordinator.Guarded group) :
    searchRound coordinator blockHashes maxCacheHitLength done.length rest search =
      .error .assertionError := by
  induction rest generalizing done search with
  | nil => simp at unguarded
  | cons group rest ih =>
      have member : group ∈ coordinator.attentionGroups := by simp [split]
      rw [searchRound]
      by_cases guarded : coordinator.Guarded group
      · rcases searchSpecGroup_advances layout member guarded reaches le done.length
          with ⟨next, ran, advance⟩
        have later : ∃ other ∈ rest, ¬ coordinator.Guarded other := by
          rcases unguarded with ⟨other, inRest, fails⟩
          rcases List.mem_cons.mp inRest with rfl | inRest
          · exact absurd guarded fails
          · exact ⟨other, inRest, fails⟩
        have marked : ∀ idx ∈ next.eagleVerified, idx < (done ++ [group]).length := by
          intro idx inNext
          rw [List.length_append, List.length_singleton]
          rcases advance.outcome layout split sized with ⟨_, _, _, _, rfl⟩ | ⟨length, rows, looked⟩
          · exact Nat.lt_succ_of_lt (verified idx inNext)
          · rw [looked.verified, verifiedAfter] at inNext
            split at inNext
            · rcases List.mem_append.mp inNext with earlier | own
              · exact Nat.lt_succ_of_lt (verified idx earlier)
              · rw [List.mem_singleton.mp own]
                exact Nat.lt_succ_self _
            · split at inNext
              · cases inNext
              · exact Nat.lt_succ_of_lt (verified idx inNext)
        have failed := ih (by simp [split]) (advance.sized sized) (advance.le.trans le) marked later
        rw [List.length_append, List.length_singleton] at failed
        rw [ran]
        exact failed
      · have unverified : search.eagleVerified.contains done.length = false := by
          by_contra found
          have below := verified done.length (by simpa using found)
          omega
        rw [searchSpecGroup_error layout member (attention group member) guarded unverified]
        rfl

end Rounds

end KVCacheCoordinator

end Vllm.Core
