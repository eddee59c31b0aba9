import Vllm.Core.HybridHits

/-!
# The EAGLE drop of hybrid hits

An EAGLE group matches one unit more than the hit and drops it.  The search does this
once for a verification and keeps the verification while nobody lowers the candidate
without a drop.  Full attention is looked up once and keeps its longer hit; the only
EAGLE group besides it is verified at every candidate that the search ends with.
-/

namespace Vllm.Core

namespace KVCacheCoordinator

variable {H : Type}

/-- A group whose drop counts: EAGLE groups other than Mamba, whose lookup never drops. -/
def Drafted (group : SpecGroup) : Prop :=
  group.useEagle = true ∧ group.spec.isMamba = false

/-- The only EAGLE group that is not full attention. -/
def SoleDrafter (coordinator : KVCacheCoordinator H) (group : SpecGroup) : Prop :=
  ∀ other ∈ coordinator.attentionGroups, other.useEagle = true →
    other.spec.isFullAttention = false → other = group

section Eagle

variable [DecidableEq H] {coordinator : KVCacheCoordinator H} {blockHashes : List H}
  {maxCacheHitLength : Nat} {group : SpecGroup}

/-! ## Full attention -/

/-- Nothing is stored for the group yet, or the unit after every aligned hit up to the
candidate is cached in it. -/
def FollowedUpTo (coordinator : KVCacheCoordinator H) (blockHashes : List H) (group : SpecGroup)
    (bound : Nat) (search : HitSearch) : Prop :=
  Unplaced search group ∨
    ∀ final, 0 < final → final ≤ bound → coordinator.cacheHitAlignmentTokens ∣ final →
      coordinator.FollowingCached blockHashes group final

variable {idx length index bound : Nat} {looked : SpecGroup} {search next : HitSearch}
  {done rest : List SpecGroup} {before : List Nat}

theorem Unplaced.of_advance (layout : coordinator.SearchLayout)
    (split : coordinator.attentionGroups = done ++ looked :: rest)
    (sized : coordinator.Sized search) (member : group ∈ coordinator.attentionGroups)
    (advance : Advance coordinator blockHashes idx looked search next)
    (unplaced : Unplaced next group) : Unplaced search group := by
  rcases advance.outcome layout split sized with ⟨_, _, _, _, rfl⟩ | ⟨length, rows, found⟩
  · exact unplaced
  · intro groupId entry
    have other : groupId ∉ looked.groupIds := by
      intro inLooked
      have inGroup := List.mem_of_getElem? entry
      have inside : looked ∈ coordinator.attentionGroups := by simp [split]
      have same := layout.group_unique inside member inLooked inGroup
      subst same
      have stored := unplaced groupId entry
      rw [List.getD_eq_getElem?_getD, (found.held.placed 0 groupId entry).1] at stored
      cases stored
    rw [List.getD_eq_getElem?_getD, ← (advance.other other).1, ← List.getD_eq_getElem?_getD]
    exact unplaced groupId entry

/-- The verified groups inside a round that began with `before` verified: while a
full-attention group is not looked up, only groups of this round are. -/
structure Marks (coordinator : KVCacheCoordinator H) (before : List Nat) (done : List SpecGroup)
    (search : HitSearch) : Prop where
  origin : ∀ idx ∈ search.eagleVerified, idx ∈ before ∨ idx < done.length
  first : ∀ other ∈ coordinator.attentionGroups, other.spec.isFullAttention = true →
    Unplaced search other → ∀ idx ∈ search.eagleVerified, idx < done.length

omit [DecidableEq H] in
theorem mem_verifiedAfter {mark : Nat} (member : mark ∈ verifiedAfter search idx looked length) :
    mark ∈ search.eagleVerified ∨ mark = idx := by
  rw [verifiedAfter] at member
  split at member
  · rcases List.mem_append.mp member with earlier | own
    · exact .inl earlier
    · exact .inr (List.mem_singleton.mp own)
  · split at member
    · cases member
    · exact .inl member

theorem Marks.advance (layout : coordinator.SearchLayout)
    (split : coordinator.attentionGroups = done ++ looked :: rest)
    (sized : coordinator.Sized search) (marks : coordinator.Marks before done search)
    (advance : Advance coordinator blockHashes done.length looked search next) :
    coordinator.Marks before (done ++ [looked]) next := by
  have size : (done ++ [looked]).length = done.length + 1 := by simp
  have grown (idx : Nat) (member : idx ∈ next.eagleVerified) :
      idx ∈ search.eagleVerified ∨ idx = done.length := by
    rcases advance.outcome layout split sized with ⟨_, _, _, _, rfl⟩ | ⟨length, rows, found⟩
    · exact .inl member
    · rw [found.verified] at member
      exact mem_verifiedAfter member
  constructor
  · intro idx member
    rcases grown idx member with earlier | rfl
    · rcases marks.origin idx earlier with old | below
      · exact .inl old
      · exact .inr (by omega)
    · exact .inr (by omega)
  · intro other inGroups full unplaced idx member
    rcases grown idx member with earlier | rfl
    · have below := marks.first other inGroups full
        (unplaced.of_advance layout split sized inGroups advance) idx earlier
      omega
    · omega

/-- A step keeps the longer hit of a full-attention group. -/
theorem FollowedUpTo.advance (layout : coordinator.SearchLayout)
    (split : coordinator.attentionGroups = done ++ looked :: rest)
    (sized : coordinator.Sized search) (marks : coordinator.Marks before done search)
    (member : group ∈ coordinator.attentionGroups) (drafted : Drafted group)
    (full : group.spec.isFullAttention = true)
    (advance : Advance coordinator blockHashes done.length looked search next)
    (followed : coordinator.FollowedUpTo blockHashes group search.currHitLength search) :
    coordinator.FollowedUpTo blockHashes group next.currHitLength next := by
  rcases followed with unplaced | followed
  · by_cases own : looked = group
    · subst own
      rcases advance.lookedUp layout split sized unplaced with ⟨length, rows, found⟩
      have dropped : drops search done.length looked = true := by
        have unmarked : done.length ∉ search.eagleVerified := fun marked =>
          Nat.lt_irrefl _ (marks.first looked member full unplaced done.length marked)
        simp [drops, drafted.1, unmarked]
      refine .inr fun final some within aligned => ?_
      rw [found.curr] at within
      refine found.held.hit.following dropped drafted.2 final some within aligned fun notFull => ?_
      rw [full] at notFull
      cases notFull
    · refine .inl (unplaced.other advance fun groupId inGroup inLooked => own ?_)
      exact layout.group_unique member (by simp [split]) inGroup inLooked
  · exact .inr fun final some within => followed final some (within.trans advance.le)

/-! ## The other groups -/

/-- What a verification of `group`, which stands at `index`, is worth in the round from
`start` that began with `before` verified. -/
structure Verified (coordinator : KVCacheCoordinator H) (blockHashes : List H) (group : SpecGroup)
    (index start : Nat) (before : List Nat) (done : List SpecGroup) (search : HitSearch) :
    Prop where
  following : index ∈ search.eagleVerified → 0 < search.currHitLength →
    coordinator.FollowingCached blockHashes group search.currHitLength
  reached : index < done.length → index ∈ search.eagleVerified ∨ search.currHitLength < start
  latest : index ∉ before → index + 1 = done.length → index ∈ search.eagleVerified

omit [DecidableEq H] in
/-- A specification group stands at one index. -/
theorem SearchLayout.index_unique (layout : coordinator.SearchLayout)
    (split : coordinator.attentionGroups = done ++ group :: rest)
    (entry : coordinator.attentionGroups[idx]? = some group) : idx = done.length := by
  have member : group ∈ coordinator.attentionGroups := List.mem_of_getElem? entry
  rcases layout.manager group member with ⟨firstGroupId, _, first, _⟩
  have own := List.mem_of_getElem? first
  have apart := (layout.disjoint split).2
  rw [split] at entry
  by_contra differ
  rcases Nat.lt_or_gt_of_ne differ with earlier | later
  · rw [List.getElem?_append_left earlier] at entry
    exact apart group (List.mem_append_left _ (List.mem_of_getElem? entry)) firstGroupId own own
  · rw [List.getElem?_append_right (Nat.le_of_lt later)] at entry
    cases offset : idx - done.length with
    | zero => omega
    | succ position =>
        rw [offset, List.getElem?_cons_succ] at entry
        exact apart group (List.mem_append_right _ (List.mem_of_getElem? entry)) firstGroupId own own

omit [DecidableEq H] in
/-- Full attention comes first, so the group is not searched before it. -/
theorem SearchLayout.done_le (layout : coordinator.SearchLayout)
    (split : coordinator.attentionGroups = done ++ looked :: rest)
    (full : looked.spec.isFullAttention = true) (notFull : group.spec.isFullAttention = false)
    (entry : coordinator.attentionGroups[idx]? = some group) : done.length < idx := by
  by_contra early
  rcases Nat.lt_or_eq_of_le (Nat.not_lt.mp early) with below | rfl
  · rw [split, List.getElem?_append_left below] at entry
    have first := layout.sorted done looked rest split full group (List.mem_of_getElem? entry)
    rw [notFull] at first
    cases first
  · rw [split, List.getElem?_append_right (Nat.le_refl _), Nat.sub_self, List.getElem?_cons_zero,
      Option.some.injEq] at entry
    rw [← entry, full] at notFull
    cases notFull

/-- A step keeps what verifications are worth, with one EAGLE group besides full
attention: its own drop verifies it, and any lookup that lowers the candidate without a
drop clears it. -/
theorem Verified.advance {start : Nat} (layout : coordinator.SearchLayout)
    (split : coordinator.attentionGroups = done ++ looked :: rest)
    (sized : coordinator.Sized search) (inRound : coordinator.InRound blockHashes start done search)
    (marks : coordinator.Marks before done search)
    (entry : coordinator.attentionGroups[index]? = some group) (drafted : Drafted group)
    (notFull : group.spec.isFullAttention = false) (sole : coordinator.SoleDrafter group)
    (verified : coordinator.Verified blockHashes group index start before done search)
    (advance : Advance coordinator blockHashes done.length looked search next) :
    coordinator.Verified blockHashes group index start before (done ++ [looked]) next := by
  have size : (done ++ [looked]).length = done.length + 1 := by simp
  have member : looked ∈ coordinator.attentionGroups := by simp [split]
  rcases advance.outcome layout split sized with
    ⟨full, firstGroupId, first, found, rfl⟩ | ⟨length, rows, found⟩
  · -- a stored hit of full attention reaches the candidate
    have later := layout.done_le split full notFull entry
    rw [inRound.bounded_same split full first found]
    exact ⟨verified.following, fun below => absurd below (by omega),
      fun _ last => absurd last (by omega)⟩
  · cases dropped : drops search done.length looked with
    | true =>
        have eagle : looked.useEagle = true := (Bool.and_eq_true_iff.mp dropped).1
        have marked : next.eagleVerified = search.eagleVerified ++ [done.length] := by
          rw [found.verified, verifiedAfter, if_pos dropped]
        cases full : looked.spec.isFullAttention with
        | true =>
            have later := layout.done_le split full notFull entry
            constructor
            · intro inNext
              rw [marked] at inNext
              rcases List.mem_append.mp inNext with earlier | own
              · have below := marks.first looked member full (found.fresh full) index earlier
                omega
              · rw [List.mem_singleton.mp own] at later
                exact absurd later (Nat.lt_irrefl _)
            · intro below
              omega
            · intro _ last
              omega
        | false =>
            have same := sole looked member eagle full
            subst same
            have place := layout.index_unique split entry
            subst place
            have inNext : done.length ∈ next.eagleVerified := by simp [marked]
            refine ⟨fun _ some => ?_, fun _ => .inl inNext, fun _ _ => inNext⟩
            rw [found.curr] at some ⊢
            exact found.held.hit.following dropped drafted.2 length some (Nat.le_refl _)
              found.held.hit.aligned fun _ => rfl
    | false =>
        have unmarked : done.length = index → index ∈ search.eagleVerified := by
          rintro rfl
          have same : looked = group := by
            rw [split, List.getElem?_append_right (Nat.le_refl _), Nat.sub_self,
              List.getElem?_cons_zero, Option.some.injEq] at entry
            exact entry
          subst same
          simpa [drops, drafted.1] using dropped
        have within := found.held.hit.within
        rcases Nat.lt_or_eq_of_le within with lowered | kept
        · have cleared : next.eagleVerified = [] := by
            rw [found.verified, verifiedAfter, if_neg (by simp [dropped]), if_pos lowered]
          constructor
          · intro inNext
            rw [cleared] at inNext
            cases inNext
          · intro _
            exact .inr (found.curr ▸ lowered.trans_le inRound.lower)
          · intro fresh last
            have own : done.length = index := by omega
            rcases marks.origin index (unmarked own) with old | below
            · exact absurd old fresh
            · omega
        · have same : next.eagleVerified = search.eagleVerified := by
            rw [found.verified, verifiedAfter, if_neg (by simp [dropped]), if_neg (by omega)]
          have curr : next.currHitLength = search.currHitLength := found.curr.trans kept
          constructor
          · rw [same, curr]
            exact verified.following
          · intro below
            rw [same, curr]
            by_cases own : done.length = index
            · exact .inl (unmarked own)
            · exact verified.reached (by omega)
          · intro _ last
            rw [same]
            exact unmarked (by omega)

/-! ## Rounds -/

/-- What drops give in the round from `start`. -/
structure InEagleRound (coordinator : KVCacheCoordinator H) (blockHashes : List H)
    (group : SpecGroup) (index start : Nat) (before : List Nat) (done : List SpecGroup)
    (search : HitSearch) : Prop where
  inRound : coordinator.InRound blockHashes start done search
  marks : coordinator.Marks before done search
  full : group.spec.isFullAttention = true →
    coordinator.FollowedUpTo blockHashes group search.currHitLength search
  other : group.spec.isFullAttention = false →
    coordinator.Verified blockHashes group index start before done search

/-- What drops have given when the next round starts from `bound`. -/
structure BetweenEagle (coordinator : KVCacheCoordinator H) (blockHashes : List H)
    (group : SpecGroup) (index bound : Nat) (search : HitSearch) : Prop where
  first : ∀ other ∈ coordinator.attentionGroups, other.spec.isFullAttention = true →
    Unplaced search other → search.eagleVerified = []
  full : group.spec.isFullAttention = true →
    coordinator.FollowedUpTo blockHashes group bound search
  other : group.spec.isFullAttention = false → index ∈ search.eagleVerified → 0 < bound →
    coordinator.FollowingCached blockHashes group bound

/-- What a whole round gives for the group. -/
structure EagleDone (coordinator : KVCacheCoordinator H) (blockHashes : List H)
    (group : SpecGroup) (index start : Nat) (before : List Nat) (final : HitSearch) : Prop where
  full : group.spec.isFullAttention = true → 0 < final.currHitLength →
    coordinator.FollowingCached blockHashes group final.currHitLength
  other : group.spec.isFullAttention = false → start ≤ final.currHitLength →
    0 < final.currHitLength → coordinator.FollowingCached blockHashes group final.currHitLength
  latest : group.spec.isFullAttention = false → index ∉ before →
    index + 1 = coordinator.attentionGroups.length → 0 < final.currHitLength →
      coordinator.FollowingCached blockHashes group final.currHitLength

theorem searchRound_eagle (layout : coordinator.SearchLayout)
    (guarded : ∀ group ∈ coordinator.attentionGroups, coordinator.Guarded group)
    (reaches : maxCacheHitLength / coordinator.hashBlockSize ≤ blockHashes.length)
    (between : coordinator.Between blockHashes maxCacheHitLength bound search)
    (entry : coordinator.attentionGroups[index]? = some group) (drafted : Drafted group)
    (sole : group.spec.isFullAttention = false → coordinator.SoleDrafter group)
    (eagle : coordinator.BetweenEagle blockHashes group index bound search) :
    ∃ final, searchRound coordinator blockHashes maxCacheHitLength 0 coordinator.attentionGroups
        { search with currHitLength := bound } = .ok final ∧
      coordinator.RoundDone blockHashes bound final ∧
      coordinator.Between blockHashes maxCacheHitLength final.currHitLength final ∧
      coordinator.BetweenEagle blockHashes group index final.currHitLength final ∧
      coordinator.EagleDone blockHashes group index bound search.eagleVerified final := by
  have begins : coordinator.InEagleRound blockHashes group index bound search.eagleVerified []
      { search with currHitLength := bound } := by
    constructor
    · exact between.inRound
    · exact ⟨fun idx member => .inl member, fun other inGroups full unplaced idx member => by
        rw [eagle.first other inGroups full unplaced] at member
        cases member⟩
    · exact eagle.full
    · exact fun notFull => ⟨eagle.other notFull, nofun, nofun⟩
  have member : group ∈ coordinator.attentionGroups := List.mem_of_getElem? entry
  rcases @searchRound_rule _ _ _ _ _ layout guarded reaches
    (coordinator.InEagleRound blockHashes group index bound search.eagleVerified)
    (fun done looked rest current next split sized holds advance =>
      ⟨holds.inRound.advance layout split sized advance,
        holds.marks.advance layout split sized advance,
        fun full => (holds.full full).advance layout split sized holds.marks member drafted full
          advance,
        fun notFull => (holds.other notFull).advance layout split sized holds.inRound holds.marks
          entry drafted notFull (sole notFull) advance⟩) ([]) coordinator.attentionGroups
              ({ search with currHitLength := bound }) rfl
                  ⟨between.sized.blocks, between.sized.lengths⟩ between.within begins with
    ⟨final, ran, _, _, holds⟩
  rcases searchRound_done layout guarded reaches between with ⟨again, ranAgain, done, after⟩
  have same : again = final := Except.ok.inj (ranAgain.symm.trans ran)
  subst same
  have placed (other : SpecGroup) (inGroups : other ∈ coordinator.attentionGroups) :
      ¬ Unplaced again other := by
    intro unplaced
    rcases layout.manager other inGroups with ⟨firstGroupId, _, first, _⟩
    rcases done.searched other inGroups with ⟨_, _, _, rows, held, _⟩
    have stored := unplaced firstGroupId first
    rw [List.getD_eq_getElem?_getD, (held.placed 0 firstGroupId first).1] at stored
    cases stored
  have inside : index < coordinator.attentionGroups.length := (List.getElem?_eq_some_iff.mp entry).1
  refine ⟨again, ran, done, after, ⟨?_, holds.full, fun notFull => (holds.other notFull).following⟩,
    ⟨?_, ?_, ?_⟩⟩
  · intro other inGroups _ unplaced
    exact absurd unplaced (placed other inGroups)
  · intro full some
    rcases holds.full full with unplaced | followed
    · exact absurd unplaced (placed group member)
    · exact followed again.currHitLength some (Nat.le_refl _) done.aligned
  · intro notFull kept some
    have verified := holds.other notFull
    rcases verified.reached inside with marked | lowered
    · exact verified.following marked some
    · omega
  · intro notFull fresh last some
    have verified := holds.other notFull
    exact verified.following (verified.latest fresh last) some

/-- The unit after the final length is cached. -/
theorem searchRounds_following (layout : coordinator.SearchLayout)
    (guarded : ∀ group ∈ coordinator.attentionGroups, coordinator.Guarded group)
    (reaches : maxCacheHitLength / coordinator.hashBlockSize ≤ blockHashes.length) {rounds : Nat}
    {final : HitSearch} (between : coordinator.Between blockHashes maxCacheHitLength bound search)
    (entry : coordinator.attentionGroups[index]? = some group) (drafted : Drafted group)
    (sole : group.spec.isFullAttention = false → coordinator.SoleDrafter group)
    (eagle : coordinator.BetweenEagle blockHashes group index bound search)
    (once : coordinator.isSimpleHybrid = true → search.eagleVerified = []) (enough : bound < rounds)
    (ran : searchRounds coordinator blockHashes maxCacheHitLength rounds bound search =
      .ok (length, final)) (some : 0 < length) :
    coordinator.FollowingCached blockHashes group length := by
  induction rounds generalizing bound search with
  | zero => omega
  | succ rounds ih =>
      rcases searchRound_eagle layout guarded reaches between entry drafted sole eagle with
        ⟨next, round, done, after, eagleAfter, given⟩
      rw [searchRounds, round] at ran
      simp only [bind, Except.bind] at ran
      split at ran
      · rename_i settled
        cases ran
        have same := Nat.le_antisymm done.lower settled
        rw [← same] at some ⊢
        cases full : group.spec.isFullAttention with
        | true => exact given.full full some
        | false => exact given.other full settled some
      · rename_i lowered
        split at ran
        · rename_i simple
          cases ran
          cases full : group.spec.isFullAttention with
          | true => exact given.full full some
          | false =>
              rcases isSimpleHybrid_eq_true simple with ⟨first, second, groups, firstFull⟩
              apply given.latest full (by simp [once simple]) _ some
              rw [groups] at entry ⊢
              rcases index with _ | _ | index
              · cases entry
                rw [firstFull] at full
                cases full
              · rfl
              · simp at entry
        · rename_i several
          exact ih after eagleAfter (fun simple => absurd simple several) (by omega) ran

/-! ## The law -/

/-- After a hit of the returned length the next unit is cached in every EAGLE group whose
lookup drops, if it is full attention or the only other EAGLE group. -/
theorem findLongestCacheHit_following (hybrid : coordinator.kind = .hybrid)
    (layout : coordinator.SearchLayout)
    (attention : ∀ group ∈ coordinator.attentionGroups, group.spec.isCrossAttention = false)
    (reaches : maxCacheHitLength / coordinator.hashBlockSize ≤ blockHashes.length)
    {blocks : List (List BlockId)} {length uncached : Nat}
    (found : coordinator.findLongestCacheHit blockHashes maxCacheHitLength =
      .ok (blocks, length, uncached)) (some : 0 < length)
    (member : group ∈ coordinator.attentionGroups) (drafted : Drafted group)
    (sole : group.spec.isFullAttention = false → coordinator.SoleDrafter group) :
    coordinator.FollowingCached blockHashes group length := by
  have guarded (other : SpecGroup) (inGroups : other ∈ coordinator.attentionGroups) :
      coordinator.Guarded other := by
    by_contra unguarded
    rw [findLongestCacheHit_error hybrid layout attention reaches ⟨other, inGroups, unguarded⟩]
      at found
    cases found
  rw [findLongestCacheHit_eq hybrid] at found
  rcases bind_eq_ok.mp found with ⟨⟨hitLength, final⟩, ran, returned⟩
  cases returned
  rcases List.getElem?_of_mem member with ⟨index, entry⟩
  have begins : coordinator.BetweenEagle blockHashes group index maxCacheHitLength
      (coordinator.initialSearch maxCacheHitLength) := by
    constructor
    · exact fun _ _ _ _ => rfl
    · exact fun _ => .inl (initialSearch_unplaced group)
    · exact fun _ marked => absurd marked List.not_mem_nil
  exact searchRounds_following layout guarded reaches between_initialSearch entry drafted sole begins
    (fun _ => rfl) (Nat.lt_succ_self _) ran some

/-- With blocks, hashes and alignment of one unit the next unit is the next block. -/
theorem FollowingCached.next_block {unit index : Nat} (positive : 0 < unit)
    (blockSize : coordinator.groupBlockSize group = unit)
    (alignment : coordinator.cacheHitAlignmentTokens = unit)
    (hash : coordinator.blockPool.hashBlockSize = unit)
    (following : coordinator.FollowingCached blockHashes group (index * unit)) :
    ∃ blockHash row, blockHashes[index]? = some blockHash ∧
      coordinator.blockPool.getCachedBlock blockHash group.groupIds = some row := by
  rcases following with ⟨row, numTokens, _, upper, lower, blockHash, hashed, cached⟩
  rw [blockSize, alignment, dropUnit, Nat.min_self, ← Nat.succ_mul] at lower
  rw [blockSize, Nat.mul_div_cancel _ positive] at upper
  have ends : numTokens = (index + 1) * unit := Nat.le_antisymm upper lower
  rw [prefixHash, hash, ends, Nat.mul_div_cancel _ positive, Nat.add_sub_cancel] at hashed
  exact ⟨blockHash, row, hashed, cached⟩

end Eagle

/-- An EAGLE sliding window beside full attention: two blocks are hit, the third is
cached too. -/
theorem findLongestCacheHit_following_window :
    ∃ coordinator blocks uncached,
      pairCoordinator { kvCacheSpec := { blockSize := 4, kind := .fullAttention } }
        { kvCacheSpec := { blockSize := 4, kind := .slidingWindow 5 0 }, isEagleGroup := true } 4
        [(⟨10, 0⟩, 1), (⟨11, 0⟩, 2), (⟨12, 0⟩, 3), (⟨11, 1⟩, 4), (⟨12, 1⟩, 5)] =
          .ok coordinator ∧
      coordinator.findLongestCacheHit [10, 11, 12] 12 = .ok (blocks, 8, uncached) ∧
      coordinator.FollowingCached [10, 11, 12]
        ⟨{ blockSize := 4, kind := .slidingWindow 5 0 }, [1], true⟩ 8 := by
  rcases (⟨_, rfl⟩ : ∃ coordinator, pairCoordinator
    { kvCacheSpec := { blockSize := 4, kind := .fullAttention } }
    { kvCacheSpec := { blockSize := 4, kind := .slidingWindow 5 0 }, isEagleGroup := true } 4
    [(⟨10, 0⟩, 1), (⟨11, 0⟩, 2), (⟨12, 0⟩, 3), (⟨11, 1⟩, 4), (⟨12, 1⟩, 5)] =
      .ok coordinator) with ⟨coordinator, created⟩
  rcases pairCoordinator_searchLayout created (by decide) ⟨by decide, by decide⟩ with
    ⟨hybrid, layout⟩
  have groups : coordinator.attentionGroups =
      [⟨{ blockSize := 4, kind := .fullAttention }, [0], false⟩,
        ⟨{ blockSize := 4, kind := .slidingWindow 5 0 }, [1], true⟩] :=
    pairCoordinator_reads (·.attentionGroups) created rfl
  have hash : coordinator.hashBlockSize = 4 :=
    pairCoordinator_reads (·.hashBlockSize) created rfl
  have found : coordinator.findLongestCacheHit [10, 11, 12] 12 = .ok ([[1, 2], [0, 4]], 8, 4) :=
    pairCoordinator_reads (fun c => c.findLongestCacheHit [10, 11, 12] 12) created rfl
  refine ⟨coordinator, _, _, created, found,
    findLongestCacheHit_following hybrid layout ?_ (by rw [hash]; decide) found (by decide) ?_
      ⟨rfl, rfl⟩ ?_⟩
  · intro group member
    rw [groups] at member
    rcases List.mem_pair.mp member with rfl | rfl <;> rfl
  · rw [groups]
    exact List.mem_of_mem_tail List.mem_cons_self
  · intro _ other member eagle _
    rw [groups] at member
    rcases List.mem_pair.mp member with rfl | rfl
    · cases eagle
    · rfl

/-- The unit after the hit is missing in an EAGLE group of Mamba states, whose lookup
does not drop; and in an EAGLE window that was verified before the drop of another EAGLE
window lowered the candidate. -/
theorem hybrid_hit_unfollowed :
    (∃ coordinator, pairCoordinator { kvCacheSpec := { blockSize := 4, kind := .fullAttention } }
        { kvCacheSpec := { blockSize := 4, kind := .mamba .align 0 0 }, isEagleGroup := true } 4
        [(⟨10, 0⟩, 1), (⟨11, 0⟩, 2), (⟨10, 1⟩, 3)] = .ok coordinator ∧
      coordinator.SearchLayout ∧
      coordinator.findLongestCacheHit [10, 11, 12] 12 = .ok ([[1], [3]], 4, 4) ∧
      ∃ group ∈ coordinator.attentionGroups, group.useEagle = true ∧
        ¬ coordinator.FollowingCached [10, 11, 12] group 4) ∧
    ∃ coordinator, pairCoordinator
        { kvCacheSpec := { blockSize := 4, kind := .slidingWindow 5 0 }, isEagleGroup := true }
        { kvCacheSpec := { blockSize := 4, kind := .slidingWindow 4 0 }, isEagleGroup := true } 4
        [(⟨10, 0⟩, 1), (⟨12, 0⟩, 2), (⟨13, 0⟩, 3), (⟨10, 1⟩, 4), (⟨11, 1⟩, 5)] =
          .ok coordinator ∧
      coordinator.SearchLayout ∧
      coordinator.findLongestCacheHit [10, 11, 12, 13] 16 = .ok ([[1], [4]], 4, 8) ∧
      ∃ group ∈ coordinator.attentionGroups, group.useEagle = true ∧
        ¬ coordinator.FollowingCached [10, 11, 12, 13] group 4 := by
  constructor
  · rcases (⟨_, rfl⟩ : ∃ coordinator, pairCoordinator
      { kvCacheSpec := { blockSize := 4, kind := .fullAttention } }
      { kvCacheSpec := { blockSize := 4, kind := .mamba .align 0 0 }, isEagleGroup := true } 4
      [(⟨10, 0⟩, 1), (⟨11, 0⟩, 2), (⟨10, 1⟩, 3)] = .ok coordinator) with ⟨coordinator, created⟩
    have groups : coordinator.attentionGroups =
        [⟨{ blockSize := 4, kind := .fullAttention }, [0], false⟩,
          ⟨{ blockSize := 4, kind := .mamba .align 0 0 }, [1], true⟩] :=
      pairCoordinator_reads (·.attentionGroups) created rfl
    refine ⟨coordinator, created,
      (pairCoordinator_searchLayout created (by decide) ⟨by decide, by decide⟩).2,
      pairCoordinator_reads (fun c => c.findLongestCacheHit [10, 11, 12] 12) created rfl,
      ⟨{ blockSize := 4, kind := .mamba .align 0 0 }, [1], true⟩,
      by rw [groups]; exact List.mem_of_mem_tail List.mem_cons_self, rfl, fun following => ?_⟩
    rcases @FollowingCached.next_block _ _ _ _ _ 4 1 (by decide)
      (pairCoordinator_reads (fun c => c.groupBlockSize _) created rfl)
      (pairCoordinator_reads (·.cacheHitAlignmentTokens) created rfl)
      (pairCoordinator_reads (·.blockPool.hashBlockSize) created rfl) following with
      ⟨blockHash, row, hashed, cached⟩
    cases hashed
    rw [show coordinator.blockPool.getCachedBlock 11 [1] = none from
      pairCoordinator_reads (fun c => c.blockPool.getCachedBlock 11 [1]) created rfl]
      at cached
    cases cached
  · rcases (⟨_, rfl⟩ : ∃ coordinator, pairCoordinator
      { kvCacheSpec := { blockSize := 4, kind := .slidingWindow 5 0 }, isEagleGroup := true }
      { kvCacheSpec := { blockSize := 4, kind := .slidingWindow 4 0 }, isEagleGroup := true } 4
      [(⟨10, 0⟩, 1), (⟨12, 0⟩, 2), (⟨13, 0⟩, 3), (⟨10, 1⟩, 4), (⟨11, 1⟩, 5)] =
        .ok coordinator) with ⟨coordinator, created⟩
    have groups : coordinator.attentionGroups =
        [⟨{ blockSize := 4, kind := .slidingWindow 5 0 }, [0], true⟩,
          ⟨{ blockSize := 4, kind := .slidingWindow 4 0 }, [1], true⟩] :=
      pairCoordinator_reads (·.attentionGroups) created rfl
    refine ⟨coordinator, created,
      (pairCoordinator_searchLayout created (by decide) ⟨by decide, by decide⟩).2,
      pairCoordinator_reads (fun c => c.findLongestCacheHit [10, 11, 12, 13] 16)
        created rfl,
      ⟨{ blockSize := 4, kind := .slidingWindow 5 0 }, [0], true⟩,
      by rw [groups]; exact List.mem_cons_self, rfl, fun following => ?_⟩
    rcases @FollowingCached.next_block _ _ _ _ _ 4 1 (by decide)
      (pairCoordinator_reads (fun c => c.groupBlockSize _) created rfl)
      (pairCoordinator_reads (·.cacheHitAlignmentTokens) created rfl)
      (pairCoordinator_reads (·.blockPool.hashBlockSize) created rfl) following with
      ⟨blockHash, row, hashed, cached⟩
    cases hashed
    rw [show coordinator.blockPool.getCachedBlock 11 [0] = none from
      pairCoordinator_reads (fun c => c.blockPool.getCachedBlock 11 [0]) created rfl]
      at cached
    cases cached

end KVCacheCoordinator

end Vllm.Core
