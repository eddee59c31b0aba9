import Vllm.Core.BlockHasher

/-!
# Incremental hashing

The hash list of a request grows with its tokens.  A request is hashed when it
is created and again at every `append_output_token_ids`; the question here is
when the list accumulated in this way is the list that one pass over the final
tokens gives.  Blocks hashed by a later call see the last multi-modal item only,
so the two lists part at the first such block into which an earlier item reaches.
-/

namespace Vllm.Core

variable {H : Type} [BlockHashing H]

/-! ## Comparing hash lists -/

namespace Request

variable {hashBlockSize count : Nat} {request : Request H}
  {first second : Nat → Option (List ExtraKey)}

omit [BlockHashing H] in
theorem hashParts_congr (agree : ∀ i < count, first i = second i) :
    request.hashParts hashBlockSize first count = request.hashParts hashBlockSize second count := by
  unfold hashParts
  apply List.map_congr_left
  intro i member
  rw [agree i (List.mem_range.mp member)]

theorem hashList_congr (agree : ∀ i < count, first i = second i) :
    request.hashList hashBlockSize first count = request.hashList hashBlockSize second count := by
  apply List.map_congr_left
  intro i member
  rw [List.mem_range] at member
  rw [hashParts_congr fun j below => agree j (by omega)]

/-- With an injective hash function two hash lists of one request agree only when
all their extra keys do. -/
theorem keys_eq_of_hashList_eq
    (injective : Function.Injective (BlockHashing.hashFunction : HashInput H → H))
    (equal : request.hashList hashBlockSize first count =
      request.hashList hashBlockSize second count) {i : Nat} (below : i < count) :
    first i = second i := by
  have hashes := List.map_inj_left.mp equal i (List.mem_range.mpr below)
  have parts := chainHash_injective injective hashes
  have part := List.map_inj_left.mp parts i (List.mem_range.mpr (Nat.lt_succ_self i))
  exact congrArg Prod.snd part

/-- Tokens behind the hashed blocks do not matter. -/
theorem hashList_extended {other : Request H} {tokenIds : List TokenId}
    (extended : other.allTokenIds = request.allTokenIds ++ tokenIds)
    (extraKeys : Nat → Option (List ExtraKey))
    (covered : count * hashBlockSize ≤ request.numTokens) :
    other.hashList hashBlockSize extraKeys count =
      request.hashList hashBlockSize extraKeys count := by
  apply List.map_congr_left
  intro i member
  rw [List.mem_range] at member
  congr 1
  apply List.map_congr_left
  intro j inner
  rw [List.mem_range] at inner
  have inside : (j + 1) * hashBlockSize ≤ request.allTokenIds.length :=
    Nat.le_trans (Nat.mul_le_mul_right _ (by omega)) covered
  rw [extended, List.take_append_of_le_length inside]

/-! ## Growing a request -/

/-- The request with its hashes computed in one pass, as at its creation. -/
def rehashed (hashBlockSize : Nat) (request : Request H) : Request H :=
  updateBlockHashes (some hashBlockSize) { request with blockHashes := [] }

/-- The request created and then grown by successive appends. -/
def grown (hashBlockSize : Nat) (request : Request H) (appends : List (List TokenId)) :
    Request H :=
  appends.foldl (appendOutputTokenIds (some hashBlockSize)) (request.rehashed hashBlockSize)

/-- The number of blocks that the first call finds full that finds any. -/
def firstHashed (hashBlockSize : Nat) : Nat → List (List TokenId) → Nat
  | numTokens, [] => numTokens / hashBlockSize
  | numTokens, tokenIds :: rest =>
      if numTokens / hashBlockSize = 0 then
        firstHashed hashBlockSize (numTokens + tokenIds.length) rest
      else
        numTokens / hashBlockSize

/-- The extra keys of block `i` in one pass. -/
def onePassKeys (hashBlockSize : Nat) (request : Request H) (i : Nat) : Option (List ExtraKey) :=
  request.blockExtraKeys request.mmFeatures (i * hashBlockSize) ((i + 1) * hashBlockSize)

/-- The extra keys of block `i` when the first call covered `first` blocks. -/
def grownKeys (hashBlockSize first : Nat) (request : Request H) (i : Nat) :
    Option (List ExtraKey) :=
  if i < first then
    request.onePassKeys hashBlockSize i
  else
    request.blockExtraKeys (request.mmFeatures.drop (request.mmFeatures.length - 1))
      (i * hashBlockSize) ((i + 1) * hashBlockSize)

/-- One pass over a request without hashes. -/
theorem updateBlockHashes_unhashed (positive : 0 < hashBlockSize)
    (unhashed : request.blockHashes = []) :
    (request.updateBlockHashes (some hashBlockSize)).blockHashes =
      request.hashList hashBlockSize (request.onePassKeys hashBlockSize)
        (request.numTokens / hashBlockSize) := by
  have stored : request.blockHashes =
      request.hashList hashBlockSize (request.onePassKeys hashBlockSize) 0 := unhashed
  have updated := updateBlockHashes_eq positive stored fun i _ => rfl
  rwa [Nat.zero_max] at updated

theorem rehashed_blockHashes (positive : 0 < hashBlockSize) (request : Request H) :
    (request.rehashed hashBlockSize).blockHashes =
      request.hashList hashBlockSize (request.onePassKeys hashBlockSize)
        (request.numTokens / hashBlockSize) := by
  have updated := updateBlockHashes_unhashed positive
    (rfl : ({ request with blockHashes := [] } : Request H).blockHashes = [])
  exact updated

theorem foldl_appendOutputTokenIds_eq (hashBlockSize : Nat) (appends : List (List TokenId)) :
    ∀ request : Request H, appends.foldl (appendOutputTokenIds (some hashBlockSize)) request =
      { request with
        outputTokenIds := request.outputTokenIds ++ appends.flatten
        allTokenIds := request.allTokenIds ++ appends.flatten
        blockHashes :=
          (appends.foldl (appendOutputTokenIds (some hashBlockSize)) request).blockHashes } := by
  induction appends with
  | nil =>
      intro request
      simp only [List.foldl_nil, List.flatten_nil, List.append_nil]
  | cons tokenIds rest ih =>
      intro request
      rw [List.foldl_cons, ih]
      simp only [List.flatten_cons, ← List.append_assoc]
      rfl

/-- An append to a request with a full block: the new blocks see the last item. -/
theorem appendOutputTokenIds_hashed {first : Nat} (positive : 0 < hashBlockSize)
    (tokenIds : List TokenId) (started : 0 < request.numTokens / hashBlockSize)
    (early : first ≤ request.numTokens / hashBlockSize)
    (stored : request.blockHashes = request.hashList hashBlockSize
      (request.grownKeys hashBlockSize first) (request.numTokens / hashBlockSize)) :
    (request.appendOutputTokenIds (some hashBlockSize) tokenIds).blockHashes =
      (request.appendOutputTokenIds (some hashBlockSize) tokenIds).hashList hashBlockSize
        (request.grownKeys hashBlockSize first)
        ((request.appendOutputTokenIds (some hashBlockSize) tokenIds).numTokens /
          hashBlockSize) := by
  let extended : Request H :=
    { request with
      outputTokenIds := request.outputTokenIds ++ tokenIds
      allTokenIds := request.allTokenIds ++ tokenIds }
  have covered : request.numTokens / hashBlockSize * hashBlockSize ≤ request.numTokens :=
    Nat.div_mul_le_self _ _
  have kept : extended.blockHashes = extended.hashList hashBlockSize
      (request.grownKeys hashBlockSize first) (request.numTokens / hashBlockSize) := by
    rw [hashList_extended rfl _ covered]
    exact stored
  have updated := updateBlockHashes_eq positive kept fun i later => by
    rw [grownKeys, if_neg (by omega), walkFeatures, if_neg (by omega)]
    rfl
  have more : request.numTokens / hashBlockSize ≤ extended.numTokens / hashBlockSize := by
    apply Nat.div_le_div_right
    change _ ≤ (request.allTokenIds ++ tokenIds).length
    rw [List.length_append]
    exact Nat.le_add_right _ _
  rw [Nat.max_eq_right more] at updated
  exact updated

/-- Appends to a request with a full block. -/
theorem foldl_appendOutputTokenIds_hashed {first : Nat} (positive : 0 < hashBlockSize)
    (appends : List (List TokenId)) :
    ∀ request : Request H, 0 < request.numTokens / hashBlockSize →
      first ≤ request.numTokens / hashBlockSize →
      request.blockHashes = request.hashList hashBlockSize
        (request.grownKeys hashBlockSize first) (request.numTokens / hashBlockSize) →
      (appends.foldl (appendOutputTokenIds (some hashBlockSize)) request).blockHashes =
        (appends.foldl (appendOutputTokenIds (some hashBlockSize)) request).hashList hashBlockSize
          (request.grownKeys hashBlockSize first)
          ((request.numTokens + appends.flatten.length) / hashBlockSize) := by
  induction appends with
  | nil =>
      intro request _ _ stored
      exact stored
  | cons tokenIds rest ih =>
      intro request started early stored
      have appended := appendOutputTokenIds_hashed positive tokenIds started early stored
      have count : (request.appendOutputTokenIds (some hashBlockSize) tokenIds).numTokens =
          request.numTokens + tokenIds.length := List.length_append
      have more : request.numTokens / hashBlockSize ≤
          (request.numTokens + tokenIds.length) / hashBlockSize :=
        Nat.div_le_div_right (Nat.le_add_right _ _)
      have later := ih (request.appendOutputTokenIds (some hashBlockSize) tokenIds)
        (by rw [count]; omega) (by rw [count]; omega) appended
      rw [count] at later
      rw [List.foldl_cons, List.flatten_cons, List.length_append, ← Nat.add_assoc]
      exact later

/-- Appends to a request that was hashed in one pass. -/
theorem foldl_appendOutputTokenIds_onePass (positive : 0 < hashBlockSize)
    (appends : List (List TokenId)) :
    ∀ request : Request H,
      request.blockHashes = request.hashList hashBlockSize (request.onePassKeys hashBlockSize)
        (request.numTokens / hashBlockSize) →
      (appends.foldl (appendOutputTokenIds (some hashBlockSize)) request).blockHashes =
        (appends.foldl (appendOutputTokenIds (some hashBlockSize)) request).hashList hashBlockSize
          (request.grownKeys hashBlockSize (firstHashed hashBlockSize request.numTokens appends))
          ((request.numTokens + appends.flatten.length) / hashBlockSize) := by
  have agree : ∀ request : Request H, ∀ i < request.numTokens / hashBlockSize,
      request.onePassKeys hashBlockSize i =
        request.grownKeys hashBlockSize (request.numTokens / hashBlockSize) i := by
    intro request i below
    rw [grownKeys, if_pos below]
  induction appends with
  | nil =>
      intro request stored
      rw [hashList_congr (agree request)] at stored
      exact stored
  | cons tokenIds rest ih =>
      intro request stored
      by_cases unhashed : request.numTokens / hashBlockSize = 0
      · rw [unhashed] at stored
        let extended : Request H :=
          { request with
            outputTokenIds := request.outputTokenIds ++ tokenIds
            allTokenIds := request.allTokenIds ++ tokenIds }
        have empty : extended.blockHashes = [] := stored
        have appended := updateBlockHashes_unhashed positive empty
        have count : (request.appendOutputTokenIds (some hashBlockSize) tokenIds).numTokens =
            request.numTokens + tokenIds.length := List.length_append
        have later := ih (request.appendOutputTokenIds (some hashBlockSize) tokenIds) appended
        rw [count] at later
        rw [List.foldl_cons, List.flatten_cons, List.length_append, ← Nat.add_assoc, firstHashed,
          if_pos unhashed]
        exact later
      · rw [hashList_congr (agree request)] at stored
        have later := foldl_appendOutputTokenIds_hashed positive (tokenIds :: rest) request
          (Nat.pos_of_ne_zero unhashed) (Nat.le_refl _) stored
        rw [firstHashed, if_neg unhashed]
        exact later

/-- The hashes of a grown request. -/
theorem grown_blockHashes (positive : 0 < hashBlockSize) (request : Request H)
    (appends : List (List TokenId)) :
    (request.grown hashBlockSize appends).blockHashes =
      (request.grown hashBlockSize appends).hashList hashBlockSize
        (request.grownKeys hashBlockSize (firstHashed hashBlockSize request.numTokens appends))
        ((request.numTokens + appends.flatten.length) / hashBlockSize) :=
  foldl_appendOutputTokenIds_onePass positive appends (request.rehashed hashBlockSize)
    (rehashed_blockHashes positive request)

/-- One pass over the tokens of a grown request. -/
theorem rehashed_grown_blockHashes (positive : 0 < hashBlockSize) (request : Request H)
    (appends : List (List TokenId)) :
    ((request.grown hashBlockSize appends).rehashed hashBlockSize).blockHashes =
      (request.grown hashBlockSize appends).hashList hashBlockSize
        (request.onePassKeys hashBlockSize)
        ((request.numTokens + appends.flatten.length) / hashBlockSize) := by
  have final := foldl_appendOutputTokenIds_eq hashBlockSize appends
    (request.rehashed hashBlockSize)
  have count : (request.grown hashBlockSize appends).numTokens =
      request.numTokens + appends.flatten.length := by
    unfold grown
    rw [final]
    exact List.length_append
  have keys : (request.grown hashBlockSize appends).onePassKeys hashBlockSize =
      request.onePassKeys hashBlockSize := by
    unfold grown
    rw [final]
    rfl
  rw [rehashed_blockHashes positive, count, keys]

end Request

/-! ## What a resumed hasher misses -/

/-- The items are in the order of their offsets. -/
def SortedFeatures (features : List MultiModalFeatureSpec) : Prop :=
  features.Pairwise fun first second => first.mmPosition.offset ≤ second.mmPosition.offset

instance (features : List MultiModalFeatureSpec) : Decidable (SortedFeatures features) :=
  inferInstanceAs (Decidable (List.Pairwise _ _))

/-- A resumed hasher misses an item of the block: the first item that the block
has not passed is not the last one and begins before the block's end.  The one
exception is an item that covers the rest of the block and cannot be told from
the last one. -/
def ResumeMisses (features : List MultiModalFeatureSpec) (start stop : Nat) : Prop :=
  match features.getLast?, features.dropLast.find? fun feature => start < feature.stop with
  | some last, some feature =>
      start < last.stop ∧ feature.mmPosition.offset < stop ∧
        ¬ (stop < feature.stop ∧ feature.identifier = last.identifier ∧
          feature.mmPosition.offset = last.mmPosition.offset)
  | _, _ => False

instance (features : List MultiModalFeatureSpec) (start stop : Nat) :
    Decidable (ResumeMisses features start stop) := by
  unfold ResumeMisses
  split
  · infer_instance
  · infer_instance

variable {start stop : Nat} {features : List MultiModalFeatureSpec}

/-- When every item has been reached and one has not been passed, there are keys. -/
theorem scanMmFeatures_ne_nil (proper : start < stop)
    (reached : ∀ feature ∈ features, feature.mmPosition.offset < stop)
    (present : ∃ feature ∈ features, start < feature.stop) (cursor : Nat) :
    (scanMmFeatures start stop features cursor).1 ≠ [] := by
  induction features generalizing cursor with
  | nil =>
      rcases present with ⟨_, member, _⟩
      contradiction
  | cons feature rest ih =>
      rcases feature.position_cases start stop with
        passed | unreached | ⟨starts, ends, contained⟩ | ⟨starts, ends, continued⟩
      · rw [scanMmFeatures_cons_passed proper passed]
        apply ih fun other member => reached other (List.mem_cons_of_mem feature member)
        rcases present with ⟨other, member, ahead⟩
        rcases List.mem_cons.mp member with rfl | member
        · omega
        · exact ⟨other, member, ahead⟩
      · have := reached feature List.mem_cons_self
        omega
      · rw [scanMmFeatures_cons_contained starts ends contained]
        exact List.cons_ne_nil _ _
      · rw [scanMmFeatures_cons_continued starts ends continued]
        exact List.cons_ne_nil _ _

/-- The keys that the last item alone gives. -/
theorem scanMmFeatures_singleton {last : MultiModalFeatureSpec} (present : start < last.stop)
    (cursor : Nat) :
    (scanMmFeatures start stop [last] cursor).1 =
      if last.mmPosition.offset < stop then
        [.mmItem last.identifier ((last.mmPosition.offset : Int) - start)]
      else [] := by
  rcases last.position_cases start stop with
    passed | unreached | ⟨starts, ends, contained⟩ | ⟨starts, ends, continued⟩
  · omega
  · rw [scanMmFeatures_cons_unreached unreached, if_neg (by omega)]
  · rw [scanMmFeatures_cons_contained starts ends contained, if_pos starts]
    rfl
  · rw [scanMmFeatures_cons_continued starts ends continued, if_pos starts]

/-- All items against the last one, when the first item not passed is `feature`. -/
theorem scanMmFeatures_eq_last_iff (proper : start < stop) {feature last : MultiModalFeatureSpec}
    {between : List MultiModalFeatureSpec} (sorted : SortedFeatures (feature :: between ++ [last]))
    (ahead : start < feature.stop) (present : start < last.stop) (first second : Nat) :
    (scanMmFeatures start stop (feature :: between ++ [last]) first).1 =
        (scanMmFeatures start stop [last] second).1 ↔
      (feature.mmPosition.offset < stop → stop < feature.stop ∧
        feature.identifier = last.identifier ∧
          feature.mmPosition.offset = last.mmPosition.offset) := by
  have order := List.pairwise_cons.mp sorted
  have below : feature.mmPosition.offset ≤ last.mmPosition.offset :=
    order.1 last (by simp)
  rw [scanMmFeatures_singleton present, List.cons_append]
  rcases feature.position_cases start stop with
    passed | unreached | ⟨starts, ends, contained⟩ | ⟨starts, ends, continued⟩
  · omega
  · rw [scanMmFeatures_cons_unreached unreached, if_neg (by omega)]
    exact ⟨fun _ reached => by omega, fun _ => rfl⟩
  · -- The item's end lies in the block, so the last item would have to follow it.
    rw [scanMmFeatures_cons_contained starts ends contained]
    constructor
    · intro equal
      by_cases lastStarts : last.mmPosition.offset < stop
      · rw [if_pos lastStarts] at equal
        have rest := (List.cons.inj equal).2
        apply absurd rest
        apply scanMmFeatures_ne_nil proper
        · intro other member
          rcases List.mem_append.mp member with inner | final
          · have order' := List.pairwise_append.mp order.2
            have := order'.2.2 other inner last (List.mem_singleton_self last)
            omega
          · rw [List.mem_singleton] at final
            rw [final]
            exact lastStarts
        · exact ⟨last, by simp, present⟩
      · rw [if_neg lastStarts] at equal
        contradiction
    · intro twin
      omega
  · rw [scanMmFeatures_cons_continued starts ends continued]
    constructor
    · intro equal _
      by_cases lastStarts : last.mmPosition.offset < stop
      · rw [if_pos lastStarts] at equal
        simp only [List.cons.injEq, ExtraKey.mmItem.injEq, and_true] at equal
        exact ⟨continued, equal.1, by omega⟩
      · rw [if_neg lastStarts] at equal
        contradiction
    · intro twin
      rcases twin starts with ⟨_, identifiers, offsets⟩
      rw [if_pos (by omega), identifiers, offsets]

/-- The last item alone gives the keys of all items exactly when a resumed hasher
misses none. -/
theorem mmBlockKeys_eq_last_iff (proper : start < stop) (sorted : SortedFeatures features) :
    mmBlockKeys (features.drop (features.length - 1)) start stop =
        mmBlockKeys features start stop ↔ ¬ ResumeMisses features start stop := by
  induction features using List.reverseRecOn with
  | nil => exact ⟨fun _ missed => missed, fun _ => rfl⟩
  | append_singleton init last _ =>
      have tail : (init ++ [last]).drop ((init ++ [last]).length - 1) = [last] := by
        rw [List.length_append, List.length_singleton, Nat.add_sub_cancel, List.drop_left]
      rw [tail]
      unfold mmBlockKeys ResumeMisses
      rw [List.getLast?_singleton, List.getLast?_concat, List.dropLast_concat]
      dsimp only
      by_cases past : last.stop ≤ start
      · rw [if_pos past, if_pos past]
        refine ⟨fun _ missed => ?_, fun _ => rfl⟩
        cases found : init.find? fun feature => start < feature.stop with
        | none =>
            rw [found] at missed
            exact missed
        | some feature =>
            rw [found] at missed
            exact absurd missed.1 (Nat.not_lt.mpr past)
      · rw [if_neg past, if_neg past]
        cases found : init.find? fun feature => start < feature.stop with
        | none =>
            have passed : ∀ feature ∈ init, feature.stop ≤ start := by
              intro feature member
              have := List.find?_eq_none.mp found feature member
              simpa using this
            rw [scanMmFeatures_append_passed proper passed [last] 0 0]
            exact ⟨fun _ missed => missed, fun _ => rfl⟩
        | some feature =>
            rcases List.find?_eq_some_iff_append.mp found with
              ⟨ahead, before, after, rfl, passed⟩
            rw [decide_eq_true_eq] at ahead
            have passed' : ∀ other ∈ before, other.stop ≤ start := by
              intro other member
              simpa using passed other member
            rw [List.append_assoc, scanMmFeatures_append_passed proper passed' _ 0 0]
            have sorted' : SortedFeatures (feature :: after ++ [last]) := by
              rw [List.append_assoc] at sorted
              exact (List.pairwise_append.mp sorted).2.1
            rw [eq_comm, scanMmFeatures_eq_last_iff proper sorted' ahead (by omega) 0 0]
            constructor
            · rintro twin ⟨_, starts, distinct⟩
              exact distinct (twin starts)
            · intro safe starts
              by_contra distinct
              exact safe ⟨by omega, starts, distinct⟩

namespace Request

variable {request : Request H} {hashBlockSize : Nat}

/-- The keys of a block determine the share of its multi-modal items. -/
theorem blockExtraKeys_inj {first second : List MultiModalFeatureSpec} :
    request.blockExtraKeys first start stop = request.blockExtraKeys second start stop ↔
      mmBlockKeys first start stop = mmBlockKeys second start stop := by
  rw [blockExtraKeys_eq_iff]
  unfold blockKeys
  rw [List.append_cancel_right_eq, List.append_cancel_right_eq, List.append_cancel_left_eq]

/-- No block that a later call completes has an item the hasher misses. -/
def ResumesSafely (hashBlockSize : Nat) (request : Request H) (appends : List (List TokenId)) :
    Prop :=
  ∀ i, firstHashed hashBlockSize request.numTokens appends ≤ i →
    (i + 1) * hashBlockSize ≤ request.numTokens + appends.flatten.length →
    ¬ ResumeMisses request.mmFeatures (i * hashBlockSize) ((i + 1) * hashBlockSize)

/-- What hashes are computed from. -/
structure SameContent (first second : Request H) : Prop where
  allTokenIds : first.allTokenIds = second.allTokenIds
  mmFeatures : first.mmFeatures = second.mmFeatures
  loraRequest : first.loraRequest = second.loraRequest
  cacheSalt : first.cacheSalt = second.cacheSalt
  promptEmbeds : first.promptEmbeds = second.promptEmbeds

/-- One pass sees the content only. -/
theorem SameContent.rehashed_blockHashes {first second : Request H}
    (same : SameContent first second) (positive : 0 < hashBlockSize) :
    (first.rehashed hashBlockSize).blockHashes = (second.rehashed hashBlockSize).blockHashes := by
  have keys : first.onePassKeys hashBlockSize = second.onePassKeys hashBlockSize := by
    unfold onePassKeys blockExtraKeys blockKeys genLoraExtraHashKeys genCacheSaltKeys
      genPromptEmbedsExtraHashKeys
    rw [same.mmFeatures, same.loraRequest, same.cacheSalt, same.promptEmbeds]
  rw [Request.rehashed_blockHashes positive, Request.rehashed_blockHashes positive, keys]
  unfold hashList hashParts numTokens
  rw [same.allTokenIds]

/-- The keys of a block of a grown request are those of one pass exactly when the
hasher misses nothing there. -/
theorem grownKeys_eq_onePassKeys_iff {first i : Nat} (positive : 0 < hashBlockSize)
    (sorted : SortedFeatures request.mmFeatures) :
    request.grownKeys hashBlockSize first i = request.onePassKeys hashBlockSize i ↔
      (first ≤ i →
        ¬ ResumeMisses request.mmFeatures (i * hashBlockSize) ((i + 1) * hashBlockSize)) := by
  unfold grownKeys
  by_cases early : i < first
  · rw [if_pos early]
    exact ⟨fun _ late => absurd late (Nat.not_le.mpr early), fun _ => rfl⟩
  · have proper : i * hashBlockSize < (i + 1) * hashBlockSize :=
      Nat.mul_lt_mul_of_pos_right (Nat.lt_succ_self i) positive
    rw [if_neg early, onePassKeys, blockExtraKeys_inj, mmBlockKeys_eq_last_iff proper sorted]
    exact ⟨fun safe _ => safe, fun safe => safe (Nat.not_lt.mp early)⟩

variable {appends : List (List TokenId)}

theorem grown_eq_rehashed_of_safe (positive : 0 < hashBlockSize)
    (sorted : SortedFeatures request.mmFeatures)
    (safe : request.ResumesSafely hashBlockSize appends) :
    (request.grown hashBlockSize appends).blockHashes =
      ((request.grown hashBlockSize appends).rehashed hashBlockSize).blockHashes := by
  rw [grown_blockHashes positive, rehashed_grown_blockHashes positive]
  apply hashList_congr
  intro i below
  rw [grownKeys_eq_onePassKeys_iff positive sorted]
  intro late
  apply safe i late
  exact (Nat.le_div_iff_mul_le positive).mp below

theorem safe_of_grown_eq_rehashed
    (injective : Function.Injective (BlockHashing.hashFunction : HashInput H → H))
    (positive : 0 < hashBlockSize) (sorted : SortedFeatures request.mmFeatures)
    (equal : (request.grown hashBlockSize appends).blockHashes =
      ((request.grown hashBlockSize appends).rehashed hashBlockSize).blockHashes) :
    request.ResumesSafely hashBlockSize appends := by
  rw [grown_blockHashes positive, rehashed_grown_blockHashes positive] at equal
  intro i late full
  have below : i < (request.numTokens + appends.flatten.length) / hashBlockSize :=
    (Nat.le_div_iff_mul_le positive).mpr full
  have keys := keys_eq_of_hashList_eq injective equal below
  exact (grownKeys_eq_onePassKeys_iff positive sorted).mp keys late

/-- The accumulated hash list is that of one pass exactly when no block completed
after the first hashing call has an item the resumed hasher misses; requests of
equal content that were both grown in this way have equal hash lists. -/
theorem grown_hashes_exact
    (injective : Function.Injective (BlockHashing.hashFunction : HashInput H → H))
    {hashBlockSize : Nat} (positive : 0 < hashBlockSize) :
    (∀ (request : Request H) (appends : List (List TokenId)), SortedFeatures request.mmFeatures →
      ((request.grown hashBlockSize appends).blockHashes =
          ((request.grown hashBlockSize appends).rehashed hashBlockSize).blockHashes ↔
        request.ResumesSafely hashBlockSize appends)) ∧
      ∀ (request other : Request H) (appends others : List (List TokenId)),
        SortedFeatures request.mmFeatures → SortedFeatures other.mmFeatures →
        SameContent (request.grown hashBlockSize appends) (other.grown hashBlockSize others) →
        request.ResumesSafely hashBlockSize appends →
        other.ResumesSafely hashBlockSize others →
        (request.grown hashBlockSize appends).blockHashes =
          (other.grown hashBlockSize others).blockHashes := by
  constructor
  · intro request appends sorted
    exact ⟨safe_of_grown_eq_rehashed injective positive sorted,
      grown_eq_rehashed_of_safe positive sorted⟩
  · intro request other appends others sorted sorted' same safe safe'
    rw [grown_eq_rehashed_of_safe positive sorted safe,
      grown_eq_rehashed_of_safe positive sorted' safe', same.rehashed_blockHashes positive]

/-- A prompt with two images, the second one at offset 5. -/
def twoImages (firstOffset : Nat) (promptTokenIds : List TokenId) : Request SymbolicHash :=
  { requestId := "images"
    maxTokens := 4
    mmFeatures := [⟨"cat", { offset := firstOffset, length := 1 }⟩,
      ⟨"dog", { offset := 5, length := 1 }⟩]
    promptTokenIds := some promptTokenIds
    numPromptTokens := promptTokenIds.length
    allTokenIds := promptTokenIds }

theorem twoImages_resumesSafely :
    (twoImages 0 [9, 1, 2, 3, 4, 9]).ResumesSafely 4 [[5], [6, 7]] := by
  intro i late full
  have first : firstHashed 4 (twoImages 0 [9, 1, 2, 3, 4, 9]).numTokens [[5], [6, 7]] = 1 := by
    decide
  have total : (twoImages 0 [9, 1, 2, 3, 4, 9]).numTokens +
      ([[5], [6, 7]] : List (List TokenId)).flatten.length = 9 := by decide
  have second : i = 1 := by omega
  rw [second]
  decide

/-- The first image lies in the first block: the output completes the second
block in two steps, which is as good as one. -/
theorem grown_hashes_exact_twoImages :
    ((twoImages 0 [9, 1, 2, 3, 4, 9]).grown 4 [[5], [6, 7]]).blockHashes =
        (((twoImages 0 [9, 1, 2, 3, 4, 9]).grown 4 [[5], [6, 7]]).rehashed 4).blockHashes ∧
      ((twoImages 0 [9, 1, 2, 3, 4, 9]).grown 4 [[5], [6, 7]]).blockHashes =
        ((twoImages 0 [9, 1, 2, 3, 4, 9, 5, 6, 7]).grown 4 []).blockHashes := by
  have exactness := grown_hashes_exact SymbolicHash.hashFunction_injective
    (show 0 < 4 by decide)
  constructor
  · apply (exactness.1 _ _ (by decide)).mpr
    exact twoImages_resumesSafely
  · apply exactness.2
    · decide
    · decide
    · constructor <;> decide
    · exact twoImages_resumesSafely
    · intro i late full
      have first : firstHashed 4 (twoImages 0 [9, 1, 2, 3, 4, 9, 5, 6, 7]).numTokens [] = 2 := by
        decide
      have total : (twoImages 0 [9, 1, 2, 3, 4, 9, 5, 6, 7]).numTokens +
          ([] : List (List TokenId)).flatten.length = 9 := by decide
      omega

/-- Both images lie in the second block, which the prompt leaves two tokens short.
The output completes it, and its hash names the second image only. -/
theorem grown_hashes_miss_image :
    SortedFeatures (twoImages 4 [1, 2, 3, 4, 9, 9]).mmFeatures ∧
      ((twoImages 4 [1, 2, 3, 4, 9, 9]).grown 4 [[5, 6]]).blockHashes ≠
        (((twoImages 4 [1, 2, 3, 4, 9, 9]).grown 4 [[5, 6]]).rehashed 4).blockHashes ∧
      ((twoImages 4 [1, 2, 3, 4, 9, 9]).grown 4 [[5, 6]]).blockHashes ≠
        ((twoImages 4 [1, 2, 3, 4, 9, 9, 5, 6]).grown 4 []).blockHashes := by
  decide

end Request

end Vllm.Core
