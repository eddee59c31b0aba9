import Vllm.Core.BlockHash

/-!
# The request block hasher

`request_block_hasher` walks over the blocks of a request with a cursor into its
multi-modal items.  Items before the cursor have always been passed by the block
at hand, so the keys of a block depend on the item the walk started from and on
nothing else: on all items when the first block is hashed, on the last one alone
when the hasher resumes behind blocks that are hashed already.
-/

namespace Vllm.Core

/-- The position behind the item's last one. -/
def MultiModalFeatureSpec.stop (feature : MultiModalFeatureSpec) : Nat :=
  feature.mmPosition.offset + feature.mmPosition.length

/-! ## Scanning the items of one block -/

variable {start stop base : Nat} {feature : MultiModalFeatureSpec}
  {features : List MultiModalFeatureSpec}

theorem scanMmFeatures_cons_passed (proper : start < stop) (passed : feature.stop ≤ start)
    (rest : List MultiModalFeatureSpec) (cursor : Nat) :
    scanMmFeatures start stop (feature :: rest) cursor =
      scanMmFeatures start stop rest (cursor + 1) := by
  unfold MultiModalFeatureSpec.stop at passed
  have reached : stop > feature.mmPosition.offset := by omega
  simp only [scanMmFeatures, if_pos reached, if_pos passed]

theorem scanMmFeatures_cons_unreached (unreached : stop ≤ feature.mmPosition.offset)
    (rest : List MultiModalFeatureSpec) (cursor : Nat) :
    scanMmFeatures start stop (feature :: rest) cursor = ([], cursor) := by
  simp only [scanMmFeatures, if_neg (Nat.not_lt.mpr unreached)]

theorem scanMmFeatures_cons_contained (reached : feature.mmPosition.offset < stop)
    (present : start < feature.stop) (contained : feature.stop ≤ stop)
    (rest : List MultiModalFeatureSpec) (cursor : Nat) :
    scanMmFeatures start stop (feature :: rest) cursor =
      (.mmItem feature.identifier ((feature.mmPosition.offset : Int) - start) ::
          (scanMmFeatures start stop rest (cursor + 1)).1,
        (scanMmFeatures start stop rest (cursor + 1)).2) := by
  unfold MultiModalFeatureSpec.stop at present contained
  simp only [scanMmFeatures, if_pos reached, if_neg (Nat.not_le.mpr present), if_pos contained]

theorem scanMmFeatures_cons_continued (reached : feature.mmPosition.offset < stop)
    (present : start < feature.stop) (continued : stop < feature.stop)
    (rest : List MultiModalFeatureSpec) (cursor : Nat) :
    scanMmFeatures start stop (feature :: rest) cursor =
      ([.mmItem feature.identifier ((feature.mmPosition.offset : Int) - start)], cursor) := by
  unfold MultiModalFeatureSpec.stop at present continued
  simp only [scanMmFeatures, if_pos reached, if_neg (Nat.not_le.mpr present),
    if_neg (Nat.not_le.mpr continued)]

/-- The four ways an item can lie to a block, in the order the loop asks. -/
theorem MultiModalFeatureSpec.position_cases (feature : MultiModalFeatureSpec) (start stop : Nat) :
    feature.stop ≤ start ∨ stop ≤ feature.mmPosition.offset ∨
      (feature.mmPosition.offset < stop ∧ start < feature.stop ∧ feature.stop ≤ stop) ∨
      (feature.mmPosition.offset < stop ∧ start < feature.stop ∧ stop < feature.stop) := by
  omega

/-- The cursor only counts: the keys do not depend on it. -/
theorem scanMmFeatures_keys (proper : start < stop) (features : List MultiModalFeatureSpec)
    (first second : Nat) :
    (scanMmFeatures start stop features first).1 =
      (scanMmFeatures start stop features second).1 := by
  induction features generalizing first second with
  | nil => rfl
  | cons feature rest ih =>
      rcases feature.position_cases start stop with
        passed | unreached | ⟨reached, present, contained⟩ | ⟨reached, present, continued⟩
      · rw [scanMmFeatures_cons_passed proper passed, scanMmFeatures_cons_passed proper passed]
        exact ih _ _
      · rw [scanMmFeatures_cons_unreached unreached, scanMmFeatures_cons_unreached unreached]
      · rw [scanMmFeatures_cons_contained reached present contained,
          scanMmFeatures_cons_contained reached present contained, ih (first + 1) (second + 1)]
      · rw [scanMmFeatures_cons_continued reached present continued,
          scanMmFeatures_cons_continued reached present continued]

/-- Items that the block has passed add no key. -/
theorem scanMmFeatures_append_passed (proper : start < stop) {passed : List MultiModalFeatureSpec}
    (behind : ∀ feature ∈ passed, feature.stop ≤ start) (features : List MultiModalFeatureSpec)
    (first second : Nat) :
    (scanMmFeatures start stop (passed ++ features) first).1 =
      (scanMmFeatures start stop features second).1 := by
  induction passed generalizing first with
  | nil => exact scanMmFeatures_keys proper features first second
  | cons feature rest ih =>
      rw [List.cons_append, scanMmFeatures_cons_passed proper (behind feature List.mem_cons_self)]
      exact ih (fun other member => behind other (List.mem_cons_of_mem feature member)) _

/-- The cursor moves over items that end with the block at the latest. -/
theorem scanMmFeatures_cursor (proper : start < stop) (features : List MultiModalFeatureSpec)
    (cursor : Nat) :
    ∃ moved, (scanMmFeatures start stop features cursor).2 = cursor + moved ∧
      ∀ feature ∈ features.take moved, feature.stop ≤ stop := by
  induction features generalizing cursor with
  | nil => exact ⟨0, rfl, fun feature member => by simp at member⟩
  | cons feature rest ih =>
      have further : feature.stop ≤ stop → ∃ moved,
          (scanMmFeatures start stop rest (cursor + 1)).2 = cursor + moved ∧
            ∀ other ∈ (feature :: rest).take moved, other.stop ≤ stop := by
        intro ended
        rcases ih (cursor + 1) with ⟨moved, advanced, behind⟩
        refine ⟨moved + 1, by omega, fun other member => ?_⟩
        rw [List.take_succ_cons, List.mem_cons] at member
        rcases member with rfl | member
        · exact ended
        · exact behind other member
      rcases feature.position_cases start stop with
        passed | unreached | ⟨reached, present, contained⟩ | ⟨reached, present, continued⟩
      · rw [scanMmFeatures_cons_passed proper passed]
        exact further (by omega)
      · rw [scanMmFeatures_cons_unreached unreached]
        exact ⟨0, rfl, fun other member => by simp at member⟩
      · rw [scanMmFeatures_cons_contained reached present contained]
        exact further contained
      · rw [scanMmFeatures_cons_continued reached present continued]
        exact ⟨0, rfl, fun other member => by simp at member⟩

/-- The keys of one block when the items to consider are `features`. -/
def mmBlockKeys (features : List MultiModalFeatureSpec) (start stop : Nat) : List ExtraKey :=
  match features.getLast? with
  | none => []
  | some last => if last.stop ≤ start then [] else (scanMmFeatures start stop features 0).1

/-! ## The cursor of a walk -/

/-- The index a cursor stands for; a negative one counts from the end. -/
def cursorIndex (features : List MultiModalFeatureSpec) (cursor : Int) : Nat :=
  if cursor < 0 then (features.length + cursor).toNat else cursor.toNat

/-- The cursor of a walk that began at item `base`: everything between has been
passed by the block that begins at `start`. -/
structure CursorAt (features : List MultiModalFeatureSpec) (base start : Nat) (cursor : Int) :
    Prop where
  ahead : base ≤ cursorIndex features cursor
  passed : ∀ feature ∈ (features.drop base).take (cursorIndex features cursor - base),
    feature.stop ≤ start

variable {cursor : Int}

theorem CursorAt.of_index (index : cursorIndex features cursor = base) :
    CursorAt features base start cursor where
  ahead := Nat.le_of_eq index.symm
  passed := by
    rw [index, Nat.sub_self]
    intro feature member
    simp at member

theorem CursorAt.later (walk : CursorAt features base start cursor) (ordered : start ≤ stop) :
    CursorAt features base stop cursor where
  ahead := walk.ahead
  passed feature member := Nat.le_trans (walk.passed feature member) ordered

theorem drop_eq_take_append_drop (features : List MultiModalFeatureSpec) {index : Nat}
    (ahead : base ≤ index) :
    features.drop base = (features.drop base).take (index - base) ++ features.drop index := by
  conv_lhs => rw [← List.take_append_drop (index - base) (features.drop base)]
  rw [List.drop_drop, Nat.add_sub_cancel' ahead]

section Request

variable {H : Type} [BlockHashing H]

variable {request : Request H} {base start stop hashBlockSize hashed : Nat}
  {extraKeys : Nat → Option (List ExtraKey)}

variable {cursor : Int}

omit [BlockHashing H] in
/-- `_gen_mm_extra_hash_keys` along a walk: the keys are those of all items from
`base` on. -/
theorem genMmExtraHashKeys_spec (proper : start < stop)
    (inside : base = 0 ∨ base < request.mmFeatures.length)
    (walk : CursorAt request.mmFeatures base start cursor) :
    (genMmExtraHashKeys request start stop cursor).1 =
        mmBlockKeys (request.mmFeatures.drop base) start stop ∧
      CursorAt request.mmFeatures base stop (genMmExtraHashKeys request start stop cursor).2 := by
  have sameLast : (request.mmFeatures.drop base).getLast? = request.mmFeatures.getLast? := by
    rcases inside with rfl | inside
    · rfl
    · rw [List.getLast?_drop, if_neg (Nat.not_le.mpr inside)]
  unfold genMmExtraHashKeys mmBlockKeys
  rw [sameLast]
  cases found : request.mmFeatures.getLast? with
  | none => exact ⟨rfl, walk.later (Nat.le_of_lt proper)⟩
  | some last =>
      dsimp only
      by_cases past : last.mmPosition.offset + last.mmPosition.length ≤ start
      · rw [if_pos past, if_pos (show last.stop ≤ start from past)]
        exact ⟨rfl, walk.later (Nat.le_of_lt proper)⟩
      · rw [if_neg past, if_neg (show ¬ last.stop ≤ start from past)]
        change (scanMmFeatures start stop
            (request.mmFeatures.drop (cursorIndex request.mmFeatures cursor))
            (cursorIndex request.mmFeatures cursor)).1 = _ ∧
          CursorAt request.mmFeatures base stop (Int.ofNat (scanMmFeatures start stop
            (request.mmFeatures.drop (cursorIndex request.mmFeatures cursor))
            (cursorIndex request.mmFeatures cursor)).2)
        have split := drop_eq_take_append_drop request.mmFeatures walk.ahead
        constructor
        · conv_rhs => rw [split]
          exact (scanMmFeatures_append_passed proper walk.passed _ _ _).symm
        · rcases scanMmFeatures_cursor proper
            (request.mmFeatures.drop (cursorIndex request.mmFeatures cursor))
            (cursorIndex request.mmFeatures cursor) with ⟨moved, advanced, behind⟩
          rw [advanced]
          have index : cursorIndex request.mmFeatures
              (Int.ofNat (cursorIndex request.mmFeatures cursor + moved)) =
                cursorIndex request.mmFeatures cursor + moved := rfl
          constructor
          · rw [index]
            exact Nat.le_trans walk.ahead (Nat.le_add_right _ _)
          · intro feature member
            rw [index, Nat.sub_add_comm walk.ahead, List.take_add, List.mem_append,
              List.drop_drop, Nat.add_sub_cancel' walk.ahead] at member
            rcases member with early | late
            · exact Nat.le_trans (walk.passed feature early) (Nat.le_of_lt proper)
            · exact behind feature late

namespace Request

/-- The keys of one block when `features` are the items to consider. -/
def blockKeys (request : Request H) (features : List MultiModalFeatureSpec) (start stop : Nat) :
    List ExtraKey :=
  genLoraExtraHashKeys request ++ mmBlockKeys features start stop ++
    genCacheSaltKeys request start ++ genPromptEmbedsExtraHashKeys request start stop

/-- The keys as they enter the hash: an empty tuple is dropped. -/
def blockExtraKeys (request : Request H) (features : List MultiModalFeatureSpec)
    (start stop : Nat) : Option (List ExtraKey) :=
  if (request.blockKeys features start stop).isEmpty then none
  else some (request.blockKeys features start stop)

theorem blockExtraKeys_eq_iff {other : Request H} {others : List MultiModalFeatureSpec} :
    request.blockExtraKeys features start stop = other.blockExtraKeys others start stop ↔
      request.blockKeys features start stop = other.blockKeys others start stop := by
  constructor
  · intro equal
    unfold blockExtraKeys at equal
    split at equal
    · rename_i empty
      split at equal
      · rename_i empty'
        rw [List.isEmpty_iff.mp empty, List.isEmpty_iff.mp empty']
      · contradiction
    · split at equal
      · contradiction
      · exact Option.some.inj equal
  · intro equal
    unfold blockExtraKeys
    rw [equal]

/-- The items a walk considers that begins behind `hashed` blocks. -/
def walkFeatures (request : Request H) (hashed : Nat) : List MultiModalFeatureSpec :=
  if hashed = 0 then request.mmFeatures else request.mmFeatures.drop (request.mmFeatures.length - 1)

/-- The hashes of the first `count` blocks, with the given extra keys. -/
def hashList (hashBlockSize : Nat) (request : Request H) (extraKeys : Nat → Option (List ExtraKey))
    (count : Nat) : List H :=
  (List.range count).map fun i => chainHash (request.hashParts hashBlockSize extraKeys (i + 1))

end Request

/-- `generate_block_hash_extra_keys` along a walk. -/
theorem generateBlockHashExtraKeys_spec (proper : start < stop)
    (inside : base = 0 ∨ base < request.mmFeatures.length)
    (walk : CursorAt request.mmFeatures base start cursor) :
    (generateBlockHashExtraKeys request start stop cursor).1 =
        request.blockExtraKeys (request.mmFeatures.drop base) start stop ∧
      CursorAt request.mmFeatures base stop
        (generateBlockHashExtraKeys request start stop cursor).2 := by
  rcases genMmExtraHashKeys_spec proper inside walk with ⟨keys, later⟩
  unfold generateBlockHashExtraKeys Request.blockExtraKeys Request.blockKeys
  dsimp only
  rw [← keys]
  split
  · exact ⟨rfl, later⟩
  · exact ⟨rfl, later⟩

/-! ## The walk over the blocks -/

omit [BlockHashing H] in
theorem Request.hashParts_succ (hashBlockSize : Nat) (request : Request H)
    (extraKeys : Nat → Option (List ExtraKey)) (count : Nat) :
    request.hashParts hashBlockSize extraKeys (count + 1) =
      request.hashParts hashBlockSize extraKeys count ++
        [((request.allTokenIds.take ((count + 1) * hashBlockSize)).drop (count * hashBlockSize),
          extraKeys count)] := by
  unfold hashParts
  rw [List.range_succ, List.map_append]
  rfl

/-- A block of the walk extends the chain of the blocks before it. -/
theorem hashBlockTokens_chain {index : Nat} {parent : Option H}
    (chained : parent.getD noneHash = chainHash (request.hashParts hashBlockSize extraKeys index)) :
    hashBlockTokens parent
        ((request.allTokenIds.take (index * hashBlockSize + hashBlockSize)).drop
          (index * hashBlockSize)) (extraKeys index) =
      chainHash (request.hashParts hashBlockSize extraKeys (index + 1)) := by
  rw [Request.hashParts_succ, chainHash_concat, hashBlockTokens, chained, Nat.succ_mul]

/-- The `while` loop: from block `index` on it returns the chain hashes of the
full blocks. -/
theorem requestBlockHasherLoop_eq (positive : 0 < hashBlockSize)
    (inside : base = 0 ∨ base < request.mmFeatures.length) (fuel : Nat) :
    ∀ (index : Nat) (cursor : Int) (parent : Option H),
      CursorAt request.mmFeatures base (index * hashBlockSize) cursor →
      parent.getD noneHash = chainHash (request.hashParts hashBlockSize extraKeys index) →
      (∀ i, index ≤ i → extraKeys i = request.blockExtraKeys (request.mmFeatures.drop base)
        (i * hashBlockSize) ((i + 1) * hashBlockSize)) →
      request.numTokens / hashBlockSize ≤ index + fuel →
      requestBlockHasherLoop hashBlockSize request fuel (index * hashBlockSize) cursor parent =
        (List.range' index (request.numTokens / hashBlockSize - index)).map
          fun i => chainHash (request.hashParts hashBlockSize extraKeys (i + 1)) := by
  induction fuel with
  | zero =>
      intro index cursor parent _ _ _ enough
      rw [Nat.add_zero] at enough
      rw [Nat.sub_eq_zero_of_le enough]
      rfl
  | succ fuel ih =>
      intro index cursor parent walk chained walked enough
      unfold requestBlockHasherLoop
      dsimp only
      by_cases past : index * hashBlockSize + hashBlockSize > request.numTokens
      · rw [if_pos past]
        have done : request.numTokens / hashBlockSize ≤ index := by
          rw [← Nat.succ_mul] at past
          exact Nat.le_of_lt_succ (Nat.div_lt_of_lt_mul (Nat.mul_comm _ _ ▸ past))
        rw [Nat.sub_eq_zero_of_le done]
        rfl
      · rw [if_neg past]
        have further : index < request.numTokens / hashBlockSize := by
          rw [← Nat.succ_mul] at past
          exact (Nat.le_div_iff_mul_le positive).mpr (Nat.not_lt.mp past)
        have proper : index * hashBlockSize < index * hashBlockSize + hashBlockSize := by omega
        rcases generateBlockHashExtraKeys_spec proper inside walk with ⟨keys, later⟩
        have key : (generateBlockHashExtraKeys request (index * hashBlockSize)
            (index * hashBlockSize + hashBlockSize) cursor).1 = extraKeys index := by
          rw [keys, walked index (Nat.le_refl index), Nat.succ_mul]
        rw [key, hashBlockTokens_chain chained]
        have rest := ih (index + 1)
          (generateBlockHashExtraKeys request (index * hashBlockSize)
            (index * hashBlockSize + hashBlockSize) cursor).2
          (some (chainHash (request.hashParts hashBlockSize extraKeys (index + 1))))
          (by rw [Nat.succ_mul]; exact later) rfl
          (fun i least => walked i (Nat.le_of_succ_le least)) (by omega)
        rw [Nat.succ_mul] at rest
        rw [rest, ← Nat.sub_add_cancel (Nat.sub_pos_of_lt further), List.range'_succ,
          List.map_cons, Nat.sub_sub]

theorem Request.getLast?_hashList (hashBlockSize : Nat) (request : Request H)
    (extraKeys : Nat → Option (List ExtraKey)) (count : Nat) :
    (request.hashList hashBlockSize extraKeys count).getLast?.getD noneHash =
      chainHash (request.hashParts hashBlockSize extraKeys count) := by
  unfold hashList
  cases count with
  | zero => rfl
  | succ count =>
      rw [List.range_succ, List.map_append, List.map_singleton, List.getLast?_concat]
      rfl

/-- The hasher, when the stored hashes are those of the first `hashed` blocks. -/
theorem requestBlockHasher_eq (positive : 0 < hashBlockSize)
    (stored : request.blockHashes = request.hashList hashBlockSize extraKeys hashed)
    (walked : ∀ i, hashed ≤ i → extraKeys i = request.blockExtraKeys (request.walkFeatures hashed)
      (i * hashBlockSize) ((i + 1) * hashBlockSize)) :
    requestBlockHasher hashBlockSize request =
      (List.range' hashed (request.numTokens / hashBlockSize - hashed)).map
        fun i => chainHash (request.hashParts hashBlockSize extraKeys (i + 1)) := by
  have count : request.blockHashes.length = hashed := by
    rw [stored, Request.hashList, List.length_map, List.length_range]
  have chained := request.getLast?_hashList hashBlockSize extraKeys hashed
  rw [← stored] at chained
  unfold requestBlockHasher
  rw [count]
  by_cases past : hashed * hashBlockSize + hashBlockSize > request.numTokens
  · rw [if_pos past]
    have done : request.numTokens / hashBlockSize ≤ hashed := by
      rw [← Nat.succ_mul] at past
      exact Nat.le_of_lt_succ (Nat.div_lt_of_lt_mul (Nat.mul_comm _ _ ▸ past))
    rw [Nat.sub_eq_zero_of_le done]
    rfl
  · rw [if_neg past]
    have enough : request.numTokens / hashBlockSize ≤ hashed + request.numTokens :=
      Nat.le_trans (Nat.div_le_self _ _) (Nat.le_add_left _ _)
    by_cases first : hashed = 0
    · have features : request.walkFeatures hashed = request.mmFeatures.drop 0 := by
        rw [Request.walkFeatures, if_pos first, List.drop_zero]
      rw [features] at walked
      rw [if_neg (by simp [first])]
      exact requestBlockHasherLoop_eq positive (.inl rfl) _ hashed 0 _ (.of_index rfl) chained
        walked enough
    · have features : request.walkFeatures hashed =
          request.mmFeatures.drop (request.mmFeatures.length - 1) := by
        rw [Request.walkFeatures, if_neg first]
      rw [features] at walked
      rw [if_pos (Nat.mul_pos (Nat.pos_of_ne_zero first) positive)]
      apply requestBlockHasherLoop_eq positive _ _ hashed (-1) _ (.of_index _) chained walked enough
      · omega
      · unfold cursorIndex
        rw [if_pos (by decide)]
        omega

/-- `update_block_hashes` adds the hashes of the blocks that became full. -/
theorem Request.updateBlockHashes_eq (positive : 0 < hashBlockSize)
    (stored : request.blockHashes = request.hashList hashBlockSize extraKeys hashed)
    (walked : ∀ i, hashed ≤ i → extraKeys i = request.blockExtraKeys (request.walkFeatures hashed)
      (i * hashBlockSize) ((i + 1) * hashBlockSize)) :
    (request.updateBlockHashes (some hashBlockSize)).blockHashes =
      request.hashList hashBlockSize extraKeys
        (max hashed (request.numTokens / hashBlockSize)) := by
  have total : max hashed (request.numTokens / hashBlockSize) =
      hashed + (request.numTokens / hashBlockSize - hashed) := by omega
  change request.blockHashes ++ requestBlockHasher hashBlockSize request = _
  rw [requestBlockHasher_eq positive stored walked, stored, total]
  unfold hashList
  rw [← List.map_append, List.range_eq_range', List.range_eq_range']
  congr 1
  have joined := List.range'_append_1 (s := 0) (m := hashed)
    (n := request.numTokens / hashBlockSize - hashed)
  rwa [Nat.zero_add] at joined

end Request

end Vllm.Core
