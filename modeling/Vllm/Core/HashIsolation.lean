import Vllm.Core.HashIncrements

/-!
# Isolation by hash keys

Two requests share a cached block when they have its hash in common, so equal
hashes should mean equal prefixes: tokens, multi-modal items, LoRA adapter, cache
salt and prompt embeddings.  The keys of a block form one untagged tuple.  The
adapter's name and the salt are both strings, and when nothing stands between
them one can be taken for the other; and an item that another one covers does
not always make it into the tuple.
-/

namespace Vllm.Core

/-! ## Reading a tuple of keys -/

/-- The keys of a block: adapter, items, salt and digest, in this order. -/
def keyTuple (lora : Option String) (items : List ExtraKey) (salt : Option String)
    (digest : Option (List UInt8)) : List ExtraKey :=
  lora.toList.map .text ++ items ++ salt.toList.map .text ++ digest.toList.map .digest

/-- The key is an item. -/
def ExtraKey.isItem : ExtraKey → Bool
  | .mmItem _ _ => true
  | _ => false

/-- The text of a key, if it is one. -/
def ExtraKey.text? : ExtraKey → Option String
  | .text value => some value
  | _ => none

/-- The bytes of a key, if it is a digest. -/
def ExtraKey.digest? : ExtraKey → Option (List UInt8)
  | .digest bytes => some bytes
  | _ => none

section KeyTuple

variable {lora other salt salt' : Option String} {items items' : List ExtraKey}
  {digest digest' : Option (List UInt8)}

theorem keyTuple_items (allItems : ∀ key ∈ items, key.isItem = true) :
    (keyTuple lora items salt digest).filter ExtraKey.isItem = items := by
  have kept : items.filter ExtraKey.isItem = items := List.filter_eq_self.mpr allItems
  unfold keyTuple
  rw [List.filter_append, List.filter_append, List.filter_append, kept]
  cases lora <;> cases salt <;> cases digest <;> simp [ExtraKey.isItem]

theorem keyTuple_texts (allItems : ∀ key ∈ items, key.isItem = true) :
    (keyTuple lora items salt digest).filterMap ExtraKey.text? = lora.toList ++ salt.toList := by
  have noTexts : items.filterMap ExtraKey.text? = [] := by
    rw [List.filterMap_eq_nil_iff]
    intro key member
    have item := allItems key member
    cases key with
    | mmItem _ _ => rfl
    | text _ => contradiction
    | digest _ => contradiction
  unfold keyTuple
  rw [List.filterMap_append, List.filterMap_append, List.filterMap_append, noTexts]
  cases lora <;> cases salt <;> cases digest <;> rfl

theorem keyTuple_digests (allItems : ∀ key ∈ items, key.isItem = true) :
    (keyTuple lora items salt digest).filterMap ExtraKey.digest? = digest.toList := by
  have noDigests : items.filterMap ExtraKey.digest? = [] := by
    rw [List.filterMap_eq_nil_iff]
    intro key member
    have item := allItems key member
    cases key with
    | mmItem _ _ => rfl
    | text _ => contradiction
    | digest _ => contradiction
  unfold keyTuple
  rw [List.filterMap_append, List.filterMap_append, List.filterMap_append, noDigests]
  cases lora <;> cases salt <;> cases digest <;> rfl

/-- One side names an adapter and has no salt, the other has the adapter's name as
its salt and no adapter. -/
def Swapped (lora salt other salt' : Option String) : Prop :=
  ∃ name, (lora = some name ∧ salt = none ∧ other = none ∧ salt' = some name) ∨
    (lora = none ∧ salt = some name ∧ other = some name ∧ salt' = none)

/-- Two texts are told apart by their number and order alone. -/
theorem texts_eq_cases (texts : lora.toList ++ salt.toList = other.toList ++ salt'.toList) :
    (lora = other ∧ salt = salt') ∨ Swapped lora salt other salt' := by
  unfold Swapped
  cases lora <;> cases salt <;> cases other <;> cases salt' <;> simp_all

/-- Reading a tuple: everything but the place of a lone text can be told. -/
theorem keyTuple_eq_iff (allItems : ∀ key ∈ items, key.isItem = true)
    (allItems' : ∀ key ∈ items', key.isItem = true) :
    keyTuple lora items salt digest = keyTuple other items' salt' digest' ↔
      items = items' ∧ digest = digest' ∧
        ((lora = other ∧ salt = salt') ∨ (items = [] ∧ Swapped lora salt other salt')) := by
  constructor
  · intro equal
    have sameItems : items = items' := by
      rw [← keyTuple_items allItems, equal, keyTuple_items allItems']
    have sameDigest : digest = digest' := by
      have digests := congrArg (List.filterMap ExtraKey.digest?) equal
      rw [keyTuple_digests allItems, keyTuple_digests allItems'] at digests
      cases digest <;> cases digest' <;> simp_all
    have texts := congrArg (List.filterMap ExtraKey.text?) equal
    rw [keyTuple_texts allItems, keyTuple_texts allItems'] at texts
    refine ⟨sameItems, sameDigest, ?_⟩
    rcases texts_eq_cases texts with same | swapped
    · exact .inl same
    · refine .inr ⟨?_, swapped⟩
      -- An item would stand after the adapter and before the salt.
      cases items with
      | nil => rfl
      | cons key rest =>
          have item := allItems key List.mem_cons_self
          subst sameItems
          rcases swapped with ⟨name, ⟨rfl, rfl, rfl, rfl⟩ | ⟨rfl, rfl, rfl, rfl⟩⟩
          · simp only [keyTuple, Option.toList, List.map_cons, List.map_nil, List.cons_append,
              List.nil_append, List.cons.injEq] at equal
            rw [← equal.1] at item
            contradiction
          · simp only [keyTuple, Option.toList, List.map_cons, List.map_nil, List.cons_append,
              List.nil_append, List.cons.injEq] at equal
            rw [equal.1] at item
            contradiction
  · rintro ⟨rfl, rfl, ⟨rfl, rfl⟩ | ⟨rfl, name, swapped⟩⟩
    · rfl
    · rcases swapped with ⟨rfl, rfl, rfl, rfl⟩ | ⟨rfl, rfl, rfl, rfl⟩
      · rfl
      · rfl

end KeyTuple

/-! ## Recorded items -/

/-- The item and the positions `[start, stop)` have one in common. -/
def MultiModalFeatureSpec.Overlaps (feature : MultiModalFeatureSpec) (start stop : Nat) : Prop :=
  feature.mmPosition.offset < stop ∧ start < feature.stop

/-- The block records the item: the block has not passed the last item, and every
earlier item ends with the block at the latest. -/
def Recorded (features : List MultiModalFeatureSpec) (start stop : Nat)
    (feature : MultiModalFeatureSpec) : Prop :=
  (∃ last, features.getLast? = some last ∧ start < last.stop) ∧
    ∃ before after, features = before ++ feature :: after ∧ feature.Overlaps start stop ∧
      ∀ earlier ∈ before, earlier.mmPosition.offset < stop ∧ earlier.stop ≤ stop

/-- The key under which a block that begins at `start` records the item. -/
def MultiModalFeatureSpec.key (feature : MultiModalFeatureSpec) (start : Nat) : ExtraKey :=
  .mmItem feature.identifier ((feature.mmPosition.offset : Int) - start)

variable {start stop : Nat} {features : List MultiModalFeatureSpec}

theorem mem_scanMmFeatures_iff (proper : start < stop) (cursor : Nat) (key : ExtraKey) :
    key ∈ (scanMmFeatures start stop features cursor).1 ↔
      ∃ feature before after, features = before ++ feature :: after ∧
        feature.Overlaps start stop ∧ key = feature.key start ∧
        ∀ earlier ∈ before, earlier.mmPosition.offset < stop ∧ earlier.stop ≤ stop := by
  induction features generalizing cursor with
  | nil =>
      constructor
      · intro member
        contradiction
      · rintro ⟨_, before, _, split, _⟩
        simp at split
  | cons head rest ih =>
      -- The head itself, or an item behind a head that ends with the block.
      have step : (∃ feature before after, head :: rest = before ++ feature :: after ∧
            feature.Overlaps start stop ∧ key = feature.key start ∧
            ∀ earlier ∈ before, earlier.mmPosition.offset < stop ∧ earlier.stop ≤ stop) ↔
          (head.Overlaps start stop ∧ key = head.key start) ∨
            ((head.mmPosition.offset < stop ∧ head.stop ≤ stop) ∧
              key ∈ (scanMmFeatures start stop rest (cursor + 1)).1) := by
        rw [ih (cursor + 1)]
        constructor
        · rintro ⟨feature, before, after, split, overlaps, equal, ended⟩
          cases before with
          | nil =>
              rw [List.nil_append, List.cons.injEq] at split
              rw [split.1]
              exact .inl ⟨overlaps, equal⟩
          | cons first before =>
              rw [List.cons_append, List.cons.injEq] at split
              rw [split.1]
              refine .inr ⟨ended first List.mem_cons_self, feature, before, after, split.2,
                overlaps, equal, fun earlier member => ?_⟩
              exact ended earlier (List.mem_cons_of_mem first member)
        · rintro (⟨overlaps, equal⟩ | ⟨ends, feature, before, after, rfl, overlaps, equal, ended⟩)
          · exact ⟨head, [], rest, rfl, overlaps, equal, fun earlier member => by simp at member⟩
          · refine ⟨feature, head :: before, after, rfl, overlaps, equal, fun earlier member => ?_⟩
            rcases List.mem_cons.mp member with rfl | member
            · exact ends
            · exact ended earlier member
      rw [step]
      rcases head.position_cases start stop with
        passed | unreached | ⟨reached, present, contained⟩ | ⟨reached, present, continued⟩
      · rw [scanMmFeatures_cons_passed proper passed]
        have reached : head.mmPosition.offset < stop := by
          unfold MultiModalFeatureSpec.stop at passed
          omega
        constructor
        · intro member
          exact .inr ⟨⟨reached, by omega⟩, member⟩
        · rintro (⟨⟨_, present⟩, _⟩ | ⟨_, member⟩)
          · omega
          · exact member
      · rw [scanMmFeatures_cons_unreached unreached]
        constructor
        · intro member
          contradiction
        · rintro (⟨⟨reached, _⟩, _⟩ | ⟨⟨reached, _⟩, _⟩)
          · omega
          · omega
      · rw [scanMmFeatures_cons_contained reached present contained, List.mem_cons]
        constructor
        · rintro (equal | member)
          · exact .inl ⟨⟨reached, present⟩, equal⟩
          · exact .inr ⟨⟨reached, contained⟩, member⟩
        · rintro (⟨_, equal⟩ | ⟨_, member⟩)
          · exact .inl equal
          · exact .inr member
      · rw [scanMmFeatures_cons_continued reached present continued, List.mem_singleton]
        constructor
        · intro equal
          exact .inl ⟨⟨reached, present⟩, equal⟩
        · rintro (⟨_, equal⟩ | ⟨⟨_, contained⟩, _⟩)
          · exact equal
          · omega

/-- The keys of a block are those of the items it records. -/
theorem mem_mmBlockKeys_iff (proper : start < stop) (key : ExtraKey) :
    key ∈ mmBlockKeys features start stop ↔
      ∃ feature, Recorded features start stop feature ∧ key = feature.key start := by
  unfold mmBlockKeys Recorded
  cases found : features.getLast? with
  | none =>
      constructor
      · intro member
        contradiction
      · rintro ⟨feature, ⟨⟨last, impossible, _⟩, _⟩, _⟩
        contradiction
  | some last =>
      dsimp only
      by_cases past : last.stop ≤ start
      · rw [if_pos past]
        constructor
        · intro member
          contradiction
        · rintro ⟨feature, ⟨⟨_, same, present⟩, _⟩, _⟩
          rw [← Option.some.inj same] at present
          omega
      · rw [if_neg past, mem_scanMmFeatures_iff proper]
        constructor
        · rintro ⟨feature, before, after, split, overlaps, equal, ended⟩
          exact ⟨feature, ⟨⟨last, rfl, by omega⟩, before, after, split, overlaps, ended⟩, equal⟩
        · rintro ⟨feature, ⟨_, before, after, split, overlaps, ended⟩, equal⟩
          exact ⟨feature, before, after, split, overlaps, equal, ended⟩

theorem mmBlockKeys_isItem (proper : start < stop) (features : List MultiModalFeatureSpec) :
    ∀ key ∈ mmBlockKeys features start stop, key.isItem = true := by
  intro key member
  rcases (mem_mmBlockKeys_iff proper key).mp member with ⟨feature, _, rfl⟩
  rfl

theorem Recorded.mem {feature : MultiModalFeatureSpec}
    (recorded : Recorded features start stop feature) : feature ∈ features := by
  rcases recorded with ⟨_, before, after, rfl, _⟩
  exact List.mem_append_right before List.mem_cons_self

/-! ## Prefixes, block by block -/

/-- Lists that agree on every block agree on the blocks together. -/
theorem flatMap_take_eq_of_blocks {α β : Type} (f : α → List β) (size : Nat)
    {first second : List α} (count : Nat)
    (blocks : ∀ j < count, ((first.take ((j + 1) * size)).drop (j * size)).flatMap f =
      ((second.take ((j + 1) * size)).drop (j * size)).flatMap f) :
    (first.take (count * size)).flatMap f = (second.take (count * size)).flatMap f := by
  induction count with
  | zero => rw [Nat.zero_mul, List.take_zero, List.take_zero]
  | succ count ih =>
      have split : ∀ list : List α, list.take ((count + 1) * size) =
          list.take (count * size) ++ (list.take ((count + 1) * size)).drop (count * size) := by
        intro list
        have cut := List.take_append_drop (count * size) (list.take ((count + 1) * size))
        rw [List.take_take, Nat.min_eq_left (Nat.mul_le_mul_right size (Nat.le_succ count))] at cut
        exact cut.symm
      rw [split first, split second, List.flatMap_append, List.flatMap_append,
        ih fun j below => blocks j (Nat.lt_succ_of_lt below), blocks count (Nat.lt_succ_self count)]

/-- A block lies inside every prefix that covers it. -/
theorem block_eq_of_take_eq {α : Type} {size : Nat} {first second : List α} {count j : Nat}
    (equal : first.take (count * size) = second.take (count * size)) (below : j < count) :
    (first.take ((j + 1) * size)).drop (j * size) =
      (second.take ((j + 1) * size)).drop (j * size) := by
  have inside : ∀ list : List α,
      list.take ((j + 1) * size) = (list.take (count * size)).take ((j + 1) * size) := by
    intro list
    rw [List.take_take, Nat.min_eq_left (Nat.mul_le_mul_right size below)]
  rw [inside first, inside second, equal]

namespace Request

variable {H : Type} [BlockHashing H]

/-- The name of the request's LoRA adapter. -/
def loraName (request : Request H) : Option String :=
  request.loraRequest.map LoRARequest.loraName

/-- The salt that enters hashes: an empty one does not. -/
def hashedSalt (request : Request H) : Option String :=
  request.cacheSalt.filter (· ≠ "")

/-- The bytes of the prompt embeddings at positions `[start, stop)`. -/
def embedBytes (request : Request H) (start stop : Nat) : Option (List UInt8) :=
  request.promptEmbeds.map fun rows => ((rows.take stop).drop start).flatten

/-- The request has this item somewhere in its first `count` positions. -/
def ItemAt (request : Request H) (count : Nat) (identifier : String) (offset : Nat) : Prop :=
  ∃ feature ∈ request.mmFeatures, feature.identifier = identifier ∧
    feature.mmPosition.offset = offset ∧ feature.Overlaps 0 count

/-- The two requests have the same first `count` positions. -/
structure SamePrefix (first second : Request H) (count : Nat) : Prop where
  tokens : first.allTokenIds.take count = second.allTokenIds.take count
  items : ∀ identifier offset,
    first.ItemAt count identifier offset ↔ second.ItemAt count identifier offset
  lora : first.loraName = second.loraName
  salt : first.cacheSalt = second.cacheSalt
  embeds : first.embedBytes 0 count = second.embedBytes 0 count

/-- One pass gives block `i` the same hash in both. -/
def SameHash (hashBlockSize : Nat) (first second : Request H) (i : Nat) : Prop :=
  ∃ hash, (first.rehashed hashBlockSize).blockHashes[i]? = some hash ∧
    (second.rehashed hashBlockSize).blockHashes[i]? = some hash

theorem blockKeys_eq_keyTuple (request : Request H) (features : List MultiModalFeatureSpec)
    (start stop : Nat) :
    request.blockKeys features start stop =
      keyTuple request.loraName (mmBlockKeys features start stop)
        (if start = 0 then request.hashedSalt else none)
        ((request.embedBytes start stop).map (BlockHashing.sha256 H)) := by
  have lora : genLoraExtraHashKeys request = request.loraName.toList.map .text := by
    unfold genLoraExtraHashKeys loraName
    cases request.loraRequest <;> rfl
  have salt : genCacheSaltKeys request start =
      (if start = 0 then request.hashedSalt else none).toList.map .text := by
    unfold genCacheSaltKeys hashedSalt
    cases request.cacheSalt with
    | none => simp
    | some value =>
        by_cases atStart : start = 0
        · by_cases empty : value = ""
          · simp [atStart, empty]
          · simp [atStart, empty, Option.filter]
        · simp [atStart]
  have embeds : genPromptEmbedsExtraHashKeys request start stop =
      ((request.embedBytes start stop).map (BlockHashing.sha256 H)).toList.map .digest := by
    unfold genPromptEmbedsExtraHashKeys embedBytes
    cases request.promptEmbeds <;> rfl
  unfold blockKeys keyTuple
  rw [lora, salt, embeds]

/-! ## What equal hashes say -/

section Injective

variable {hashBlockSize : Nat} {first second : Request H}

/-- The keys of a block, read in both requests. -/
theorem onePassKeys_eq_iff (digests : Function.Injective (BlockHashing.sha256 H))
    (positive : 0 < hashBlockSize) (j : Nat) :
    first.onePassKeys hashBlockSize j = second.onePassKeys hashBlockSize j ↔
      mmBlockKeys first.mmFeatures (j * hashBlockSize) ((j + 1) * hashBlockSize) =
          mmBlockKeys second.mmFeatures (j * hashBlockSize) ((j + 1) * hashBlockSize) ∧
        first.embedBytes (j * hashBlockSize) ((j + 1) * hashBlockSize) =
          second.embedBytes (j * hashBlockSize) ((j + 1) * hashBlockSize) ∧
        ((first.loraName = second.loraName ∧ (j = 0 → first.hashedSalt = second.hashedSalt)) ∨
          (j = 0 ∧ mmBlockKeys first.mmFeatures 0 hashBlockSize = [] ∧
            Swapped first.loraName first.hashedSalt second.loraName second.hashedSalt)) := by
  have proper : j * hashBlockSize < (j + 1) * hashBlockSize :=
    Nat.mul_lt_mul_of_pos_right (Nat.lt_succ_self j) positive
  have origin : j * hashBlockSize = 0 ↔ j = 0 := by
    rw [Nat.mul_eq_zero]
    omega
  unfold onePassKeys
  rw [blockExtraKeys_eq_iff, blockKeys_eq_keyTuple, blockKeys_eq_keyTuple,
    keyTuple_eq_iff (mmBlockKeys_isItem proper _) (mmBlockKeys_isItem proper _),
    (Option.map_injective digests).eq_iff]
  simp only [origin]
  by_cases start : j = 0
  · subst start
    simp
  · simp only [start, if_false, false_and, or_false, false_implies, and_true]
    constructor
    · rintro ⟨items, embeds, lora | ⟨_, name, ⟨_, _, _, salt⟩ | ⟨_, salt, _, _⟩⟩⟩
      · exact ⟨items, embeds, lora⟩
      · contradiction
      · contradiction
    · rintro ⟨items, embeds, lora⟩
      exact ⟨items, embeds, .inl lora⟩

theorem getElem?_rehashed (positive : 0 < hashBlockSize) (request : Request H) (i : Nat) :
    (request.rehashed hashBlockSize).blockHashes[i]? =
      if (i + 1) * hashBlockSize ≤ request.numTokens then
        some (chainHash (request.hashParts hashBlockSize (request.onePassKeys hashBlockSize) (i + 1)))
      else none := by
  have full : i < request.numTokens / hashBlockSize ↔
      (i + 1) * hashBlockSize ≤ request.numTokens := Nat.le_div_iff_mul_le positive
  rw [rehashed_blockHashes positive, hashList, List.getElem?_map]
  by_cases covered : (i + 1) * hashBlockSize ≤ request.numTokens
  · rw [if_pos covered, List.getElem?_range (full.mpr covered)]
    rfl
  · rw [if_neg covered, List.getElem?_eq_none (by rw [List.length_range]; omega)]
    rfl

/-- What is hashed of a block, and of all blocks before it, is equal. -/
theorem sameHash_iff_parts
    (injective : Function.Injective (BlockHashing.hashFunction : HashInput H → H))
    (positive : 0 < hashBlockSize) (i : Nat) :
    SameHash hashBlockSize first second i ↔
      ((i + 1) * hashBlockSize ≤ first.numTokens ∧ (i + 1) * hashBlockSize ≤ second.numTokens) ∧
        ∀ j < i + 1, (first.allTokenIds.take ((j + 1) * hashBlockSize)).drop (j * hashBlockSize) =
              (second.allTokenIds.take ((j + 1) * hashBlockSize)).drop (j * hashBlockSize) ∧
            first.onePassKeys hashBlockSize j = second.onePassKeys hashBlockSize j := by
  unfold SameHash
  rw [getElem?_rehashed positive, getElem?_rehashed positive]
  constructor
  · rintro ⟨hash, hashed, hashed'⟩
    split at hashed
    · split at hashed'
      · rename_i full full'
        refine ⟨⟨full, full'⟩, fun j below => ?_⟩
        have parts := chainHash_injective injective
          ((Option.some.inj hashed).trans (Option.some.inj hashed').symm)
        have part := List.map_inj_left.mp parts j (List.mem_range.mpr below)
        exact ⟨congrArg Prod.fst part, congrArg Prod.snd part⟩
      · contradiction
    · contradiction
  · rintro ⟨⟨full, full'⟩, parts⟩
    rw [if_pos full, if_pos full']
    refine ⟨_, rfl, ?_⟩
    congr 2
    apply List.map_congr_left
    intro j member
    rw [(parts j (List.mem_range.mp member)).1, (parts j (List.mem_range.mp member)).2]

/-- The requests agree on the tokens, the recorded items and the embeddings of
the blocks up to `i`. -/
structure Agrees (hashBlockSize : Nat) (first second : Request H) (i : Nat) : Prop where
  full : (i + 1) * hashBlockSize ≤ first.numTokens ∧ (i + 1) * hashBlockSize ≤ second.numTokens
  tokens : first.allTokenIds.take ((i + 1) * hashBlockSize) =
    second.allTokenIds.take ((i + 1) * hashBlockSize)
  recorded : ∀ j < i + 1,
    mmBlockKeys first.mmFeatures (j * hashBlockSize) ((j + 1) * hashBlockSize) =
      mmBlockKeys second.mmFeatures (j * hashBlockSize) ((j + 1) * hashBlockSize)
  embeds : ∀ j < i + 1, first.embedBytes (j * hashBlockSize) ((j + 1) * hashBlockSize) =
    second.embedBytes (j * hashBlockSize) ((j + 1) * hashBlockSize)

/-- Adapter and salt cannot be told apart by the first block's keys. -/
def TextsSwapped (hashBlockSize : Nat) (first second : Request H) (i : Nat) : Prop :=
  i = 0 ∧ mmBlockKeys first.mmFeatures 0 hashBlockSize = [] ∧
    Swapped first.loraName first.hashedSalt second.loraName second.hashedSalt

/-- Equal hashes leave room for one confusion of the texts only. -/
theorem sameHash_iff (injective : Function.Injective (BlockHashing.hashFunction : HashInput H → H))
    (digests : Function.Injective (BlockHashing.sha256 H)) (positive : 0 < hashBlockSize)
    (i : Nat) :
    SameHash hashBlockSize first second i ↔
      Agrees hashBlockSize first second i ∧
        ((first.loraName = second.loraName ∧ first.hashedSalt = second.hashedSalt) ∨
          TextsSwapped hashBlockSize first second i) := by
  rw [sameHash_iff_parts injective positive]
  simp only [onePassKeys_eq_iff digests positive]
  constructor
  · rintro ⟨full, parts⟩
    constructor
    · refine ⟨full, ?_, fun j below => (parts j below).2.1, fun j below => (parts j below).2.2.1⟩
      have tokens := flatMap_take_eq_of_blocks (fun token : TokenId => [token]) hashBlockSize
        (i + 1) fun j below => congrArg _ (parts j below).1
      rwa [List.flatMap_singleton', List.flatMap_singleton'] at tokens
    · rcases (parts 0 (Nat.succ_pos i)).2.2.2 with same | swapped
      · exact .inl ⟨same.1, same.2 rfl⟩
      · -- The second block would show the adapter and not the salt.
        cases i with
        | zero => exact .inr swapped
        | succ i =>
            rcases (parts 1 (by omega)).2.2.2 with same | ⟨impossible, _⟩
            · rcases swapped with ⟨_, _, name, ⟨lora, _, other, _⟩ | ⟨lora, _, other, _⟩⟩
              · rw [lora, other] at same
                exact absurd same.1 (Option.some_ne_none name)
              · rw [lora, other] at same
                exact absurd same.1.symm (Option.some_ne_none name)
            · contradiction
  · rintro ⟨agrees, texts⟩
    refine ⟨agrees.full, fun j below => ⟨block_eq_of_take_eq agrees.tokens below,
      agrees.recorded j below, agrees.embeds j below, ?_⟩⟩
    rcases texts with same | ⟨rfl, empty, swapped⟩
    · exact .inl ⟨same.1, fun _ => same.2⟩
    · exact .inr ⟨by omega, empty, swapped⟩

/-- The first request has an item in the prefix that no block up to `i` records
and that the second request does not have there. -/
def LeavesOut (hashBlockSize : Nat) (first second : Request H) (i : Nat) : Prop :=
  ∃ feature ∈ first.mmFeatures, feature.Overlaps 0 ((i + 1) * hashBlockSize) ∧
    (∀ j < i + 1, ¬ Recorded first.mmFeatures (j * hashBlockSize) ((j + 1) * hashBlockSize)
      feature) ∧
    ¬ second.ItemAt ((i + 1) * hashBlockSize) feature.identifier feature.mmPosition.offset

/-- The requests agree on all that is hashed of them and still differ: adapter and
salt trade places, an empty salt meets none, or an item is left out. -/
structure Confused (hashBlockSize : Nat) (first second : Request H) (i : Nat) : Prop where
  agrees : Agrees hashBlockSize first second i
  kind : TextsSwapped hashBlockSize first second i ∨
    (first.loraName = second.loraName ∧ first.hashedSalt = second.hashedSalt ∧
      (first.cacheSalt ≠ second.cacheSalt ∨ LeavesOut hashBlockSize first second i ∨
        LeavesOut hashBlockSize second first i))

section

omit [BlockHashing H]

variable {i : Nat}

/-- A recorded item is read off the keys of its block. -/
theorem itemAt_of_recorded (positive : 0 < hashBlockSize) {j : Nat} (below : j < i + 1)
    (same : mmBlockKeys first.mmFeatures (j * hashBlockSize) ((j + 1) * hashBlockSize) =
      mmBlockKeys second.mmFeatures (j * hashBlockSize) ((j + 1) * hashBlockSize))
    {feature : MultiModalFeatureSpec}
    (recorded : Recorded first.mmFeatures (j * hashBlockSize) ((j + 1) * hashBlockSize) feature) :
    second.ItemAt ((i + 1) * hashBlockSize) feature.identifier feature.mmPosition.offset := by
  have proper : j * hashBlockSize < (j + 1) * hashBlockSize :=
    Nat.mul_lt_mul_of_pos_right (Nat.lt_succ_self j) positive
  have member := (mem_mmBlockKeys_iff proper _).mpr ⟨feature, recorded, rfl⟩
  rw [same] at member
  rcases (mem_mmBlockKeys_iff proper _).mp member with ⟨other, recorded', equal⟩
  unfold MultiModalFeatureSpec.key at equal
  rw [ExtraKey.mmItem.injEq] at equal
  rcases recorded'.2 with ⟨_, _, _, overlaps, _⟩
  have within : (j + 1) * hashBlockSize ≤ (i + 1) * hashBlockSize :=
    Nat.mul_le_mul_right hashBlockSize below
  refine ⟨other, recorded'.mem, equal.1.symm, by omega, ?_⟩
  unfold MultiModalFeatureSpec.Overlaps at overlaps ⊢
  omega

theorem itemAt_of_itemAt (positive : 0 < hashBlockSize) (recorded : ∀ j < i + 1,
      mmBlockKeys first.mmFeatures (j * hashBlockSize) ((j + 1) * hashBlockSize) =
        mmBlockKeys second.mmFeatures (j * hashBlockSize) ((j + 1) * hashBlockSize))
    (kept : ¬ LeavesOut hashBlockSize first second i) {identifier : String} {offset : Nat}
    (item : first.ItemAt ((i + 1) * hashBlockSize) identifier offset) :
    second.ItemAt ((i + 1) * hashBlockSize) identifier offset := by
  rcases item with ⟨feature, member, rfl, rfl, overlaps⟩
  by_contra missing
  apply kept
  refine ⟨feature, member, overlaps, fun j below seen => ?_, missing⟩
  exact missing (itemAt_of_recorded positive below (recorded j below) seen)

/-- Blocks of equal embeddings make a prefix of equal embeddings. -/
theorem Agrees.embedBytes (agrees : Agrees hashBlockSize first second i) :
    first.embedBytes 0 ((i + 1) * hashBlockSize) =
      second.embedBytes 0 ((i + 1) * hashBlockSize) := by
  have blocks := agrees.embeds
  unfold Request.embedBytes at blocks ⊢
  cases rows : first.promptEmbeds with
  | none =>
      rw [rows] at blocks
      cases others : second.promptEmbeds with
      | none => rfl
      | some _ =>
          rw [others] at blocks
          exact absurd (blocks 0 (Nat.succ_pos i)) nofun
  | some rows' =>
      rw [rows] at blocks
      cases others : second.promptEmbeds with
      | none =>
          rw [others] at blocks
          exact absurd (blocks 0 (Nat.succ_pos i)) nofun
      | some others' =>
          rw [others] at blocks
          have bytes : ∀ j < i + 1,
              ((rows'.take ((j + 1) * hashBlockSize)).drop (j * hashBlockSize)).flatMap id =
                ((others'.take ((j + 1) * hashBlockSize)).drop (j * hashBlockSize)).flatMap id := by
            intro j below
            rw [List.flatMap_id, List.flatMap_id]
            exact Option.some.inj (blocks j below)
          have joined := flatMap_take_eq_of_blocks id hashBlockSize (i + 1) bytes
          rw [List.flatMap_id, List.flatMap_id] at joined
          exact congrArg some joined

end

/-- A prompt of one block, with an adapter or with a salt. -/
def oneBlock (loraRequest : Option LoRARequest) (cacheSalt : Option String) :
    Request SymbolicHash :=
  { requestId := "block"
    loraRequest := loraRequest
    cacheSalt := cacheSalt
    promptTokenIds := some [1, 2, 3, 4]
    numPromptTokens := 4
    allTokenIds := [1, 2, 3, 4] }

end Injective

end Request

end Vllm.Core
