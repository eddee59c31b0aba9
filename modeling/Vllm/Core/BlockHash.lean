import Mathlib.Data.List.Induction
import Vllm.Core.Request

/-!
# Block hashes

Every full run of `hash_block_size` tokens of a request has a hash that chains
over the hash of the preceding run, so one hash identifies a whole prefix.  The
hash function itself comes from outside: the model takes it as the class
`BlockHashing`, together with the two other process-wide functions that hashes
and events go through.
-/

namespace Vllm.Core

/-- One entry of the `extra_keys` tuple: a LoRA name or a cache salt, a
multi-modal identifier with its offset from the block start, or the digest of
the block's prompt embeddings. -/
inductive ExtraKey where
  | text (value : String)
  | mmItem (identifier : String) (offset : Int)
  | digest (bytes : List UInt8)
  deriving DecidableEq, Repr

/-- What the hash function is applied to: the seed of `NONE_HASH`, or the triple
of parent hash, token ids and extra keys. -/
inductive HashInput (H : Type) where
  | seed (value : String)
  | block (parent : H) (tokenIds : List TokenId) (extraKeys : Option (List ExtraKey))
  deriving DecidableEq, Repr

/-- A block hash as external consumers of events see it. -/
inductive ExternalBlockHash (H : Type) where
  | bytes (hash : H)
  | int (value : Nat)
  deriving DecidableEq, Repr

/-- The process-wide hashing functions. -/
class BlockHashing (H : Type) where
  /-- `caching_hash_fn`. -/
  hashFunction : HashInput H → H
  /-- The seed `init_none_hash` resolved. -/
  noneHashSeed : String
  /-- `hashlib.sha256(..).digest()`, applied to prompt embeddings. -/
  sha256 : List UInt8 → List UInt8
  /-- `maybe_convert_block_hash`. -/
  maybeConvertBlockHash : H → ExternalBlockHash H

/-- Hashes as terms: every hash is its own preimage, so the hash function is
injective by construction.  Concrete runs of the model are evaluated over it. -/
inductive SymbolicHash where
  | seed (value : String)
  | block (parent : SymbolicHash) (tokenIds : List TokenId)
      (extraKeys : Option (List ExtraKey))
  deriving DecidableEq, Repr

instance : BlockHashing SymbolicHash where
  hashFunction
    | .seed value => .seed value
    | .block parent tokenIds extraKeys => .block parent tokenIds extraKeys
  noneHashSeed := "vllm-none-hash"
  sha256 bytes := bytes
  maybeConvertBlockHash := .bytes

theorem SymbolicHash.hashFunction_injective :
    Function.Injective (BlockHashing.hashFunction (H := SymbolicHash)) := by
  intro left right equal
  cases left <;> cases right <;> cases equal <;> rfl

section Hashing

variable {H : Type} [BlockHashing H]

/-- `NONE_HASH`, the parent of a first block. -/
def noneHash : H :=
  BlockHashing.hashFunction (.seed (BlockHashing.noneHashSeed H))

/-- The loop of `_gen_mm_extra_hash_keys` over the features from the cursor on;
`currMmIdx` is the cursor of the list's head. -/
def scanMmFeatures (startTokenIdx endTokenIdx : Nat) :
    List MultiModalFeatureSpec → Nat → List ExtraKey × Nat
  | [], currMmIdx => ([], currMmIdx)
  | feature :: rest, currMmIdx =>
      let offset := feature.mmPosition.offset
      let length := feature.mmPosition.length
      if endTokenIdx > offset then
        if startTokenIdx ≥ offset + length then
          -- The block has passed this item.
          scanMmFeatures startTokenIdx endTokenIdx rest (currMmIdx + 1)
        else
          let key := .mmItem feature.identifier ((offset : Int) - startTokenIdx)
          if endTokenIdx ≥ offset + length then
            let scanned := scanMmFeatures startTokenIdx endTokenIdx rest (currMmIdx + 1)
            (key :: scanned.1, scanned.2)
          else
            ([key], currMmIdx)
      else
        -- The block has not reached this item.
        ([], currMmIdx)

/-- `_gen_mm_extra_hash_keys`.  A negative cursor counts from the end; the
callers only ever pass `-1`, so the assertion on its range cannot fail. -/
def genMmExtraHashKeys (request : Request H) (startTokenIdx endTokenIdx : Nat)
    (startMmIdx : Int) : List ExtraKey × Int :=
  match request.mmFeatures.getLast? with
  | none => ([], startMmIdx)
  | some last =>
      if last.mmPosition.offset + last.mmPosition.length ≤ startTokenIdx then
        ([], startMmIdx)
      else
        let cursor :=
          if startMmIdx < 0 then (request.mmFeatures.length + startMmIdx).toNat
          else startMmIdx.toNat
        let scanned :=
          scanMmFeatures startTokenIdx endTokenIdx (request.mmFeatures.drop cursor) cursor
        (scanned.1, scanned.2)

/-- `_gen_lora_extra_hash_keys`. -/
def genLoraExtraHashKeys (request : Request H) : List ExtraKey :=
  match request.loraRequest with
  | none => []
  | some lora => [.text lora.loraName]

/-- The cache salt enters the first block only; an empty salt counts as none. -/
def genCacheSaltKeys (request : Request H) (startTokenIdx : Nat) : List ExtraKey :=
  match request.cacheSalt with
  | none => []
  | some salt => if startTokenIdx = 0 ∧ salt ≠ "" then [.text salt] else []

/-- `_gen_prompt_embeds_extra_hash_keys`.  The per-request memo table of digests
is left out: prompt embeddings never change, so it only saves time. -/
def genPromptEmbedsExtraHashKeys (request : Request H) (startTokenIdx endTokenIdx : Nat) :
    List ExtraKey :=
  match request.promptEmbeds with
  | none => []
  | some rows =>
      let slice := (rows.take endTokenIdx).drop startTokenIdx
      [.digest (BlockHashing.sha256 H slice.flatten)]

/-- `generate_block_hash_extra_keys`: the keys and the next cursor. -/
def generateBlockHashExtraKeys (request : Request H) (startTokenIdx endTokenIdx : Nat)
    (startMmIdx : Int) : Option (List ExtraKey) × Int :=
  let mm := genMmExtraHashKeys request startTokenIdx endTokenIdx startMmIdx
  let extraKeys :=
    genLoraExtraHashKeys request ++ mm.1 ++ genCacheSaltKeys request startTokenIdx ++
      genPromptEmbedsExtraHashKeys request startTokenIdx endTokenIdx
  if extraKeys.isEmpty then (none, mm.2) else (some extraKeys, mm.2)

/-- `hash_block_tokens`. -/
def hashBlockTokens (parentBlockHash : Option H) (tokenIds : List TokenId)
    (extraKeys : Option (List ExtraKey)) : H :=
  BlockHashing.hashFunction (.block (parentBlockHash.getD noneHash) tokenIds extraKeys)

/-- The `while` loop of `request_block_hasher`.  The start advances in every
round, so the number of tokens is enough fuel. -/
def requestBlockHasherLoop (hashBlockSize : Nat) (request : Request H) :
    Nat → Nat → Int → Option H → List H
  | 0, _, _, _ => []
  | fuel + 1, startTokenIdx, currMmIdx, prevBlockHash =>
      let endTokenIdx := startTokenIdx + hashBlockSize
      if endTokenIdx > request.numTokens then
        []
      else
        let extra := generateBlockHashExtraKeys request startTokenIdx endTokenIdx currMmIdx
        let blockTokens := (request.allTokenIds.take endTokenIdx).drop startTokenIdx
        let blockHash := hashBlockTokens prevBlockHash blockTokens extra.1
        blockHash ::
          requestBlockHasherLoop hashBlockSize request fuel endTokenIdx extra.2 (some blockHash)

/-- `request_block_hasher`: the hashes of the full blocks not hashed yet. -/
def requestBlockHasher (hashBlockSize : Nat) (request : Request H) : List H :=
  let startTokenIdx := request.blockHashes.length * hashBlockSize
  if startTokenIdx + hashBlockSize > request.numTokens then
    []
  else
    -- After the first block only the last multi-modal item is considered.
    let currMmIdx : Int := if startTokenIdx > 0 then -1 else 0
    requestBlockHasherLoop hashBlockSize request request.numTokens startTokenIdx currMmIdx
      request.blockHashes.getLast?

/-- `update_block_hashes`.  `hashBlockSize` is `none` when no block hasher was
given to the request. -/
def Request.updateBlockHashes (hashBlockSize : Option Nat) (request : Request H) : Request H :=
  match hashBlockSize with
  | none => request
  | some size =>
      { request with blockHashes := request.blockHashes ++ requestBlockHasher size request }

/-- `append_output_token_ids`. -/
def Request.appendOutputTokenIds (hashBlockSize : Option Nat) (request : Request H)
    (tokenIds : List TokenId) : Request H :=
  Request.updateBlockHashes hashBlockSize
    { request with
      outputTokenIds := request.outputTokenIds ++ tokenIds
      allTokenIds := request.allTokenIds ++ tokenIds }

end Hashing

/-! ## Keys of the prefix-cache index -/

/-- `BlockHashWithGroupId`.  The source packs the pair into one byte string of
which both parts can be recovered. -/
structure BlockHashWithGroupId (H : Type) where
  blockHash : H
  groupId : Nat
  deriving DecidableEq, Repr

instance instLawfulBEqKey {H : Type} [DecidableEq H] : LawfulBEq (BlockHashWithGroupId H) :=
  inferInstance

/-- `make_block_hash_with_group_id`. -/
def makeBlockHashWithGroupId {H : Type} (blockHash : H) (groupId : Nat) :
    BlockHashWithGroupId H :=
  ⟨blockHash, groupId⟩

/-- `BlockHashListWithBlockSize`, read off eagerly: entry `i` is the last hash
inside target block `i`. -/
def blockHashListWithBlockSize {H : Type} (blockHashes : List H) (scaleFactor : Nat) :
    List H :=
  (List.range (blockHashes.length / scaleFactor)).filterMap
    fun index => blockHashes[(index + 1) * scaleFactor - 1]?

/-- `resolve_block_hashes` for a raw hash list.  `alignmentTokens` is `some`
when the caller supports fine-grained lookup. -/
def resolveBlockHashes {H : Type} (blockHashes : List H) (hashBlockSize blockSize : Nat)
    (supportsFineGrainedHashLookup : Bool) (alignmentTokens : Option Nat) :
    Except PyError (List H) :=
  if blockSize = hashBlockSize then
    .ok blockHashes
  else
    match alignmentTokens with
    | some alignment =>
        if supportsFineGrainedHashLookup ∧ alignment < blockSize ∧
            blockSize % alignment = 0 then
          .ok blockHashes
        else do
          pyAssert (blockSize % hashBlockSize = 0)
          pure (blockHashListWithBlockSize blockHashes (blockSize / hashBlockSize))
    | none => do
        pyAssert (blockSize % hashBlockSize = 0)
        pure (blockHashListWithBlockSize blockHashes (blockSize / hashBlockSize))

end Vllm.Core

/-!
## Hash chains

A block hash is the hash of a chain of parts: the tokens and extra keys of each
run of `hash_block_size` tokens up to the end of the hashed one.  With an
injective hash function the chain can be read off its hash, so a hash stands for
one prefix, and in particular for one number of tokens.
-/

namespace Vllm.Core

variable {H : Type} [BlockHashing H]

/-- What one hash adds to its parent. -/
abbrev HashPart := List TokenId × Option (List ExtraKey)

/-- The hash of a chain. -/
def chainHash (parts : List HashPart) : H :=
  parts.foldl (fun parent part => BlockHashing.hashFunction (.block parent part.1 part.2)) noneHash

theorem chainHash_concat (parts : List HashPart) (part : HashPart) :
    (chainHash (parts ++ [part]) : H) =
      BlockHashing.hashFunction (.block (chainHash parts) part.1 part.2) := by
  unfold chainHash
  rw [List.foldl_append]
  rfl

/-- A chain is determined by its hash: the seed separates the empty chain from
the others, and each link gives back its parent and its part. -/
theorem chainHash_injective
    (injective : Function.Injective (BlockHashing.hashFunction : HashInput H → H)) :
    Function.Injective (chainHash : List HashPart → H) := by
  intro first
  induction first using List.reverseRecOn with
  | nil =>
      intro second equal
      induction second using List.reverseRecOn with
      | nil => rfl
      | append_singleton _ part _ =>
          rw [chainHash_concat] at equal
          have impossible := injective equal
          contradiction
  | append_singleton parts part ih =>
      intro second equal
      induction second using List.reverseRecOn with
      | nil =>
          rw [chainHash_concat] at equal
          have impossible := injective equal
          contradiction
      | append_singleton others other _ =>
          rw [chainHash_concat, chainHash_concat] at equal
          have same := injective equal
          simp only [HashInput.block.injEq] at same
          rcases same with ⟨parents, tokens, keys⟩
          rw [ih parents, Prod.ext tokens keys]

/-! ## Hashes of a request -/

namespace Request

/-- The first `count` parts of a request, with the given extra keys. -/
def hashParts (hashBlockSize : Nat) (request : Request H) (extraKeys : Nat → Option (List ExtraKey))
    (count : Nat) : List HashPart :=
  (List.range count).map fun i =>
    ((request.allTokenIds.take ((i + 1) * hashBlockSize)).drop (i * hashBlockSize), extraKeys i)

end Request

end Vllm.Core
