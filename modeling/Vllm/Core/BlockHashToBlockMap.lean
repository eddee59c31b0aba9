import Vllm.Core.BlockHash
import Vllm.Core.FreeKVCacheBlockQueue
import Vllm.Library.Dict

/-!
# The prefix-cache index

`BlockHashToBlockMap` maps a hash key to one block or, once two blocks carry the
same content, to an inner dictionary of blocks.  The inner dictionary is never
empty: the last block leaves together with its key.  The representation is
hidden behind `contain`; the lemmas below say how each operation changes it.
-/

namespace Vllm.Core

open Vllm.Library

/-- The union-typed value of the index. -/
inductive CachedBlocks where
  | one (block : BlockId)
  | many (blocks : Dict BlockId Unit) (nonempty : blocks.entries ≠ [])

namespace CachedBlocks

/-- Whether `block` is among the cached blocks. -/
def holds (block : BlockId) : CachedBlocks → Bool
  | one only => only = block
  | many blocks _ => blocks.contains block

/-- The block itself, or the first one of the inner dictionary. -/
def first : CachedBlocks → BlockId
  | one only => only
  | many blocks nonempty => (blocks.entries.head nonempty).1

end CachedBlocks

/-- `BlockHashToBlockMap`. -/
structure BlockHashToBlockMap (H : Type) where
  cache : Dict (BlockHashWithGroupId H) CachedBlocks

namespace BlockHashToBlockMap

variable {H : Type} [DecidableEq H]

/-- The index of a fresh pool. -/
def empty : BlockHashToBlockMap H :=
  ⟨Dict.empty⟩

/-- `get_one_block`. -/
def getOneBlock (map : BlockHashToBlockMap H) (key : BlockHashWithGroupId H) :
    Option BlockId :=
  (map.cache.get? key).map CachedBlocks.first

/-- `contain`. -/
def contain (map : BlockHashToBlockMap H) (key : BlockHashWithGroupId H)
    (block : BlockId) : Bool :=
  match map.cache.get? key with
  | none => false
  | some blocks => blocks.holds block

private theorem insert_entries_ne_nil {κ ν : Type} [DecidableEq κ] (dict : Dict κ ν)
    (key : κ) (value : ν) : (dict.insert key value).entries ≠ [] := by
  intro empty
  have found := dict.get?_insert_self key value
  rw [Dict.get?_eq_some_iff, empty] at found
  exact absurd found (by simp)

/-- `insert`. -/
def insert (map : BlockHashToBlockMap H) (key : BlockHashWithGroupId H)
    (block : BlockId) : BlockHashToBlockMap H :=
  match map.cache.get? key with
  | none => ⟨map.cache.insert key (.one block)⟩
  | some (.one only) =>
      ⟨map.cache.insert key (.many (((Dict.empty).insert only ()).insert block ())
        (insert_entries_ne_nil _ _ _))⟩
  | some (.many blocks _) =>
      ⟨map.cache.insert key (.many (blocks.insert block ()) (insert_entries_ne_nil _ _ _))⟩

/-- `pop`: the popped block, if it was there, and the remaining index. -/
def pop (map : BlockHashToBlockMap H) (key : BlockHashWithGroupId H) (block : BlockId) :
    Option BlockId × BlockHashToBlockMap H :=
  let popped := map.cache.erase key
  match map.cache.get? key with
  | none => (none, ⟨popped⟩)
  | some (.one only) =>
      if only = block then (some only, ⟨popped⟩)
      -- A different block is put back.
      else (none, ⟨popped.insert key (.one only)⟩)
  | some (.many blocks _) =>
      let found := if blocks.contains block then some block else none
      let rest := blocks.erase block
      if nonempty : rest.entries ≠ [] then (found, ⟨popped.insert key (.many rest nonempty)⟩)
      else (found, ⟨popped⟩)

/-! ## Containment after each operation -/

@[simp]
theorem contain_empty (key : BlockHashWithGroupId H) (block : BlockId) :
    (empty : BlockHashToBlockMap H).contain key block = false :=
  rfl

variable {map : BlockHashToBlockMap H} {key : BlockHashWithGroupId H}

private theorem contain_of_get {blocks : CachedBlocks} (stored : map.cache.get? key = some blocks)
    (block : BlockId) : map.contain key block = blocks.holds block := by
  simp [contain, stored]

/-- Writing a value under a key decides containment there and nowhere else. -/
private theorem contain_mk_insert (cache : Dict (BlockHashWithGroupId H) CachedBlocks)
    (key other : BlockHashWithGroupId H) (blocks : CachedBlocks) (block : BlockId) :
    contain ⟨cache.insert key blocks⟩ other block =
      if key = other then blocks.holds block else contain ⟨cache⟩ other block := by
  by_cases same : key = other <;> simp [contain, Dict.get?_insert, same]

private theorem contain_mk_erase (cache : Dict (BlockHashWithGroupId H) CachedBlocks)
    (key other : BlockHashWithGroupId H) (block : BlockId) :
    contain ⟨cache.erase key⟩ other block =
      if key = other then false else contain ⟨cache⟩ other block := by
  by_cases same : key = other <;> simp [contain, Dict.get?_erase, same]

theorem contain_insert (map : BlockHashToBlockMap H) (key other : BlockHashWithGroupId H)
    (block target : BlockId) :
    (map.insert key block).contain other target = true ↔
      (key = other ∧ block = target) ∨ map.contain other target = true := by
  by_cases same : key = other
  · subst same
    cases stored : map.cache.get? key with
    | none =>
        have absent : map.contain key target = false := by simp [contain, stored]
        simp only [insert, stored]
        rw [contain_mk_insert, if_pos rfl, absent]
        simp [CachedBlocks.holds]
    | some blocks =>
        rw [contain_of_get stored]
        cases blocks with
        | one only =>
            simp only [insert, stored]
            rw [contain_mk_insert, if_pos rfl]
            by_cases here : block = target <;> by_cases there : only = target <;>
              simp [CachedBlocks.holds, Dict.contains, Dict.get?_insert, here, there]
        | many blocks nonempty =>
            simp only [insert, stored]
            rw [contain_mk_insert, if_pos rfl]
            by_cases here : block = target <;>
              simp [CachedBlocks.holds, Dict.contains, Dict.get?_insert, here]
  · have frame : (map.insert key block).contain other target = map.contain other target := by
      unfold insert
      split <;> rw [contain_mk_insert, if_neg same]
    simp [frame, same]

omit [DecidableEq H] in
/-- Membership in what is left of an inner dictionary after removing a block. -/
private theorem contains_erase (blocks : Dict BlockId Unit) (block target : BlockId) :
    (blocks.erase block).contains target = true ↔
      blocks.contains target = true ∧ block ≠ target := by
  by_cases same : block = target <;> simp [Dict.contains, Dict.get?_erase, same]

/-- At the popped key itself, only the popped block goes. -/
private theorem contain_pop_self (map : BlockHashToBlockMap H) (key : BlockHashWithGroupId H)
    (block target : BlockId) :
    (map.pop key block).2.contain key target = true ↔
      map.contain key target = true ∧ block ≠ target := by
  cases stored : map.cache.get? key with
  | none =>
      have absent : map.contain key target = false := by simp [contain, stored]
      simp only [pop, stored]
      rw [contain_mk_erase, if_pos rfl, absent]
      simp
  | some blocks =>
      rw [contain_of_get stored]
      cases blocks with
      | one only =>
          by_cases equal : only = block
          · subst equal
            simp only [pop, stored, if_true]
            rw [contain_mk_erase, if_pos rfl]
            simp [CachedBlocks.holds]
          · simp only [pop, stored, equal, if_false]
            rw [contain_mk_insert, if_pos rfl]
            simp only [CachedBlocks.holds, decide_eq_true_eq]
            constructor
            · rintro rfl
              exact ⟨rfl, fun here => equal here.symm⟩
            · exact fun both => both.1
      | many blocks nonempty =>
          have shape := contains_erase blocks block target
          by_cases rest : (blocks.erase block).entries ≠ []
          · simp only [pop, stored]
            rw [dif_pos rest, contain_mk_insert, if_pos rfl]
            exact shape
          · have gone : (blocks.erase block).contains target = false := by
              rw [ne_eq, not_not] at rest
              simp [Dict.contains, Dict.get?, Dict.lookupEntries, rest]
            simp only [pop, stored]
            rw [dif_neg rest, contain_mk_erase, if_pos rfl]
            rw [gone] at shape
            exact shape

theorem contain_pop (map : BlockHashToBlockMap H) (key other : BlockHashWithGroupId H)
    (block target : BlockId) :
    (map.pop key block).2.contain other target = true ↔
      map.contain other target = true ∧ ¬ (key = other ∧ block = target) := by
  by_cases same : key = other
  · subst same
    simp [contain_pop_self]
  · have frame : (map.pop key block).2.contain other target = map.contain other target := by
      unfold pop
      split
      · rw [contain_mk_erase, if_neg same]
      · split <;> simp only [contain_mk_insert, contain_mk_erase, if_neg same]
      · dsimp only
        split <;> simp only [contain_mk_insert, contain_mk_erase, if_neg same]
    simp [frame, same]

/-- `pop` returns the block exactly when it was cached under the key. -/
theorem pop_fst (map : BlockHashToBlockMap H) (key : BlockHashWithGroupId H) (block : BlockId) :
    (map.pop key block).1 = if map.contain key block then some block else none := by
  cases stored : map.cache.get? key with
  | none => simp [pop, stored, contain]
  | some blocks =>
      cases blocks with
      | one only =>
          by_cases equal : only = block <;>
            simp [pop, stored, contain, CachedBlocks.holds, equal]
      | many blocks nonempty =>
          simp only [pop, stored, contain, CachedBlocks.holds]
          split <;> rfl

/-! ## Lookup -/

private theorem holds_first (blocks : CachedBlocks) : blocks.holds blocks.first = true := by
  cases blocks with
  | one only => simp [CachedBlocks.holds, CachedBlocks.first]
  | many blocks nonempty =>
      have found := (blocks.get?_eq_some_iff (blocks.entries.head nonempty).1 ()).mpr
        (List.head_mem nonempty)
      simp [CachedBlocks.holds, CachedBlocks.first, Dict.contains, found]

theorem contain_of_getOneBlock {block : BlockId} (found : map.getOneBlock key = some block) :
    map.contain key block = true := by
  obtain ⟨blocks, stored, rfl⟩ := Option.map_eq_some_iff.mp found
  simp [contain, stored, holds_first]

end BlockHashToBlockMap

end Vllm.Core
