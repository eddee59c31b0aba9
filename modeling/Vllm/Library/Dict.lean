import Mathlib.Algebra.BigOperators.Group.List.Basic
import Mathlib.Algebra.GroupWithZero.Nat
import Mathlib.Data.List.Nodup

/-!
# Insertion-ordered dictionaries

A dictionary is a list of key-value entries whose keys are pairwise distinct;
the distinctness is a field, so a malformed dictionary cannot be built.
Overwriting a key keeps the key's position and a new key goes to the end, which
is the iteration order that programs written against such dictionaries observe.

Clients reason through `get?` (what a key maps to) and through `sumOn` (a
weight accumulated over all the entries); the entry list itself is only
unfolded in this module.
-/

namespace Vllm.Library

universe u v

/-- A finite map with distinct keys, kept in insertion order. -/
structure Dict (κ : Type u) (ν : Type v) where
  entries : List (κ × ν)
  nodupKeys : (entries.map Prod.fst).Nodup

namespace Dict

variable {κ : Type u} {ν : Type v} [DecidableEq κ]

/-- The empty dictionary. -/
def empty : Dict κ ν :=
  ⟨[], List.nodup_nil⟩

/-- First value stored under `key` in a raw entry list. -/
def lookupEntries (key : κ) : List (κ × ν) → Option ν
  | [] => none
  | entry :: rest => if entry.1 = key then some entry.2 else lookupEntries key rest

/-- Overwrite `key` in place, or append it. -/
def insertEntries (key : κ) (value : ν) : List (κ × ν) → List (κ × ν)
  | [] => [(key, value)]
  | entry :: rest =>
      if entry.1 = key then (key, value) :: rest
      else entry :: insertEntries key value rest

variable {entries : List (κ × ν)} {key other : κ} {dict : Dict κ ν}

variable {entry : κ × ν}

omit [DecidableEq κ] in
private theorem fst_mem_of_mem (member : entry ∈ entries) :
    entry.1 ∈ entries.map Prod.fst :=
  List.mem_map_of_mem member

theorem mem_keys_insertEntries (key other : κ) (value : ν) (entries : List (κ × ν)) :
    other ∈ (insertEntries key value entries).map Prod.fst ↔
      other = key ∨ other ∈ entries.map Prod.fst := by
  induction entries with
  | nil => simp [insertEntries]
  | cons entry rest ih =>
      by_cases equal : entry.1 = key
      · simp [insertEntries, equal]
      · rw [insertEntries, if_neg equal, List.map_cons, List.mem_cons, ih,
          List.map_cons, List.mem_cons]
        tauto

theorem nodup_insertEntries (key : κ) (value : ν) (nodup : (entries.map Prod.fst).Nodup) :
    ((insertEntries key value entries).map Prod.fst).Nodup := by
  induction entries with
  | nil => simp [insertEntries]
  | cons entry rest ih =>
      rw [List.map_cons, List.nodup_cons] at nodup
      by_cases equal : entry.1 = key
      · rw [insertEntries, if_pos equal, List.map_cons, List.nodup_cons]
        exact ⟨equal ▸ nodup.1, nodup.2⟩
      · rw [insertEntries, if_neg equal, List.map_cons, List.nodup_cons, mem_keys_insertEntries]
        exact ⟨fun member => member.elim equal nodup.1, ih nodup.2⟩

/-- The value stored under `key`, if any. -/
def get? (dict : Dict κ ν) (key : κ) : Option ν :=
  lookupEntries key dict.entries

/-- The value stored under `key`, or a default. -/
def getD (dict : Dict κ ν) (key : κ) (default : ν) : ν :=
  (dict.get? key).getD default

/-- Whether `key` is present. -/
def contains (dict : Dict κ ν) (key : κ) : Bool :=
  (dict.get? key).isSome

/-- Store `value` under `key`. -/
def insert (dict : Dict κ ν) (key : κ) (value : ν) : Dict κ ν :=
  ⟨insertEntries key value dict.entries, nodup_insertEntries key value dict.nodupKeys⟩

/-- Remove `key`. -/
def erase (dict : Dict κ ν) (key : κ) : Dict κ ν where
  entries := dict.entries.filter fun entry => entry.1 ≠ key
  nodupKeys := dict.nodupKeys.sublist (List.filter_sublist.map _)

section

omit [DecidableEq κ]

/-- The keys in insertion order. -/
def keys (dict : Dict κ ν) : List κ :=
  dict.entries.map Prod.fst

/-- The oldest entry. -/
def first? (dict : Dict κ ν) : Option (κ × ν) :=
  dict.entries.head?

/-- The number of keys. -/
def size (dict : Dict κ ν) : Nat :=
  dict.entries.length

/-- A weight accumulated over all the entries. -/
def sumOn (dict : Dict κ ν) (weight : κ → ν → Nat) : Nat :=
  (dict.entries.map fun entry => weight entry.1 entry.2).sum

end

/-! ## Reading after writing -/

theorem lookupEntries_insertEntries (key other : κ) (value : ν) (entries : List (κ × ν)) :
    lookupEntries other (insertEntries key value entries) =
      if key = other then some value else lookupEntries other entries := by
  induction entries with
  | nil => simp [insertEntries, lookupEntries]
  | cons entry rest ih =>
      by_cases equal : entry.1 = key
      · rw [insertEntries, if_pos equal]
        by_cases same : key = other <;> simp [lookupEntries, same, equal]
      · rw [insertEntries, if_neg equal]
        by_cases here : entry.1 = other
        · have differ : key ≠ other := fun same => equal (here.trans same.symm)
          simp [lookupEntries, here, differ]
        · simp [lookupEntries, here, ih]

theorem lookupEntries_filter (key other : κ) (entries : List (κ × ν)) :
    lookupEntries other (entries.filter fun entry => entry.1 ≠ key) =
      if key = other then none else lookupEntries other entries := by
  induction entries with
  | nil => simp [lookupEntries]
  | cons entry rest ih =>
      by_cases equal : entry.1 = key
      · rw [List.filter_cons_of_neg (by simp [equal]), ih]
        by_cases same : key = other
        · simp [same]
        · have differ : entry.1 ≠ other := fun here => same (equal.symm.trans here)
          simp [same, lookupEntries, differ]
      · rw [List.filter_cons_of_pos (by simp [equal])]
        by_cases here : entry.1 = other
        · have differ : key ≠ other := fun same => equal (here.trans same.symm)
          simp [lookupEntries, here, differ]
        · simp only [lookupEntries, here, if_false, ih]

@[simp]
theorem get?_empty (key : κ) : (empty : Dict κ ν).get? key = none :=
  rfl

theorem get?_insert (dict : Dict κ ν) (key other : κ) (value : ν) :
    (dict.insert key value).get? other =
      if key = other then some value else dict.get? other :=
  lookupEntries_insertEntries key other value dict.entries

@[simp]
theorem get?_insert_self (dict : Dict κ ν) (key : κ) (value : ν) :
    (dict.insert key value).get? key = some value := by
  simp [get?_insert]

theorem get?_insert_of_ne (dict : Dict κ ν) (value : ν) (differ : key ≠ other) :
    (dict.insert key value).get? other = dict.get? other := by
  simp [get?_insert, differ]

variable {value : ν}

/-- Storing what is stored changes nothing. -/
theorem insert_get? (found : dict.get? key = some value) : dict.insert key value = dict := by
  rcases dict with ⟨entries, nodup⟩
  change lookupEntries key entries = some value at found
  have same : insertEntries key value entries = entries := by
    clear nodup
    induction entries with
    | nil => cases found
    | cons entry rest ih =>
        by_cases equal : entry.1 = key
        · rw [lookupEntries, if_pos equal] at found
          rw [insertEntries, if_pos equal, ← equal, ← Option.some.inj found]
        · rw [lookupEntries, if_neg equal] at found
          rw [insertEntries, if_neg equal, ih found]
  simp only [insert, same]

theorem get?_erase (dict : Dict κ ν) (key other : κ) :
    (dict.erase key).get? other = if key = other then none else dict.get? other :=
  lookupEntries_filter key other dict.entries

@[simp]
theorem get?_erase_self (dict : Dict κ ν) (key : κ) : (dict.erase key).get? key = none := by
  simp [get?_erase]

theorem get?_erase_of_ne (dict : Dict κ ν) (differ : key ≠ other) :
    (dict.erase key).get? other = dict.get? other := by
  simp [get?_erase, differ]

@[simp]
theorem getD_empty (key : κ) (default : ν) : (empty : Dict κ ν).getD key default = default :=
  rfl

@[simp]
theorem getD_insert_self (dict : Dict κ ν) (key : κ) (value default : ν) :
    (dict.insert key value).getD key default = value := by
  simp [getD]

theorem getD_insert_of_ne (dict : Dict κ ν) (value default : ν) (differ : key ≠ other) :
    (dict.insert key value).getD other default = dict.getD other default := by
  simp [getD, get?_insert_of_ne _ _ differ]

@[simp]
theorem getD_erase_self (dict : Dict κ ν) (key : κ) (default : ν) :
    (dict.erase key).getD key default = default := by
  simp [getD]

theorem getD_erase_of_ne (dict : Dict κ ν) (default : ν) (differ : key ≠ other) :
    (dict.erase key).getD other default = dict.getD other default := by
  simp [getD, get?_erase_of_ne _ differ]

/-- A key reads `value` exactly when the pair is an entry. -/
theorem get?_eq_some_iff (dict : Dict κ ν) (key : κ) (value : ν) :
    dict.get? key = some value ↔ (key, value) ∈ dict.entries := by
  rcases dict with ⟨entries, nodup⟩
  change lookupEntries key entries = some value ↔ _
  induction entries with
  | nil => simp [lookupEntries]
  | cons entry rest ih =>
      rw [List.map_cons, List.nodup_cons] at nodup
      by_cases equal : entry.1 = key
      · have absent : (key, value) ∉ rest := fun member =>
          nodup.1 (equal ▸ fst_mem_of_mem member)
        have shape : (key, value) = entry ↔ entry.2 = value := by
          rw [Prod.ext_iff]
          simp [equal, eq_comm]
        simp [lookupEntries, equal, shape, absent]
      · have differ : (key, value) ≠ entry := fun same =>
          equal (congrArg Prod.fst same).symm
        simp [lookupEntries, equal, ih nodup.2, differ]

theorem get?_eq_none_iff (dict : Dict κ ν) (key : κ) : dict.get? key = none ↔ key ∉ dict.keys := by
  constructor
  · intro absent member
    obtain ⟨entry, entryMem, rfl⟩ := List.mem_map.mp member
    have present := (dict.get?_eq_some_iff entry.1 entry.2).mpr entryMem
    rw [absent] at present
    contradiction
  · intro absent
    cases found : dict.get? key with
    | none => rfl
    | some value =>
        exact absurd (fst_mem_of_mem ((dict.get?_eq_some_iff key value).mp found)) absent

theorem mem_keys_insert : other ∈ (dict.insert key value).keys ↔ other = key ∨ other ∈ dict.keys :=
  mem_keys_insertEntries key other value dict.entries

theorem mem_keys_erase : other ∈ (dict.erase key).keys ↔ other ≠ key ∧ other ∈ dict.keys := by
  have present : ∀ dict : Dict κ ν, other ∈ dict.keys ↔ dict.get? other ≠ none := by
    intro dict
    rw [ne_eq, get?_eq_none_iff, not_not]
  rw [present, present, get?_erase]
  split
  · rename_i same
    simp [same]
  · rename_i differ
    simp [Ne.symm differ]

theorem get?_of_first? (first : dict.first? = some entry) :
    dict.get? entry.1 = some entry.2 := by
  rw [get?_eq_some_iff]
  exact List.mem_of_head? first

omit [DecidableEq κ] in
theorem sumOn_of_first?_none (exhausted : dict.first? = none) (weight : κ → ν → Nat) :
    dict.sumOn weight = 0 := by
  unfold first? at exhausted
  rw [sumOn, List.head?_eq_none_iff.mp exhausted]
  rfl

/-! ## Accumulated weights -/

theorem sum_insertEntries (weight : κ → ν → Nat) (key : κ) (value : ν) (entries : List (κ × ν)) :
    ((insertEntries key value entries).map fun entry => weight entry.1 entry.2).sum +
        ((lookupEntries key entries).map (weight key)).getD 0 =
      (entries.map fun entry => weight entry.1 entry.2).sum + weight key value := by
  induction entries with
  | nil => simp [insertEntries, lookupEntries]
  | cons entry rest ih =>
      by_cases equal : entry.1 = key
      · simp only [insertEntries, lookupEntries, equal, if_true, List.map_cons,
          List.sum_cons, Option.map_some, Option.getD_some]
        omega
      · simp only [insertEntries, lookupEntries, equal, if_false, List.map_cons, List.sum_cons]
        omega

theorem sum_filter_ne (weight : κ → ν → Nat) (key : κ) (nodup : (entries.map Prod.fst).Nodup) :
    ((entries.filter fun entry => entry.1 ≠ key).map
        fun entry => weight entry.1 entry.2).sum +
        ((lookupEntries key entries).map (weight key)).getD 0 =
      (entries.map fun entry => weight entry.1 entry.2).sum := by
  induction entries with
  | nil => simp [lookupEntries]
  | cons entry rest ih =>
      rw [List.map_cons, List.nodup_cons] at nodup
      have rest_eq := ih nodup.2
      by_cases equal : entry.1 = key
      · have absent : lookupEntries key rest = none :=
          (get?_eq_none_iff ⟨rest, nodup.2⟩ key).mpr (equal ▸ nodup.1)
        rw [absent] at rest_eq
        rw [List.filter_cons_of_neg (by simp [equal])]
        simp only [lookupEntries, equal, if_true, List.map_cons, List.sum_cons,
          Option.map_some, Option.getD_some]
        simp only [Option.map_none, Option.getD_none] at rest_eq
        omega
      · rw [List.filter_cons_of_pos (by simp [equal])]
        simp only [lookupEntries, equal, if_false, List.map_cons, List.sum_cons]
        omega

omit [DecidableEq κ] in
@[simp]
theorem sumOn_empty (weight : κ → ν → Nat) : (empty : Dict κ ν).sumOn weight = 0 :=
  rfl

/-- Overwriting replaces the weight of the old value by that of the new one. -/
theorem sumOn_insert (dict : Dict κ ν) (weight : κ → ν → Nat) (key : κ) (value : ν) :
    (dict.insert key value).sumOn weight +
        ((dict.get? key).map (weight key)).getD 0 = dict.sumOn weight + weight key value :=
  sum_insertEntries weight key value dict.entries

/-- Erasing removes the weight of the erased value. -/
theorem sumOn_erase (dict : Dict κ ν) (weight : κ → ν → Nat) (key : κ) :
    (dict.erase key).sumOn weight + ((dict.get? key).map (weight key)).getD 0 = dict.sumOn weight :=
  sum_filter_ne weight key dict.nodupKeys

omit [DecidableEq κ] in
theorem size_eq_sumOn (dict : Dict κ ν) : dict.size = dict.sumOn fun _ _ => 1 := by
  simp [size, sumOn]

/-- Erasing a key that is there leaves one key fewer. -/
theorem size_erase (found : dict.get? key = some value) :
    (dict.erase key).size + 1 = dict.size := by
  have weight := dict.sumOn_erase (fun _ _ => 1) key
  rw [found] at weight
  rw [size_eq_sumOn, size_eq_sumOn]
  exact weight

end Dict

end Vllm.Library
