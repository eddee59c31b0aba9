import Mathlib.Data.Int.CardIntervalMod
import Mathlib.Data.List.Perm.Basic
import Mathlib.Data.Nat.Count

/-!
# Strided slices

Taking every n-th element from each of the first n starts deals a list out into n hands
of nearly equal length.  Reading lists of one length row by row rearranges their
elements.
-/

namespace Vllm.Library

universe u

variable {α : Type u}

/-- `items[start::step]`. -/
def stridedSlice (start step : Nat) (items : List α) : List α :=
  (items.zipIdx.filter fun entry => start ≤ entry.2 ∧ (entry.2 - start) % step = 0).map Prod.fst

/-- `zip(*columns)`, which stops with the shortest column. -/
def zipRows (columns : List (List α)) : List (List α) :=
  (List.range ((columns.map List.length).min?.getD 0)).map fun row =>
    columns.filterMap (·[row]?)

/-- The classes of a list under a key with `n` values. -/
theorem classes_perm (key : α → Nat) (n : Nat) (items : List α)
    (bounded : ∀ item ∈ items, key item < n) :
    ((List.range n).flatMap fun value => items.filter fun item => key item = value).Perm items := by
  induction items with
  | nil => simp
  | cons item items inductionHypothesis =>
      have rest := inductionHypothesis fun item member => bounded item (.tail _ member)
      have split (value : Nat) : (item :: items).filter (fun item => key item = value) =
          (if key item = value then [item] else []) ++
            items.filter fun item => key item = value := by
        by_cases same : key item = value <;> simp [same]
      have first : (List.range n).flatMap (fun value => if key item = value then [item] else []) =
          [item] := by
        have inside := bounded item List.mem_cons_self
        clear rest split inductionHypothesis bounded
        induction n with
        | zero => omega
        | succ n inductionHypothesis =>
            rw [List.range_succ, List.flatMap_append, List.flatMap_singleton]
            rcases Nat.lt_succ_iff_lt_or_eq.mp inside with less | last
            · rw [inductionHypothesis less, if_neg (Nat.ne_of_lt less), List.append_nil]
            · rw [if_pos last, List.flatMap_eq_nil_iff.mpr, List.nil_append]
              intro value member
              rw [if_neg (by have := List.mem_range.mp member; omega)]
      simp only [split]
      apply (List.flatMap_append_perm _ _ _).symm.trans
      rw [first]
      exact rest.cons item

variable {start step : Nat}

theorem stridedSlice_eq (inside : start < step) (items : List α) :
    stridedSlice start step items =
      (items.zipIdx.filter fun entry => entry.2 % step = start).map Prod.fst := by
  unfold stridedSlice
  congr 2
  funext entry
  congr 1
  apply propext
  constructor
  · rintro ⟨later, multiple⟩
    rcases Nat.dvd_of_mod_eq_zero multiple with ⟨rounds, same⟩
    rw [show entry.2 = start + step * rounds by omega, Nat.add_mul_mod_self_left,
      Nat.mod_eq_of_lt inside]
  · rintro rfl
    exact ⟨Nat.mod_le _ _, Nat.sub_mod_eq_zero_of_mod_eq (Nat.mod_mod _ _).symm⟩

/-- The slices of all starts together are the list. -/
theorem stridedSlices_perm (positive : 0 < step) (items : List α) :
    ((List.range step).flatMap fun start => stridedSlice start step items).Perm items := by
  have dealt := (classes_perm (fun entry : α × Nat => entry.2 % step) step items.zipIdx
    fun _ _ => Nat.mod_lt _ positive).map Prod.fst
  rw [List.map_flatMap, List.zipIdx_map_fst] at dealt
  refine List.Perm.trans (List.Perm.of_eq ?_) dealt
  apply List.flatMap_congr
  intro start member
  rw [stridedSlice_eq (List.mem_range.mp member)]

/-- No slice is longer than its share. -/
theorem length_stridedSlice_le {share : Nat} (inside : start < step) {items : List α}
    (shared : items.length ≤ step * share) : (stridedSlice start step items).length ≤ share := by
  have counted (items : List α) :
      (items.zipIdx.filter fun entry => entry.2 % step = start).length =
        Nat.count (· ≡ start [MOD step]) items.length := by
    induction items using List.reverseRecOn with
    | nil => rfl
    | append_singleton items item inductionHypothesis =>
        rw [List.zipIdx_append, List.filter_append, List.length_append, inductionHypothesis,
          List.length_append, List.length_singleton, Nat.count_succ]
        by_cases same : items.length % step = start <;>
          simp [Nat.ModEq, Nat.mod_eq_of_lt inside, same]
  rw [stridedSlice_eq inside, List.length_map, counted,
    Nat.count_modEq_card _ (Nat.zero_lt_of_lt inside)]
  rcases Nat.lt_or_eq_of_le shared with less | whole
  · have rounds := Nat.div_lt_of_lt_mul less
    split <;> omega
  · rw [whole, Nat.mul_div_cancel_left _ (Nat.zero_lt_of_lt inside), Nat.mul_mod_right]
    simp

/-- Reading columns of one length row by row keeps their elements. -/
theorem zipRows_perm {length : Nat} {columns : List (List α)}
    (even : ∀ column ∈ columns, column.length = length) :
    (zipRows columns).flatten.Perm columns.flatten := by
  have read (column : List α) :
      (List.range column.length).flatMap (fun row => column[row]?.toList) = column := by
    induction column with
    | nil => rfl
    | cons item column inductionHypothesis =>
        rw [List.length_cons, List.range_succ_eq_map, List.flatMap_cons, List.flatMap_map]
        simpa using inductionHypothesis
  have dealt (columns : List (List α)) (even : ∀ column ∈ columns, column.length = length) :
      ((List.range length).flatMap fun row => columns.filterMap (·[row]?)).Perm
        columns.flatten := by
    induction columns with
    | nil => simp
    | cons column columns inductionHypothesis =>
        have rest := inductionHypothesis fun column member => even column (.tail _ member)
        have split (row : Nat) : (column :: columns).filterMap (·[row]?) =
            column[row]?.toList ++ columns.filterMap (·[row]?) := by
          rw [List.filterMap_cons]
          cases column[row]? <;> rfl
        have first := read column
        rw [even column List.mem_cons_self] at first
        simp only [split]
        apply (List.flatMap_append_perm _ _ _).symm.trans
        rw [first, List.flatten_cons]
        exact rest.append_left column
  have shortest : (columns.map List.length).min?.getD 0 = length ∨ columns = [] := by
    cases columns with
    | nil => exact .inr rfl
    | cons column columns =>
        left
        have found : ((column :: columns).map List.length).min? = some length := by
          apply List.min?_eq_some_iff.mpr
          constructor
          · exact List.mem_map.mpr ⟨column, List.mem_cons_self, even column List.mem_cons_self⟩
          · intro other member
            rcases List.mem_map.mp member with ⟨column, inside, rfl⟩
            exact Nat.le_of_eq (even column inside).symm
        rw [found]
        rfl
  rcases shortest with shortest | rfl
  · rw [zipRows, shortest]
    exact dealt columns even
  · exact .refl _

end Vllm.Library
