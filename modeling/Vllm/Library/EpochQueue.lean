import Mathlib.Algebra.BigOperators.Group.List.Basic
import Mathlib.Algebra.GroupWithZero.Nat

/-!
# Shares in flight

Work is handed out in shares that come back in order.  At any time everything in
flight may be declared stale.  Two counters are enough to tell whether a share
that comes back is stale: the size of everything in flight, and of what was in
flight when it was last declared stale.

A share is tagged with the epoch it was handed out in, and the epoch passes
whenever the shares in flight are declared stale.
-/

namespace Vllm.Library

/-- The size of some shares, each an epoch and a size. -/
def total (shares : List (Nat × Nat)) : Nat :=
  (shares.map Prod.snd).sum

@[simp]
theorem total_cons (share : Nat × Nat) (shares : List (Nat × Nat)) :
    total (share :: shares) = share.2 + total shares := by
  simp [total]

@[simp]
theorem total_append (first second : List (Nat × Nat)) :
    total (first ++ second) = total first + total second := by
  simp [total]

/-- The shares of the epochs that have passed. -/
def staleShares (epoch : Nat) (shares : List (Nat × Nat)) : List (Nat × Nat) :=
  shares.filter fun share => share.1 < epoch

/-- The counters describe the shares in flight, the oldest one first. -/
structure Tracks (shares : List (Nat × Nat)) (epoch : Nat) (pending stale : Int) : Prop where
  pending_eq : pending = total shares
  stale_eq : stale = total (staleShares epoch shares)
  ordered : shares.Pairwise fun first second => first.1 ≤ second.1
  bounded : ∀ share ∈ shares, share.1 ≤ epoch
  positive : ∀ share ∈ shares, 0 < share.2

namespace Tracks

variable {shares : List (Nat × Nat)} {epoch : Nat} {pending stale : Int}

theorem empty (epoch : Nat) : Tracks [] epoch 0 0 :=
  ⟨rfl, rfl, .nil, nofun, nofun⟩

theorem pending_nonneg (tracks : Tracks shares epoch pending stale) : 0 ≤ pending := by
  rw [tracks.pending_eq]
  exact Int.natCast_nonneg _

theorem stale_nonneg (tracks : Tracks shares epoch pending stale) : 0 ≤ stale := by
  rw [tracks.stale_eq]
  exact Int.natCast_nonneg _

/-- A new share belongs to the current epoch. -/
theorem handOut (tracks : Tracks shares epoch pending stale) {size : Nat} (positive : 0 < size) :
    Tracks (shares ++ [(epoch, size)]) epoch (pending + size) stale := by
  constructor
  · rw [tracks.pending_eq, total_append]
    simp [total]
  · rw [tracks.stale_eq, staleShares, staleShares, List.filter_append]
    simp
  · rw [List.pairwise_append]
    refine ⟨tracks.ordered, List.pairwise_singleton .., ?_⟩
    intro first earlier second last
    rw [List.mem_singleton.mp last]
    exact tracks.bounded first earlier
  · intro share member
    rcases List.mem_append.mp member with earlier | last
    · exact tracks.bounded share earlier
    · exact Nat.le_of_eq (congrArg Prod.fst (List.mem_singleton.mp last))
  · intro share member
    rcases List.mem_append.mp member with earlier | last
    · exact tracks.positive share earlier
    · rw [List.mem_singleton.mp last]
      exact positive

/-- Everything in flight is declared stale. -/
theorem declareStale (tracks : Tracks shares epoch pending stale) :
    Tracks shares (epoch + 1) pending pending := by
  constructor
  · exact tracks.pending_eq
  · have all : staleShares (epoch + 1) shares = shares := by
      rw [staleShares, List.filter_eq_self]
      intro share member
      exact decide_eq_true (Nat.lt_succ_of_le (tracks.bounded share member))
    rw [all]
    exact tracks.pending_eq
  · exact tracks.ordered
  · exact fun share member => Nat.le_succ_of_le (tracks.bounded share member)
  · exact tracks.positive

variable {share : Nat × Nat}

/-- Once a share of the current epoch is the oldest one, nothing in flight is
stale. -/
theorem staleShares_of_current (tracks : Tracks (share :: shares) epoch pending stale)
    (current : ¬share.1 < epoch) : staleShares epoch (share :: shares) = [] := by
  rw [staleShares, List.filter_eq_nil_iff]
  have ordered := List.pairwise_cons.mp tracks.ordered
  intro other member
  rcases List.mem_cons.mp member with rfl | later
  · simpa using current
  · have after := ordered.1 other later
    simp only [decide_eq_true_eq]
    omega

/-- The oldest share comes back: it is stale if and only if the stale counter is
positive. -/
theorem stale_pos_iff (tracks : Tracks (share :: shares) epoch pending stale) :
    0 < stale ↔ share.1 < epoch := by
  rw [tracks.stale_eq]
  constructor
  · intro positive
    by_contra current
    rw [tracks.staleShares_of_current current] at positive
    simp [total] at positive
  · intro passed
    have size := tracks.positive share List.mem_cons_self
    rw [staleShares, List.filter_cons_of_pos (by simpa using passed), total_cons]
    omega

/-- The oldest share comes back: both counters are drained by its size, the stale one
only if it is positive. -/
theorem comeBack (tracks : Tracks (share :: shares) epoch pending stale) :
    Tracks shares epoch (pending - share.2) (if 0 < stale then stale - share.2 else stale) := by
  constructor
  · rw [tracks.pending_eq, total_cons]
    push_cast
    exact add_sub_cancel_left _ _
  · split
    · rename_i positive
      have passed := tracks.stale_pos_iff.mp positive
      rw [tracks.stale_eq, staleShares, List.filter_cons_of_pos (by simpa using passed),
        total_cons, staleShares]
      push_cast
      exact add_sub_cancel_left _ _
    · rename_i drained
      have current := fun passed => drained (tracks.stale_pos_iff.mpr passed)
      rw [tracks.stale_eq, staleShares, staleShares,
        List.filter_cons_of_neg (by simpa using current)]
  · exact (List.pairwise_cons.mp tracks.ordered).2
  · exact fun other member => tracks.bounded other (List.mem_cons_of_mem _ member)
  · exact fun other member => tracks.positive other (List.mem_cons_of_mem _ member)

end Tracks

end Vllm.Library
