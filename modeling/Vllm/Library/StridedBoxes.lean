import Mathlib.Algebra.BigOperators.Group.List.Basic
import Mathlib.Algebra.GroupWithZero.Nat
import Mathlib.Data.List.Nodup

/-!
# Strided boxes

A box of cells is addressed by one stride for each axis.  When the stride of every
axis has room for the box that the axes inside it span, different indices have
different addresses, and all of them lie below the extent of the box.
-/

namespace Vllm.Library

universe u

variable {ι : Type u} {stride stride' size index index' : ι → Nat} {axes outer tail : List ι}
variable {inner extent cell cell' : Nat}

/-- The address of a cell relative to the corner of the box. -/
def address (stride index : ι → Nat) (axes : List ι) : Nat :=
  (axes.map fun axis => index axis * stride axis).sum

/-- The axes, outermost first, span `extent` over cells of `inner` addresses. -/
inductive Packs (stride size : ι → Nat) (inner : Nat) : List ι → Nat → Prop
  | nil : Packs stride size inner [] inner
  | cons {axis : ι} {axes : List ι} {extent : Nat} (packed : Packs stride size inner axes extent)
      (room : extent ≤ stride axis) :
      Packs stride size inner (axis :: axes) (stride axis * size axis)

theorem address_cons (axis : ι) :
    address stride index (axis :: axes) = index axis * stride axis + address stride index axes := by
  simp [address]

theorem address_append :
    address stride index (outer ++ tail) =
      address stride index outer + address stride index tail := by
  simp [address]

theorem address_perm (same : axes.Perm outer) :
    address stride index axes = address stride index outer :=
  (same.map _).sum_eq

theorem address_zero : address stride (fun _ => 0) axes = 0 := by
  induction axes with
  | nil => rfl
  | cons axis axes inductionHypothesis => rw [address_cons, inductionHypothesis, Nat.zero_mul]

theorem Packs.congr (packed : Packs stride size inner axes extent)
    (same : ∀ axis ∈ axes, stride' axis = stride axis) : Packs stride' size inner axes extent := by
  induction packed with
  | nil => exact .nil
  | cons packed room inductionHypothesis =>
      rw [← same _ List.mem_cons_self] at room ⊢
      exact .cons (inductionHypothesis fun axis member => same axis (.tail _ member)) room

/-- Two numbers in base `stride` agree only if their digits do. -/
theorem digits_eq {base high low high' low' : Nat} (fits : low < base) (fits' : low' < base)
    (same : high * base + low = high' * base + low') : high = high' ∧ low = low' := by
  have positive : 0 < base := Nat.zero_lt_of_lt fits
  have digit : high = high' := by
    have first := Nat.add_mul_div_right low high positive
    have second := Nat.add_mul_div_right low' high' positive
    rw [Nat.div_eq_of_lt fits, Nat.zero_add] at first
    rw [Nat.div_eq_of_lt fits', Nat.zero_add] at second
    rw [← first, ← second, Nat.add_comm low, Nat.add_comm low', same]
  subst digit
  exact ⟨rfl, Nat.add_left_cancel same⟩

/-- Every cell of the box lies below its extent. -/
theorem Packs.address_lt (packed : Packs stride size inner axes extent)
    (inside : ∀ axis ∈ axes, index axis < size axis) (within : cell < inner) :
    address stride index axes + cell < extent := by
  induction packed with
  | nil => simpa [address] using within
  | @cons axis axes extent packed room inductionHypothesis =>
      have below := inductionHypothesis fun axis member => inside axis (.tail _ member)
      rw [address_cons, Nat.mul_comm (stride axis)]
      calc index axis * stride axis + address stride index axes + cell
          < index axis * stride axis + stride axis := by omega
        _ = (index axis + 1) * stride axis := (Nat.succ_mul _ _).symm
        _ ≤ size axis * stride axis := Nat.mul_le_mul_right _ (inside axis List.mem_cons_self)

/-- Different cells have different addresses. -/
theorem Packs.address_injective (packed : Packs stride size inner axes extent)
    (inside : ∀ axis ∈ axes, index axis < size axis)
    (inside' : ∀ axis ∈ axes, index' axis < size axis) (within : cell < inner)
    (within' : cell' < inner)
    (same : address stride index axes + cell = address stride index' axes + cell') :
    (∀ axis ∈ axes, index axis = index' axis) ∧ cell = cell' := by
  induction packed with
  | nil => exact ⟨nofun, by simpa [address] using same⟩
  | @cons axis axes extent packed room inductionHypothesis =>
      have insideTail (axis : ι) (member : axis ∈ axes) := inside axis (.tail _ member)
      have insideTail' (axis : ι) (member : axis ∈ axes) := inside' axis (.tail _ member)
      have below := packed.address_lt insideTail within
      have below' := packed.address_lt insideTail' within'
      rw [address_cons, address_cons, Nat.add_assoc, Nat.add_assoc] at same
      rcases digits_eq (Nat.lt_of_lt_of_le below room) (Nat.lt_of_lt_of_le below' room) same with
        ⟨digit, same⟩
      rcases inductionHypothesis insideTail insideTail' same with ⟨digits, cells⟩
      refine ⟨?_, cells⟩
      rintro other (_ | ⟨_, member⟩)
      · exact digit
      · exact digits other member

theorem Packs.append {middle : Nat} (packed : Packs stride size inner tail middle)
    (rest : Packs stride size middle outer extent) :
    Packs stride size inner (outer ++ tail) extent := by
  induction rest with
  | nil => exact packed
  | cons _ room inductionHypothesis => exact .cons inductionHypothesis room

end Vllm.Library
