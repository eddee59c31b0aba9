import Vllm.Library.Heap

/-!
# The order of a binary heap

Every entry of a heap is at most as small as its parent.  The operations of `Heap`
keep this, and `heapify` establishes it, for any comparison that is a strict order
with transitive incomparability on the entries.

`Heaped start` asks for the order only where the parent is at `start` or behind it.
A sift carries one entry that may be out of order with its neighbours: with both
its parent and its children while it sinks, with its parent only while it rises.
-/

namespace Vllm.Library

universe u

namespace Heap

variable {α : Type u} {lt : α → α → Bool} {among : α → Prop}

/-- The comparison orders the entries. -/
structure Ranked (lt : α → α → Bool) (among : α → Prop) : Prop where
  asymm : ∀ first second, among first → among second → lt first second = true →
    lt second first = false
  trans : ∀ first second third, among first → among second → among third →
    lt second first = false → lt third second = false → lt third first = false

variable {entry item : α} {start pos childPos : Nat} {heap : List α}

theorem Ranked.irrefl (ranked : Ranked lt among) (inside : among entry) :
    lt entry entry = false := by
  cases less : lt entry entry with
  | false => rfl
  | true => exact less.symm.trans (ranked.asymm entry entry inside inside less)

/-- The entry at `child` is not smaller than that at `parent`, if both are there. -/
def InOrder (lt : α → α → Bool) (heap : List α) (parent child : Nat) : Prop :=
  ∀ above below, heap[parent]? = some above → heap[child]? = some below → lt below above = false

/-- The order of a heap, as far as the parents from `start` on are concerned. -/
def Heaped (lt : α → α → Bool) (start : Nat) (heap : List α) : Prop :=
  ∀ child, 0 < child → start ≤ (child - 1) / 2 → InOrder lt heap ((child - 1) / 2) child

/-- The positions under `start`, itself included. -/
inductive Under (start : Nat) : Nat → Prop
  | root : Under start start
  | child {pos : Nat} (positive : 0 < pos) (under : Under start ((pos - 1) / 2)) :
      Under start pos

theorem Under.le (under : Under start pos) : start ≤ pos := by
  induction under with
  | root => exact Nat.le_refl start
  | child positive _ ih => omega

/-- A position under `start` is `start` or has its parent under `start`. -/
theorem Under.parent (under : Under start pos) (differ : pos ≠ start) :
    0 < pos ∧ Under start ((pos - 1) / 2) := by
  cases under with
  | root => contradiction
  | child positive under => exact ⟨positive, under⟩

theorem under_zero (pos : Nat) : Under 0 pos := by
  induction pos using Nat.strongRecOn with
  | ind pos ih =>
      by_cases zero : pos = 0
      · rw [zero]
        exact .root
      · exact .child (by omega) (ih _ (by omega))

theorem getElem?_swap {other : Nat} {another : α} (here : heap[pos]? = some item)
    (there : heap[other]? = some another) (index : Nat) :
    (heap.swap pos other)[index]? =
      if index = pos then some another else if index = other then some item else heap[index]? := by
  rcases List.getElem?_eq_some_iff.mp here with ⟨inside, rfl⟩
  rcases List.getElem?_eq_some_iff.mp there with ⟨otherInside, rfl⟩
  rw [List.swap_eq_of_lt inside otherInside]
  by_cases same : index = pos
  · subst same
    rw [if_pos rfl, List.getElem?_set]
    split
    · rename_i equal
      subst equal
      simp [inside]
    · simp [inside]
  · rw [if_neg same, List.getElem?_set]
    split
    · rename_i equal
      subst equal
      simp [otherInside]
    · rename_i differ
      rw [if_neg (Ne.symm differ), List.getElem?_set_ne (Ne.symm same)]

/-! ## Rising -/

/-- Only the pair of the entry at `pos` and its parent may be out of order; the
children of `pos` may go under its parent. -/
structure Rising (lt : α → α → Bool) (start pos : Nat) (heap : List α) : Prop where
  except : ∀ child, 0 < child → child ≠ pos → start ≤ (child - 1) / 2 →
    InOrder lt heap ((child - 1) / 2) child
  grand : pos ≠ start → ∀ child, 0 < child → (child - 1) / 2 = pos →
    InOrder lt heap ((pos - 1) / 2) child

theorem Rising.finish (rising : Rising lt start pos heap)
    (settled : 0 < pos → start ≤ (pos - 1) / 2 → InOrder lt heap ((pos - 1) / 2) pos) :
    Heaped lt start heap := by
  intro child positive behind
  by_cases here : child = pos
  · rw [here] at positive behind ⊢
    exact settled positive behind
  · exact rising.except child positive here behind

/-- An entry that is smaller than its parent changes places with it. -/
theorem Rising.swap (ranked : Ranked lt among) (inside : ∀ entry ∈ heap, among entry)
    (rising : Rising lt start pos heap) (under : Under start pos) (differ : pos ≠ start)
    {parent : α} (here : heap[pos]? = some item) (above : heap[(pos - 1) / 2]? = some parent)
    (less : lt item parent = true) :
    Rising lt start ((pos - 1) / 2) (heap.swap pos ((pos - 1) / 2)) := by
  rcases under.parent differ with ⟨positive, parentUnder⟩
  have behind := parentUnder.le
  have amongItem := inside item (List.mem_of_getElem? here)
  have amongParent := inside parent (List.mem_of_getElem? above)
  have below := ranked.asymm item parent amongItem amongParent less
  have lookup := getElem?_swap here above
  constructor
  · intro child childPositive elsewhere childBehind upper lower atUpper atLower
    rw [lookup] at atUpper atLower
    rw [if_neg elsewhere] at atLower
    by_cases childHere : child = pos
    · -- The old parent under the risen entry.
      rw [if_pos childHere] at atLower
      rw [childHere, if_neg (by omega), if_pos rfl] at atUpper
      cases atUpper
      cases atLower
      exact below
    · rw [if_neg childHere] at atLower
      have amongLower := inside lower (List.mem_of_getElem? atLower)
      by_cases underHere : (child - 1) / 2 = pos
      · -- A child of the position under the old parent.
        rw [if_pos underHere] at atUpper
        cases atUpper
        exact rising.grand differ child childPositive underHere parent lower above atLower
      · rw [if_neg underHere] at atUpper
        by_cases sibling : (child - 1) / 2 = (pos - 1) / 2
        · rw [if_pos sibling] at atUpper
          cases atUpper
          have ordered := rising.except child childPositive childHere childBehind parent lower
            (sibling ▸ above) atLower
          exact ranked.trans item parent lower amongItem amongParent amongLower below ordered
        · rw [if_neg sibling] at atUpper
          exact rising.except child childPositive childHere childBehind upper lower atUpper
            atLower
  · intro notRoot child childPositive childUnder upper lower atUpper atLower
    rcases parentUnder.parent notRoot with ⟨parentPositive, grandUnder⟩
    have grandBehind := grandUnder.le
    rw [lookup] at atUpper atLower
    rw [if_neg (by omega), if_neg (by omega)] at atUpper
    have upperParent := rising.except ((pos - 1) / 2) parentPositive (by omega) grandBehind upper
      parent atUpper above
    by_cases childHere : child = pos
    · rw [if_pos childHere] at atLower
      cases atLower
      exact upperParent
    · rw [if_neg childHere, if_neg (by omega)] at atLower
      have ordered := rising.except child childPositive childHere (childUnder ▸ behind) parent
        lower (childUnder ▸ above) atLower
      exact ranked.trans upper parent lower (inside upper (List.mem_of_getElem? atUpper))
        amongParent (inside lower (List.mem_of_getElem? atLower)) upperParent ordered

theorem siftDown_heaped (ranked : Ranked lt among) {fuel : Nat}
    (inside : ∀ entry ∈ heap, among entry) (rising : Rising lt start pos heap)
    (under : Under start pos) (enough : pos ≤ fuel) :
    Heaped lt start (siftDown lt start fuel pos heap) := by
  induction fuel generalizing pos heap with
  | zero =>
      exact rising.finish fun positive => absurd enough (by omega)
  | succ fuel ih =>
      rw [siftDown]
      split
      · exact rising.finish fun positive behind => by omega
      · rename_i behindStart
        have differ : pos ≠ start := by omega
        dsimp only
        split
        · rename_i item parent here above
          split
          · rename_i less
            have swapped := rising.swap ranked inside under differ here above less
            apply ih ?_ swapped (under.parent differ).2 (by omega)
            exact fun entry member => inside entry ((List.swap_perm ..).mem_iff.mp member)
          · rename_i notLess
            apply rising.finish
            intro _ _ upper lower atUpper atLower
            rw [here] at atLower
            rw [above] at atUpper
            cases atUpper
            cases atLower
            exact eq_false_of_ne_true notLess
        · rename_i missing
          apply rising.finish
          intro _ _ upper lower atUpper atLower
          exact absurd atUpper (missing lower upper atLower)

/-! ## Sinking -/

/-- The pairs of the entry at `pos` with its neighbours may be out of order; the
children of `pos` may go under its parent. -/
structure Sinking (lt : α → α → Bool) (start pos : Nat) (heap : List α) : Prop where
  except : ∀ child, 0 < child → child ≠ pos → (child - 1) / 2 ≠ pos →
    start ≤ (child - 1) / 2 → InOrder lt heap ((child - 1) / 2) child
  grand : pos ≠ start → ∀ child, 0 < child → (child - 1) / 2 = pos →
    InOrder lt heap ((pos - 1) / 2) child

/-- At a leaf there are no children left to be out of order with. -/
theorem Sinking.rising (sinking : Sinking lt start pos heap) (leaf : heap.length ≤ 2 * pos + 1) :
    Rising lt start pos heap := by
  have missing : ∀ child, 0 < child → (child - 1) / 2 = pos → heap[child]? = none := by
    intro child positive under
    rw [List.getElem?_eq_none_iff]
    omega
  constructor
  · intro child positive elsewhere behind upper lower atUpper atLower
    by_cases under : (child - 1) / 2 = pos
    · rw [missing child positive under] at atLower
      contradiction
    · exact sinking.except child positive elsewhere under behind upper lower atUpper atLower
  · intro differ child positive under upper lower atUpper atLower
    rw [missing child positive under] at atLower
    contradiction

/-- The smaller child is a child, and not larger than any other. -/
theorem smallerChild_spec (ranked : Ranked lt among) (inside : ∀ entry ∈ heap, among entry)
    (found : smallerChild lt pos heap = some childPos) :
    0 < childPos ∧ (childPos - 1) / 2 = pos ∧ ∃ smaller, heap[childPos]? = some smaller ∧
      ∀ child lower, 0 < child → (child - 1) / 2 = pos → heap[child]? = some lower →
        lt lower smaller = false := by
  have either : ∀ child, 0 < child → (child - 1) / 2 = pos →
      child = 2 * pos + 1 ∨ child = 2 * pos + 1 + 1 := by
    intro child positive under
    omega
  unfold smallerChild at found
  dsimp only at found
  split at found
  · contradiction
  · rename_i left hasLeft noRight
    cases found
    refine ⟨by omega, by omega, left, hasLeft, ?_⟩
    intro child lower positive under atChild
    rcases either child positive under with rfl | rfl
    · rw [hasLeft] at atChild
      cases atChild
      exact ranked.irrefl (inside left (List.mem_of_getElem? hasLeft))
    · rw [noRight] at atChild
      contradiction
  · rename_i left right hasLeft hasRight
    have amongLeft := inside left (List.mem_of_getElem? hasLeft)
    have amongRight := inside right (List.mem_of_getElem? hasRight)
    split at found
    · rename_i less
      cases found
      refine ⟨by omega, by omega, left, hasLeft, ?_⟩
      intro child lower positive under atChild
      rcases either child positive under with rfl | rfl
      · rw [hasLeft] at atChild
        cases atChild
        exact ranked.irrefl amongLeft
      · rw [hasRight] at atChild
        cases atChild
        exact ranked.asymm left right amongLeft amongRight less
    · rename_i notLess
      cases found
      refine ⟨by omega, by omega, right, hasRight, ?_⟩
      intro child lower positive under atChild
      rcases either child positive under with rfl | rfl
      · rw [hasLeft] at atChild
        cases atChild
        exact eq_false_of_ne_true notLess
      · rw [hasRight] at atChild
        cases atChild
        exact ranked.irrefl amongRight

/-- The sinking entry changes places with its smaller child. -/
theorem Sinking.swap (sinking : Sinking lt start pos heap) (under : Under start pos) {smaller : α}
    (here : heap[pos]? = some item) (positive : 0 < childPos) (isChild : (childPos - 1) / 2 = pos)
    (there : heap[childPos]? = some smaller)
    (least : ∀ child lower, 0 < child → (child - 1) / 2 = pos → heap[child]? = some lower →
      lt lower smaller = false) : Sinking lt start childPos (heap.swap pos childPos) := by
  have behind := under.le
  have lookup := getElem?_swap here there
  constructor
  · intro child childPositive elsewhere notUnder childBehind upper lower atUpper atLower
    rw [lookup] at atUpper atLower
    rw [if_neg notUnder] at atUpper
    rw [if_neg elsewhere] at atLower
    by_cases childHere : child = pos
    · -- The smaller child under the parent of the position.
      rw [if_pos childHere] at atLower
      rw [childHere, if_neg (by omega)] at atUpper
      cases atLower
      have notRoot : pos ≠ start := by omega
      exact sinking.grand notRoot childPos positive isChild upper smaller atUpper there
    · rw [if_neg childHere] at atLower
      by_cases sibling : (child - 1) / 2 = pos
      · rw [if_pos sibling] at atUpper
        cases atUpper
        exact least child lower childPositive sibling atLower
      · rw [if_neg sibling] at atUpper
        exact sinking.except child childPositive childHere sibling childBehind upper lower atUpper
          atLower
  · intro _ child childPositive childUnder upper lower atUpper atLower
    rw [lookup] at atUpper atLower
    rw [isChild, if_pos rfl] at atUpper
    rw [if_neg (by omega), if_neg (by omega)] at atLower
    cases atUpper
    exact sinking.except child childPositive (by omega) (by omega) (by omega) smaller lower
      (childUnder ▸ there) atLower

theorem sinkToLeaf_rising (ranked : Ranked lt among) {start fuel pos : Nat} {heap : List α}
    (inside : ∀ entry ∈ heap, among entry) (sinking : Sinking lt start pos heap)
    (under : Under start pos) (enough : heap.length ≤ fuel + pos) :
    Rising lt start (sinkToLeaf lt fuel pos heap).1 (sinkToLeaf lt fuel pos heap).2 ∧
      Under start (sinkToLeaf lt fuel pos heap).1 := by
  induction fuel generalizing pos heap with
  | zero =>
      exact ⟨sinking.rising (by omega), under⟩
  | succ fuel ih =>
      rw [sinkToLeaf]
      split
      · rename_i none
        refine ⟨sinking.rising ?_, under⟩
        unfold smallerChild at none
        dsimp only at none
        split at none
        · rename_i missing
          exact List.getElem?_eq_none_iff.mp missing
        · contradiction
        · contradiction
      · rename_i childPos found
        rcases smallerChild_spec ranked inside found with
          ⟨positive, isChild, smaller, there, least⟩
        have bound := (List.getElem?_eq_some_iff.mp there).1
        have here := List.getElem?_eq_getElem (show pos < heap.length by omega)
        apply ih
        · exact fun entry member => inside entry ((List.swap_perm ..).mem_iff.mp member)
        · exact sinking.swap under here positive isChild there least
        · exact .child positive (isChild ▸ under)
        · rw [List.length_swap]
          omega

/-- Sifting a position puts it in order, if everything behind it is. -/
theorem siftUp_heaped (ranked : Ranked lt among) (inside : ∀ entry ∈ heap, among entry)
    (behind : Heaped lt (pos + 1) heap) : Heaped lt pos (siftUp lt pos heap) := by
  have sinking : Sinking lt pos pos heap := by
    constructor
    · intro child positive _ notUnder start
      exact behind child positive (by omega)
    · exact fun differ => absurd rfl differ
  rcases @sinkToLeaf_rising _ _ _ ranked _ heap.length _ _ inside sinking .root (by omega) with
    ⟨rising, under⟩
  apply siftDown_heaped ranked ?_ rising under (Nat.le_refl _)
  exact fun entry member => inside entry ((sinkToLeaf_perm ..).mem_iff.mp member)

/-! ## The operations -/

/-- The root is the smallest entry. -/
theorem Heaped.root_least (ranked : Ranked lt among) (inside : ∀ entry ∈ heap, among entry)
    (heaped : Heaped lt 0 heap) {root : α} (first : heap.head? = some root)
    (member : entry ∈ heap) :
    lt entry root = false := by
  rw [List.head?_eq_getElem?] at first
  have amongRoot := inside root (List.mem_of_getElem? first)
  have least : ∀ (pos : Nat) below, heap[pos]? = some below → lt below root = false := by
    intro pos
    induction pos using Nat.strongRecOn with
    | ind pos ih =>
        intro below atPos
        by_cases zero : pos = 0
        · rw [zero, first] at atPos
          cases atPos
          exact ranked.irrefl amongRoot
        · have bound := (List.getElem?_eq_some_iff.mp atPos).1
          have above := List.getElem?_eq_getElem (show (pos - 1) / 2 < heap.length by omega)
          have ordered := heaped pos (by omega) (Nat.zero_le _) _ below above atPos
          exact ranked.trans root _ below amongRoot (inside _ (List.mem_of_getElem? above))
            (inside below (List.mem_of_getElem? atPos)) (ih _ (by omega) _ above) ordered
  rcases List.mem_iff_getElem?.mp member with ⟨pos, atPos⟩
  exact least pos entry atPos

theorem push_heaped (ranked : Ranked lt among) (inside : ∀ entry ∈ heap, among entry)
    (insideItem : among item) (heaped : Heaped lt 0 heap) : Heaped lt 0 (push lt heap item) := by
  apply siftDown_heaped ranked ?_ ?_ (under_zero _) (Nat.le_refl _)
  · intro entry member
    rcases List.mem_append.mp member with earlier | last
    · exact inside entry earlier
    · rw [List.mem_singleton.mp last]
      exact insideItem
  · constructor
    · intro child positive elsewhere behind upper lower atUpper atLower
      have bound := (List.getElem?_eq_some_iff.mp atLower).1
      rw [List.length_append, List.length_singleton] at bound
      rw [List.getElem?_append_left (by omega)] at atUpper atLower
      exact heaped child positive behind upper lower atUpper atLower
    · intro _ child positive under upper lower atUpper atLower
      have bound := (List.getElem?_eq_some_iff.mp atLower).1
      rw [List.length_append, List.length_singleton] at bound
      omega

theorem pushAll_heaped (ranked : Ranked lt among) {items : List α}
    (inside : ∀ entry ∈ heap, among entry) (insideItems : ∀ item ∈ items, among item)
    (heaped : Heaped lt 0 heap) : Heaped lt 0 (items.foldl (push lt) heap) := by
  induction items generalizing heap with
  | nil => exact heaped
  | cons item rest ih =>
      have insideItem := insideItems item List.mem_cons_self
      apply ih ?_ (fun other member => insideItems other (List.mem_cons_of_mem _ member))
        (push_heaped ranked inside insideItem heaped)
      intro entry member
      rcases List.mem_cons.mp ((push_perm ..).mem_iff.mp member) with rfl | earlier
      · exact insideItem
      · exact inside entry earlier

theorem heaped_of_short (short : heap.length ≤ 2 * start + 1) : Heaped lt start heap := by
  intro child positive behind upper lower atUpper atLower
  have bound := (List.getElem?_eq_some_iff.mp atLower).1
  omega

theorem pop_heaped (ranked : Ranked lt among) {rest : List α} (inside : ∀ entry ∈ heap, among entry)
    (heaped : Heaped lt 0 heap) (popped : pop lt heap = some (item, rest)) : Heaped lt 0 rest := by
  match heap with
  | [] => contradiction
  | [_] =>
      cases popped
      exact heaped_of_short (by simp)
  | root :: second :: entries =>
      have replaced : ∀ (pos : Nat) entry, 0 < pos →
          ((second :: entries).getLastD second :: (second :: entries).dropLast)[pos]? =
            some entry →
          (root :: second :: entries)[pos]? = some entry := by
        intro pos entry positive found
        match pos with
        | pos + 1 =>
            rw [List.getElem?_cons_succ, List.getElem?_dropLast] at found
            split at found
            · exact found
            · contradiction
      have same := perm_of_pop lt popped
      cases popped
      apply siftUp_heaped ranked
      · intro entry member
        have sifted := (siftUp_perm lt 0 _).mem_iff.mpr member
        exact inside entry (same.mem_iff.mp (List.mem_cons_of_mem _ sifted))
      · intro child positive behind upper lower atUpper atLower
        exact heaped child positive (Nat.zero_le _) upper lower
          (replaced _ upper (by omega) atUpper) (replaced _ lower (by omega) atLower)

/-- Sifting the positions before `count`, the last one first. -/
theorem siftAll_heaped (ranked : Ranked lt among) {count : Nat}
    (inside : ∀ entry ∈ heap, among entry) (behind : Heaped lt count heap) :
    Heaped lt 0 ((List.range count).reverse.foldl (fun heap pos => siftUp lt pos heap) heap) := by
  induction count generalizing heap with
  | zero => exact behind
  | succ count ih =>
      rw [List.range_succ, List.reverse_append, List.reverse_singleton, List.singleton_append,
        List.foldl_cons]
      apply ih ?_ (siftUp_heaped ranked inside behind)
      exact fun entry member => inside entry ((siftUp_perm ..).mem_iff.mp member)

/-- `heapify` puts every entry in order. -/
theorem heapify_heaped (ranked : Ranked lt among) (inside : ∀ entry ∈ heap, among entry) :
    Heaped lt 0 (heapify lt heap) :=
  siftAll_heaped ranked inside (heaped_of_short (by omega))

/-- Another comparison that agrees on the entries. -/
theorem Heaped.congr {other : α → α → Bool} (heaped : Heaped lt start heap)
    (agree : ∀ first ∈ heap, ∀ second ∈ heap, other first second = lt first second) :
    Heaped other start heap := by
  intro child positive behind upper lower atUpper atLower
  rw [agree lower (List.mem_of_getElem? atLower) upper (List.mem_of_getElem? atUpper)]
  exact heaped child positive behind upper lower atUpper atLower

end Heap

end Vllm.Library
