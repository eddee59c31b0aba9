import Mathlib.Data.List.Nodup

/-!
# Keys placed by their state

Keys have a state or none, and two containers hold them: the active keys and the
idle ones.  `Placed` says that every contained key stands in the right container
and in no other place, and that keys are not lost, except for those on a list of
loose keys, which are on their way from one place to another.

Under `strict` no key in an idle state is lost; without it only the active ones
are accounted for.
-/

namespace Vllm.Library

universe u v

variable {κ : Type u} {σ : Type v}

/-- The keys stand in the containers that fit their states. -/
structure Placed (isActive isIdle : σ → Prop) (strict : Prop) (state : κ → Option σ)
    (active idle loose : List κ) : Prop where
  distinct : (active ++ idle).Nodup
  activeFit : ∀ key ∈ active, ∃ value, state key = some value ∧ isActive value
  idleFit : ∀ key ∈ idle, ∃ value, state key = some value ∧ isIdle value
  keepsActive : ∀ key value, state key = some value → isActive value → key ∈ active ∨ key ∈ loose
  keepsIdle : strict → ∀ key value, state key = some value → isIdle value →
    key ∈ idle ∨ key ∈ loose

namespace Placed

variable {isActive isIdle : σ → Prop} {strict : Prop} {state state' : κ → Option σ}
  {active active' idle idle' loose : List κ} {key : κ}

theorem congr (placed : Placed isActive isIdle strict state active idle loose)
    (same : ∀ key, state' key = state key) :
    Placed isActive isIdle strict state' active idle loose := by
  have equal : state' = state := funext same
  rw [equal]
  exact placed

/-- The order in the containers is irrelevant. -/
theorem perm (placed : Placed isActive isIdle strict state active idle loose)
    (sameActive : active'.Perm active) (sameIdle : idle'.Perm idle) :
    Placed isActive isIdle strict state active' idle' loose where
  distinct := (sameActive.append sameIdle).nodup_iff.mpr placed.distinct
  activeFit := fun key member => placed.activeFit key (sameActive.subset member)
  idleFit := fun key member => placed.idleFit key (sameIdle.subset member)
  keepsActive := fun key value found isActive =>
    (placed.keepsActive key value found isActive).imp_left (sameActive.symm.subset ·)
  keepsIdle := fun strict key value found isIdle =>
    (placed.keepsIdle strict key value found isIdle).imp_left (sameIdle.symm.subset ·)

section Container

variable {fits : σ → Prop} {keys keys' : List κ}

/-- The keys of a container fit as long as their states are left alone. -/
theorem fit_of_others (fit : ∀ other ∈ keys, ∃ value, state other = some value ∧ fits value)
    (absent : key ∉ keys) (others : ∀ other, other ≠ key → state' other = state other) :
    ∀ other ∈ keys, ∃ value, state' other = some value ∧ fits value := by
  intro other member
  rw [others other (fun same => absent (same ▸ member))]
  exact fit other member

/-- A container keeps its keys when a loose key leaves or comes in. -/
theorem keeps_of_others
    (keeps : ∀ other value, state other = some value → fits value →
      other ∈ keys ∨ other ∈ key :: loose)
    (others : ∀ other, other ≠ key → state' other = state other) (grows : keys ⊆ keys')
    (own : ∀ value, state' key = some value → fits value → key ∈ keys') :
    ∀ other value, state' other = some value → fits value → other ∈ keys' ∨ other ∈ loose := by
  intro other value found fit
  by_cases here : other = key
  · exact .inl (here ▸ own value (here ▸ found) fit)
  · rw [others other here] at found
    rcases keeps other value found fit with kept | free
    · exact .inl (grows kept)
    · exact .inr (List.mem_of_ne_of_mem here free)

/-- A container gives a key away. -/
theorem keeps_tail
    (keeps : ∀ other value, state other = some value → fits value →
      other ∈ key :: keys ∨ other ∈ loose) :
    ∀ other value, state other = some value → fits value → other ∈ keys ∨ other ∈ key :: loose := by
  intro other value found fit
  rcases keeps other value found fit with kept | free
  · rcases List.mem_cons.mp kept with rfl | kept
    · exact .inr List.mem_cons_self
    · exact .inl kept
  · exact .inr (List.mem_cons_of_mem _ free)

end Container

/-- A loose key may take any state that fits no container; without `strict` it may
also be lost in an idle state. -/
theorem settle (placed : Placed isActive isIdle strict state active idle (key :: loose))
    (notActive : key ∉ active) (notIdle : key ∉ idle)
    (others : ∀ other, other ≠ key → state' other = state other)
    (settled : ∀ value, state' key = some value →
      ¬isActive value ∧ (strict → ¬isIdle value)) :
    Placed isActive isIdle strict state' active idle loose where
  distinct := placed.distinct
  activeFit := fit_of_others placed.activeFit notActive others
  idleFit := fit_of_others placed.idleFit notIdle others
  keepsActive := keeps_of_others placed.keepsActive others (List.Subset.refl _)
    fun value found isActive => absurd isActive (settled value found).1
  keepsIdle := fun strict => keeps_of_others (placed.keepsIdle strict) others
    (List.Subset.refl _) fun value found isIdle => absurd isIdle ((settled value found).2 strict)

variable {value : σ}

/-- A loose key joins the active ones. -/
theorem attachActive (placed : Placed isActive isIdle strict state active idle (key :: loose))
    (exclusive : ∀ value, isActive value → ¬isIdle value) (notActive : key ∉ active)
    (notIdle : key ∉ idle) (others : ∀ other, other ≠ key → state' other = state other)
    (found : state' key = some value) (becomes : isActive value) :
    Placed isActive isIdle strict state' (key :: active) idle loose where
  distinct := by
    rw [List.cons_append, List.nodup_cons, List.mem_append]
    exact ⟨fun member => member.elim notActive notIdle, placed.distinct⟩
  activeFit := List.forall_mem_cons.mpr
    ⟨⟨value, found, becomes⟩, fit_of_others placed.activeFit notActive others⟩
  idleFit := fit_of_others placed.idleFit notIdle others
  keepsActive := keeps_of_others placed.keepsActive others (List.subset_cons_self ..)
    fun _ _ _ => List.mem_cons_self
  keepsIdle := fun strict => keeps_of_others (placed.keepsIdle strict) others
    (List.Subset.refl _) fun stored present isIdle => by
      cases found.symm.trans present
      exact absurd isIdle (exclusive value becomes)

/-- A loose key joins the idle ones. -/
theorem attachIdle (placed : Placed isActive isIdle strict state active idle (key :: loose))
    (exclusive : ∀ value, isActive value → ¬isIdle value) (notActive : key ∉ active)
    (notIdle : key ∉ idle) (others : ∀ other, other ≠ key → state' other = state other)
    (found : state' key = some value) (becomes : isIdle value) :
    Placed isActive isIdle strict state' active (key :: idle) loose where
  distinct := by
    rw [List.perm_middle.nodup_iff, List.nodup_cons, List.mem_append]
    exact ⟨fun member => member.elim notActive notIdle, placed.distinct⟩
  activeFit := fit_of_others placed.activeFit notActive others
  idleFit := List.forall_mem_cons.mpr
    ⟨⟨value, found, becomes⟩, fit_of_others placed.idleFit notIdle others⟩
  keepsActive := keeps_of_others placed.keepsActive others (List.Subset.refl _)
    fun stored present isActive => by
      cases found.symm.trans present
      exact absurd becomes (exclusive value isActive)
  keepsIdle := fun strict => keeps_of_others (placed.keepsIdle strict) others
    (List.subset_cons_self ..) fun _ _ _ => List.mem_cons_self

/-- An active key comes loose. -/
theorem detachActive (placed : Placed isActive isIdle strict state (key :: active) idle loose) :
    Placed isActive isIdle strict state active idle (key :: loose) ∧ key ∉ active ∧ key ∉ idle := by
  have distinct := placed.distinct
  rw [List.cons_append, List.nodup_cons, List.mem_append, not_or] at distinct
  refine ⟨⟨distinct.2, ?_, placed.idleFit, ?_, ?_⟩, distinct.1.1, distinct.1.2⟩
  · exact fun other member => placed.activeFit other (List.mem_cons_of_mem _ member)
  · exact keeps_tail placed.keepsActive
  · intro strict other value found isIdle
    exact (placed.keepsIdle strict other value found isIdle).imp_right (List.mem_cons_of_mem _)

/-- An idle key comes loose. -/
theorem detachIdle (placed : Placed isActive isIdle strict state active (key :: idle) loose) :
    Placed isActive isIdle strict state active idle (key :: loose) ∧ key ∉ active ∧ key ∉ idle := by
  have distinct := placed.distinct
  rw [List.perm_middle.nodup_iff, List.nodup_cons, List.mem_append, not_or] at distinct
  refine ⟨⟨distinct.2, placed.activeFit, ?_, ?_, ?_⟩, distinct.1.1, distinct.1.2⟩
  · exact fun other member => placed.idleFit other (List.mem_cons_of_mem _ member)
  · intro other value found isActive
    exact (placed.keepsActive other value found isActive).imp_right (List.mem_cons_of_mem _)
  · exact fun strict => keeps_tail (placed.keepsIdle strict)

/-- More keys may be called loose. -/
theorem loosen (placed : Placed isActive isIdle strict state active idle loose) (key : κ) :
    Placed isActive isIdle strict state active idle (key :: loose) where
  distinct := placed.distinct
  activeFit := placed.activeFit
  idleFit := placed.idleFit
  keepsActive := fun other value found isActive =>
    (placed.keepsActive other value found isActive).imp_right (List.mem_cons_of_mem _)
  keepsIdle := fun strict other value found isIdle =>
    (placed.keepsIdle strict other value found isIdle).imp_right (List.mem_cons_of_mem _)

/-- Keys come loose, wherever they stand. -/
theorem detachAll [DecidableEq κ] (placed : Placed isActive isIdle strict state active idle loose)
    (keys : List κ) :
    Placed isActive isIdle strict state (active.filter (· ∉ keys)) (idle.filter (· ∉ keys))
      (keys ++ loose) where
  distinct := by
    rw [← List.filter_append]
    exact placed.distinct.filter _
  activeFit := fun other member => placed.activeFit other (List.mem_of_mem_filter member)
  idleFit := fun other member => placed.idleFit other (List.mem_of_mem_filter member)
  keepsActive := by
    intro other value found isActive
    by_cases gone : other ∈ keys
    · exact .inr (List.mem_append_left _ gone)
    · rcases placed.keepsActive other value found isActive with kept | free
      · exact .inl (List.mem_filter.mpr ⟨kept, decide_eq_true gone⟩)
      · exact .inr (List.mem_append_right _ free)
  keepsIdle := by
    intro strict other value found isIdle
    by_cases gone : other ∈ keys
    · exact .inr (List.mem_append_left _ gone)
    · rcases placed.keepsIdle strict other value found isIdle with kept | free
      · exact .inl (List.mem_filter.mpr ⟨kept, decide_eq_true gone⟩)
      · exact .inr (List.mem_append_right _ free)

/-- A key comes loose, wherever it stands. -/
theorem detach [DecidableEq κ] (placed : Placed isActive isIdle strict state active idle loose)
    (key : κ) :
    Placed isActive isIdle strict state (active.filter (· ≠ key)) (idle.filter (· ≠ key))
      (key :: loose) := by
  simpa using placed.detachAll [key]

/-- An idle key takes another idle state. -/
theorem restate (placed : Placed isActive isIdle strict state active idle loose)
    (exclusive : ∀ value, isActive value → ¬isIdle value)
    (others : ∀ other, other ≠ key → state' other = state other) {value' : σ}
    (before : state key = some value) (wasIdle : isIdle value) (after : state' key = some value')
    (becomes : isIdle value') :
    Placed isActive isIdle strict state' active idle loose where
  distinct := placed.distinct
  activeFit := by
    intro other member
    rcases placed.activeFit other member with ⟨stored, found, fits⟩
    by_cases here : other = key
    · rw [here, before] at found
      cases found
      exact absurd wasIdle (exclusive value fits)
    · exact ⟨stored, (others other here).trans found, fits⟩
  idleFit := by
    intro other member
    by_cases here : other = key
    · exact ⟨value', here ▸ after, becomes⟩
    · rw [others other here]
      exact placed.idleFit other member
  keepsActive := by
    intro other stored found isActive
    by_cases here : other = key
    · rw [here, after] at found
      cases found
      exact absurd becomes (exclusive value' isActive)
    · exact placed.keepsActive other stored ((others other here).symm.trans found) isActive
  keepsIdle := by
    intro strict other stored found isIdle
    by_cases here : other = key
    · exact here ▸ placed.keepsIdle strict key value before wasIdle
    · exact placed.keepsIdle strict other stored ((others other here).symm.trans found) isIdle

end Placed

end Vllm.Library
