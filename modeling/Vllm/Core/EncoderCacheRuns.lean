import Vllm.Core.EncoderCacheManager

/-!
# Accounting of the encoder cache

Two counters, the cached entries and the freeable ones are kept in step: free
slots and cached entries fill the cache, freeable slots are the free ones and
those of the freeable entries, and an entry is freeable exactly when nobody
refers to it.  The size of an entry is a function of its hash.
-/

namespace Vllm.Core

open Vllm.Library

namespace EncoderCacheManager

/-- Counters and dictionaries agree. -/
structure Accounted (embeds : String → Nat) (manager : EncoderCacheManager) : Prop where
  free : manager.numFreeSlots + (manager.cached.sumOn fun mmHash _ => embeds mmHash) =
    manager.cacheSize
  freeable : manager.numFreeableSlots =
    manager.numFreeSlots + (manager.freeable.sumOn fun _ numEmbeds => numEmbeds)
  unreferenced : ∀ mmHash numEmbeds, manager.freeable.get? mmHash = some numEmbeds ↔
    manager.cached.get? mmHash = some [] ∧ numEmbeds = embeds mmHash

section Accounted

variable {embeds : String → Nat} {manager : EncoderCacheManager}

theorem init_accounted (cacheSize : Nat) : Accounted embeds (init cacheSize) where
  free := by simp [init]
  freeable := by simp [init]
  unreferenced mmHash numEmbeds := by simp [init]

variable {mmHash : String} {references : List RequestId}

/-- Only referenced entries are not freeable. -/
theorem Accounted.not_freeable (accounted : Accounted embeds manager)
    (referenced : manager.cached.get? mmHash ≠ some []) : manager.freeable.get? mmHash = none := by
  cases found : manager.freeable.get? mmHash with
  | none => rfl
  | some numEmbeds => exact absurd ((accounted.unreferenced _ _).mp found).1 referenced

theorem insert_ne_nil {α : Type} [DecidableEq α] (value : α) (values : List α) :
    values.insert value ≠ [] :=
  List.ne_nil_of_mem List.mem_insert_self

/-- Another reference to a referenced entry. -/
theorem Accounted.reference (accounted : Accounted embeds manager)
    (cached : manager.cached.get? mmHash = some references) (referenced : references ≠ [])
    (requestId : RequestId) (inputId : Nat) :
    Accounted embeds (manager.addReference mmHash references requestId inputId) where
  free := by
    have weight := manager.cached.sumOn_insert (fun mmHash _ => embeds mmHash) mmHash
      (references.insert requestId)
    have before := accounted.free
    rw [cached] at weight
    simp only [Option.map_some, Option.getD_some] at weight
    simp only [addReference]
    omega
  freeable := accounted.freeable
  unreferenced other numEmbeds := by
    simp only [addReference]
    by_cases same : mmHash = other
    · subst same
      rw [accounted.not_freeable (by rw [cached]; simpa using referenced), Dict.get?_insert_self]
      simp [insert_ne_nil requestId references]
    · rw [Dict.get?_insert_of_ne _ _ same]
      exact accounted.unreferenced other numEmbeds

/-- The first reference to an entry nobody referred to. -/
theorem Accounted.revive (accounted : Accounted embeds manager) {numEmbeds : Nat}
    (freeable : manager.freeable.get? mmHash = some numEmbeds) (requestId : RequestId)
    (inputId : Nat) :
    Accounted embeds
      ({ manager with
        freeable := manager.freeable.erase mmHash
        numFreeableSlots := manager.numFreeableSlots - numEmbeds }.addReference mmHash []
          requestId inputId) where
  free := by
    have weight := manager.cached.sumOn_insert (fun mmHash _ => embeds mmHash) mmHash
      (([] : List RequestId).insert requestId)
    have before := accounted.free
    rw [((accounted.unreferenced _ _).mp freeable).1] at weight
    simp only [Option.map_some, Option.getD_some] at weight
    simp only [addReference]
    omega
  freeable := by
    have weight := manager.freeable.sumOn_erase (fun _ numEmbeds => numEmbeds) mmHash
    have before := accounted.freeable
    rw [freeable] at weight
    simp only [Option.map_some, Option.getD_some] at weight
    simp only [addReference]
    omega
  unreferenced other size := by
    simp only [addReference]
    by_cases same : mmHash = other
    · subst same
      simp
    · rw [Dict.get?_insert_of_ne _ _ same, Dict.get?_erase_of_ne _ same]
      exact accounted.unreferenced other size

/-- A new entry. -/
theorem Accounted.allocated (accounted : Accounted embeds manager)
    (uncached : manager.cached.get? mmHash = none) (requestId : RequestId) (inputId : Nat) :
    Accounted embeds
      { manager.addReference mmHash [] requestId inputId with
        numFreeSlots := manager.numFreeSlots - embeds mmHash
        numFreeableSlots := manager.numFreeableSlots - embeds mmHash } where
  free := by
    have weight := manager.cached.sumOn_insert (fun mmHash _ => embeds mmHash) mmHash
      (([] : List RequestId).insert requestId)
    have before := accounted.free
    rw [uncached] at weight
    simp only [Option.map_none, Option.getD_none] at weight
    simp only [addReference]
    omega
  freeable := by
    have before := accounted.freeable
    simp only [addReference]
    omega
  unreferenced other size := by
    simp only [addReference]
    by_cases same : mmHash = other
    · subst same
      rw [accounted.not_freeable (by simp [uncached]), Dict.get?_insert_self]
      simp
    · rw [Dict.get?_insert_of_ne _ _ same]
      exact accounted.unreferenced other size

/-- A round of the eviction loop. -/
theorem Accounted.evicted (accounted : Accounted embeds manager) {numEmbeds : Nat}
    (freeable : manager.freeable.get? mmHash = some numEmbeds) :
    Accounted embeds
      { manager with
        freeable := manager.freeable.erase mmHash
        cached := manager.cached.erase mmHash
        freed := manager.freed ++ [mmHash]
        numFreeSlots := manager.numFreeSlots + numEmbeds } where
  free := by
    rcases (accounted.unreferenced _ _).mp freeable with ⟨cached, rfl⟩
    have weight := manager.cached.sumOn_erase (fun mmHash _ => embeds mmHash) mmHash
    have before := accounted.free
    rw [cached] at weight
    simp only [Option.map_some, Option.getD_some] at weight
    dsimp only
    omega
  freeable := by
    have weight := manager.freeable.sumOn_erase (fun _ numEmbeds => numEmbeds) mmHash
    have before := accounted.freeable
    rw [freeable] at weight
    simp only [Option.map_some, Option.getD_some] at weight
    dsimp only
    omega
  unreferenced other size := by
    by_cases same : mmHash = other
    · subst same
      simp
    · rw [Dict.get?_erase_of_ne _ same, Dict.get?_erase_of_ne _ same]
      exact accounted.unreferenced other size

/-- A reference is dropped and others remain. -/
theorem Accounted.released (accounted : Accounted embeds manager) {remaining : List RequestId}
    (cached : manager.cached.get? mmHash = some references) (referenced : references ≠ [])
    (remains : remaining ≠ []) :
    Accounted embeds { manager with cached := manager.cached.insert mmHash remaining } where
  free := by
    have weight := manager.cached.sumOn_insert (fun mmHash _ => embeds mmHash) mmHash remaining
    have before := accounted.free
    rw [cached] at weight
    simp only [Option.map_some, Option.getD_some] at weight
    dsimp only
    omega
  freeable := accounted.freeable
  unreferenced other size := by
    by_cases same : mmHash = other
    · subst same
      rw [accounted.not_freeable (by rw [cached]; simpa using referenced), Dict.get?_insert_self]
      simp [remains]
    · rw [Dict.get?_insert_of_ne _ _ same]
      exact accounted.unreferenced other size

/-- The last reference is dropped. -/
theorem Accounted.unused (accounted : Accounted embeds manager)
    (cached : manager.cached.get? mmHash = some references) (referenced : references ≠ []) :
    Accounted embeds
      { manager with
        cached := manager.cached.insert mmHash []
        freeable := manager.freeable.insert mmHash (embeds mmHash)
        numFreeableSlots := manager.numFreeableSlots + embeds mmHash } where
  free := by
    have weight := manager.cached.sumOn_insert (fun mmHash _ => embeds mmHash) mmHash []
    have before := accounted.free
    rw [cached] at weight
    simp only [Option.map_some, Option.getD_some] at weight
    dsimp only
    omega
  freeable := by
    have weight := manager.freeable.sumOn_insert (fun _ numEmbeds => numEmbeds) mmHash
      (embeds mmHash)
    have before := accounted.freeable
    rw [accounted.not_freeable (by rw [cached]; simpa using referenced)] at weight
    simp only [Option.map_none, Option.getD_none] at weight
    dsimp only
    omega
  unreferenced other size := by
    by_cases same : mmHash = other
    · subst same
      simp [eq_comm]
    · rw [Dict.get?_insert_of_ne _ _ same, Dict.get?_insert_of_ne _ _ same]
      exact accounted.unreferenced other size

end Accounted

/-! ## Operations -/

/-- Sizes are a function of the hash. -/
def Sized {H : Type} (embeds : String → Nat) (request : Request H) : Prop :=
  ∀ feature ∈ request.mmFeatures, feature.mmPosition.getNumEmbeds = embeds feature.identifier

/-- No room was taken and no entry added. -/
structure Kept (manager manager' : EncoderCacheManager) : Prop where
  cacheSize : manager'.cacheSize = manager.cacheSize
  room : manager.numFreeSlots ≤ manager'.numFreeSlots
  uncached : ∀ mmHash, manager.cached.get? mmHash = none → manager'.cached.get? mmHash = none

theorem Kept.refl (manager : EncoderCacheManager) : Kept manager manager :=
  ⟨rfl, Int.le_refl _, fun _ uncached => uncached⟩

theorem Kept.trans {first second third : EncoderCacheManager} (kept : Kept first second)
    (kept' : Kept second third) : Kept first third :=
  ⟨kept'.cacheSize.trans kept.cacheSize, Int.le_trans kept.room kept'.room,
    fun mmHash uncached => kept'.uncached mmHash (kept.uncached mmHash uncached)⟩

section Operations

variable {H : Type} {embeds : String → Nat} {manager manager' : EncoderCacheManager}
  {request : Request H} {inputId : Nat}

/-- Overwriting a cached entry adds no key. -/
theorem get?_insert_none {cached : Dict String (List RequestId)} {mmHash other : String}
    {references updated : List RequestId} (found : cached.get? mmHash = some references)
    (uncached : cached.get? other = none) : (cached.insert mmHash updated).get? other = none := by
  by_cases same : mmHash = other
  · rw [same, uncached] at found
    contradiction
  · rw [Dict.get?_insert_of_ne _ _ same]
    exact uncached

theorem getNumEncoderEmbeds_eq_ok {numEmbeds : Nat} :
    request.getNumEncoderEmbeds inputId = .ok numEmbeds ↔
      ∃ feature, request.mmFeatures[inputId]? = some feature ∧
        feature.mmPosition.getNumEmbeds = numEmbeds := by
  constructor
  · intro counted
    rcases bind_eq_ok.mp counted with ⟨_, _, counted⟩
    rcases bind_eq_ok.mp counted with ⟨feature, located, counted⟩
    exact ⟨feature, pyIndex_eq_ok.mp located, Except.ok.inj counted⟩
  · rintro ⟨feature, located, rfl⟩
    rcases List.getElem?_eq_some_iff.mp located with ⟨inside, _⟩
    apply bind_eq_ok.mpr
    refine ⟨(), pyAssert_eq_ok.mpr inside, ?_⟩
    apply bind_eq_ok.mpr
    exact ⟨feature, pyIndex_eq_ok.mpr located, rfl⟩

theorem checkAndUpdateCache_spec (accounted : Accounted embeds manager) {found : Bool}
    (ran : manager.checkAndUpdateCache request inputId = .ok (found, manager')) :
    Accounted embeds manager' ∧ Kept manager manager' := by
  rcases bind_eq_ok.mp ran with ⟨feature, located, ran⟩
  split at ran
  · cases ran
    exact ⟨accounted, .refl manager⟩
  · rename_i references cached
    split at ran
    · rename_i empty
      have unreferenced := List.isEmpty_iff.mp empty
      subst unreferenced
      split at ran
      · contradiction
      · rename_i numEmbeds freeable
        cases ran
        exact ⟨accounted.revive freeable request.requestId inputId,
          rfl, Int.le_refl _, fun _ => get?_insert_none cached⟩
    · rename_i referenced
      cases ran
      have nonempty : references ≠ [] := fun empty => referenced (List.isEmpty_iff.mpr empty)
      exact ⟨accounted.reference cached nonempty request.requestId inputId,
        rfl, Int.le_refl _, fun _ => get?_insert_none cached⟩

variable {failure : PyError}

theorem checkAndUpdateCache_error (accounted : Accounted embeds manager)
    (raised : manager.checkAndUpdateCache request inputId = .error failure) :
    failure = .indexError := by
  rcases bind_eq_error.mp raised with raised | ⟨feature, _, raised⟩
  · exact eq_indexError_of_pyIndex raised
  · split at raised
    · contradiction
    · rename_i references cached
      split at raised
      · rename_i empty
        rw [List.isEmpty_iff.mp empty] at cached
        split at raised
        · rename_i missing
          have present := (accounted.unreferenced feature.identifier _).mpr ⟨cached, rfl⟩
          rw [missing] at present
          contradiction
        · contradiction
      · contradiction

/-- The eviction loop finds what the counter promises. -/
theorem evictFreeable_spec {numEmbeds fuel : Nat} (accounted : Accounted embeds manager)
    (enough : numEmbeds ≤ manager.numFreeableSlots) (fueled : manager.freeable.size ≤ fuel) :
    ∃ evicted, evictFreeable numEmbeds fuel manager = .ok evicted ∧
      Accounted embeds evicted ∧ Kept manager evicted ∧ numEmbeds ≤ evicted.numFreeSlots := by
  induction fuel generalizing manager with
  | zero =>
      unfold evictFreeable
      have total := accounted.freeable
      have exhausted : manager.freeable.sumOn (fun _ numEmbeds => numEmbeds) = 0 := by
        apply Dict.sumOn_of_first?_none
        rw [Dict.first?, List.head?_eq_none_iff]
        exact List.eq_nil_of_length_eq_zero (Nat.le_zero.mp fueled)
      have room : ¬ (numEmbeds > manager.numFreeSlots) := by omega
      rw [if_neg room]
      exact ⟨manager, rfl, accounted, .refl manager, by omega⟩
  | succ fuel ih =>
      unfold evictFreeable
      by_cases short : numEmbeds > manager.numFreeSlots
      · rw [if_pos short]
        cases oldest : manager.freeable.first? with
        | none =>
            have total := accounted.freeable
            rw [Dict.sumOn_of_first?_none oldest] at total
            omega
        | some entry =>
            rcases entry with ⟨mmHash, numFreeEmbeds⟩
            have freeable := Dict.get?_of_first? oldest
            rcases (accounted.unreferenced _ _).mp freeable with ⟨cached, _⟩
            dsimp only at cached ⊢
            have contains : manager.cached.contains mmHash = true := by
              rw [Dict.contains, cached]
              rfl
            rw [if_pos contains]
            have smaller := Dict.size_erase freeable
            rcases ih (accounted.evicted freeable) enough (by dsimp only at smaller ⊢; omega) with
              ⟨evicted, ran, sound, kept, room⟩
            refine ⟨evicted, ran, sound, ⟨kept.cacheSize, ?_, fun other uncached => ?_⟩, room⟩
            · have grown := kept.room
              omega
            · apply kept.uncached
              by_cases same : mmHash = other
              · rw [same, Dict.get?_erase_self]
              · rw [Dict.get?_erase_of_ne _ same]
                exact uncached
      · rw [if_neg short]
        exact ⟨manager, rfl, accounted, .refl manager, by omega⟩

variable {feature : MultiModalFeatureSpec}

/-- `can_allocate` answers, and a positive answer is backed by free slots. -/
theorem canAllocate_spec (accounted : Accounted embeds manager)
    (located : request.mmFeatures[inputId]? = some feature) (encoderComputeBudget : Int)
    (numEmbedsToSchedule : Nat) :
    ∃ answer manager', manager.canAllocate request inputId encoderComputeBudget
        numEmbedsToSchedule = .ok (answer, manager') ∧
      Accounted embeds manager' ∧ Kept manager manager' ∧
      (answer = true → ((feature.mmPosition.getNumEmbeds + numEmbedsToSchedule : Nat) : Int) ≤
        manager'.numFreeSlots) := by
  have counted := getNumEncoderEmbeds_eq_ok.mpr ⟨feature, located, rfl⟩
  unfold canAllocate
  rw [counted]
  dsimp only [bind, Except.bind, pure, Except.pure]
  split
  · exact ⟨false, manager, rfl, accounted, .refl manager, nofun⟩
  · split
    · rename_i room
      exact ⟨true, manager, rfl, accounted, .refl manager, fun _ => room⟩
    · split
      · exact ⟨false, manager, rfl, accounted, .refl manager, nofun⟩
      · rename_i reclaimable
        rcases evictFreeable_spec accounted (Int.not_lt.mp reclaimable) (Nat.le_refl _) with
          ⟨evicted, ran, sound, kept, room⟩
        rw [ran]
        exact ⟨true, evicted, rfl, sound, kept, fun _ => room⟩

/-- `allocate` of a new entry for which there is room. -/
theorem allocate_spec (accounted : Accounted embeds manager) (sized : Sized embeds request)
    (located : request.mmFeatures[inputId]? = some feature)
    (uncached : manager.cached.get? feature.identifier = none)
    (room : embeds feature.identifier ≤ manager.numFreeSlots) :
    ∃ manager', manager.allocate request inputId = .ok manager' ∧ Accounted embeds manager' ∧
      manager'.numFreeSlots = manager.numFreeSlots - embeds feature.identifier ∧
      ∀ mmHash ≠ feature.identifier, manager.cached.get? mmHash = none →
        manager'.cached.get? mmHash = none := by
  have size := sized feature (List.mem_of_getElem? located)
  have counted := getNumEncoderEmbeds_eq_ok.mpr ⟨feature, located, size⟩
  have freeable : embeds feature.identifier ≤ manager.numFreeableSlots := by
    rw [accounted.freeable]
    omega
  have unset : manager.cached.getD feature.identifier [] = [] := by
    rw [Dict.getD, uncached]
    rfl
  refine ⟨_, ?_, accounted.allocated uncached request.requestId inputId, rfl, ?_⟩
  · unfold allocate
    apply bind_eq_ok.mpr
    refine ⟨feature, pyIndex_eq_ok.mpr located, ?_⟩
    apply bind_eq_ok.mpr
    refine ⟨_, counted, ?_⟩
    apply bind_eq_ok.mpr
    refine ⟨(), pyAssert_eq_ok.mpr room, ?_⟩
    apply bind_eq_ok.mpr
    refine ⟨(), pyAssert_eq_ok.mpr freeable, ?_⟩
    rw [unset]
    rfl
  · intro mmHash differ absent
    change (manager.cached.insert _ _).get? mmHash = none
    rw [Dict.get?_insert_of_ne _ _ (Ne.symm differ)]
    exact absent

/-- Forgetting an input leaves entries and counters alone. -/
theorem forgetInput_eq (requestId : RequestId) (inputId : Nat) (manager : EncoderCacheManager) :
    manager.forgetInput requestId inputId =
      { manager with
        requestCachedIds := (manager.forgetInput requestId inputId).requestCachedIds } := by
  unfold forgetInput
  split
  · rfl
  · rfl

theorem Accounted.forgetInput (accounted : Accounted embeds manager) (requestId : RequestId)
    (inputId : Nat) : Accounted embeds (manager.forgetInput requestId inputId) := by
  rw [forgetInput_eq]
  exact ⟨accounted.free, accounted.freeable, accounted.unreferenced⟩

theorem Kept.forgetInput (manager : EncoderCacheManager) (requestId : RequestId) (inputId : Nat) :
    Kept manager (manager.forgetInput requestId inputId) := by
  rw [forgetInput_eq]
  exact ⟨rfl, Int.le_refl _, fun _ uncached => uncached⟩

theorem anyM_eq_ok_false {α : Type} {test : α → Except PyError Bool} {values : List α}
    (ran : values.anyM test = .ok false) : ∀ value ∈ values, test value = .ok false := by
  induction values with
  | nil => exact fun value member => absurd member List.not_mem_nil
  | cons head rest ih =>
      rcases bind_eq_ok.mp ran with ⟨answer, tested, ran⟩
      cases answer with
      | true =>
          have impossible := Except.ok.inj ran
          contradiction
      | false =>
          intro value member
          rcases List.mem_cons.mp member with rfl | member
          · exact tested
          · exact ih ran value member

theorem anyM_eq_error {α : Type} {test : α → Except PyError Bool} {values : List α}
    (raised : values.anyM test = .error failure) :
    ∃ value ∈ values, test value = .error failure := by
  induction values with
  | nil => contradiction
  | cons head rest ih =>
      rcases bind_eq_error.mp raised with raised | ⟨answer, _, raised⟩
      · exact ⟨head, List.mem_cons_self, raised⟩
      · cases answer with
        | true => contradiction
        | false =>
            rcases ih raised with ⟨value, member, raised⟩
            exact ⟨value, List.mem_cons_of_mem head member, raised⟩

/-- What freeing an input does: the input is forgotten, and the reference goes
when no other input of the request has the item. -/
theorem freeEncoderInput_cases (ran : manager.freeEncoderInput request inputId = .ok manager') :
    ∃ feature, request.mmFeatures[inputId]? = some feature ∧
      (manager' = manager.forgetInput request.requestId inputId ∨
        ∃ references, manager.cached.get? feature.identifier = some references ∧
          references ≠ [] ∧
          (∀ otherId ∈ (manager.forgetInput request.requestId inputId).getCachedInputIds request,
            ∀ other, request.mmFeatures[otherId]? = some other →
              other.identifier ≠ feature.identifier) ∧
          ((references.filter (· ≠ request.requestId) ≠ [] ∧
              manager' = { manager.forgetInput request.requestId inputId with
                cached := manager.cached.insert feature.identifier
                  (references.filter (· ≠ request.requestId)) }) ∨
            (references.filter (· ≠ request.requestId) = [] ∧
              manager' = { manager.forgetInput request.requestId inputId with
                cached := manager.cached.insert feature.identifier []
                freeable := manager.freeable.insert feature.identifier
                  feature.mmPosition.getNumEmbeds
                numFreeableSlots :=
                  manager.numFreeableSlots + feature.mmPosition.getNumEmbeds }))) := by
  rcases bind_eq_ok.mp ran with ⟨feature, located, ran⟩
  have found := pyIndex_eq_ok.mp located
  have forgotten := forgetInput_eq request.requestId inputId manager
  refine ⟨feature, found, ?_⟩
  dsimp only at ran
  split at ran
  · cases ran
    exact .inl rfl
  · rename_i references cached
    split at ran
    · cases ran
      exact .inl rfl
    · rename_i referenced
      rcases bind_eq_ok.mp ran with ⟨repeated, searched, ran⟩
      cases repeated with
      | true =>
          cases ran
          exact .inl rfl
      | false =>
          rw [if_neg Bool.false_ne_true] at ran
          refine .inr ⟨references, by rw [forgotten] at cached; exact cached,
            fun empty => referenced (List.isEmpty_iff.mpr empty), fun otherId member other placed => ?_,
            ?_⟩
          · have tested := anyM_eq_ok_false searched otherId member
            rcases bind_eq_ok.mp tested with ⟨located', indexed, tested⟩
            rw [pyIndex_eq_ok, placed] at indexed
            cases indexed
            exact of_decide_eq_false (Except.ok.inj tested)
          · split at ran
            · rename_i empty
              rcases bind_eq_ok.mp ran with ⟨numEmbeds, counted, ran⟩
              rcases getNumEncoderEmbeds_eq_ok.mp counted with ⟨same, placed, size⟩
              rw [found] at placed
              cases placed
              have emptied := List.isEmpty_iff.mp empty
              refine .inr ⟨emptied, ?_⟩
              rw [← size, emptied, forgotten] at ran
              rw [forgotten]
              exact (Except.ok.inj ran).symm
            · rename_i remains
              refine .inl ⟨fun empty => remains (List.isEmpty_iff.mpr empty), ?_⟩
              rw [forgotten] at ran
              rw [forgotten]
              exact (Except.ok.inj ran).symm

theorem freeEncoderInput_spec (accounted : Accounted embeds manager) (sized : Sized embeds request)
    (ran : manager.freeEncoderInput request inputId = .ok manager') :
    Accounted embeds manager' ∧ Kept manager manager' := by
  have forgotten := forgetInput_eq request.requestId inputId manager
  rcases freeEncoderInput_cases ran with ⟨feature, located, rfl | ⟨references, cached, referenced, _,
    ⟨remains, rfl⟩ | ⟨_, rfl⟩⟩⟩
  · exact ⟨accounted.forgetInput _ _, .forgetInput _ _ _⟩
  · rw [forgotten]
    have released := accounted.released cached referenced remains
    exact ⟨⟨released.free, released.freeable, released.unreferenced⟩,
      rfl, Int.le_refl _, fun _ => get?_insert_none cached⟩
  · rw [forgotten, sized feature (List.mem_of_getElem? located)]
    have unused := accounted.unused cached referenced
    exact ⟨⟨unused.free, unused.freeable, unused.unreferenced⟩,
      rfl, Int.le_refl _, fun _ => get?_insert_none cached⟩

/-- Freeing an input raises nothing but the error of an invalid index. -/
theorem freeEncoderInput_error (raised : manager.freeEncoderInput request inputId = .error failure) :
    failure = .indexError := by
  rcases bind_eq_error.mp raised with raised | ⟨feature, located, raised⟩
  · exact eq_indexError_of_pyIndex raised
  · dsimp only at raised
    split at raised
    · contradiction
    · split at raised
      · contradiction
      · rcases bind_eq_error.mp raised with raised | ⟨repeated, _, raised⟩
        · rcases anyM_eq_error raised with ⟨otherId, _, raised⟩
          rcases bind_eq_error.mp raised with raised | ⟨_, _, raised⟩
          · exact eq_indexError_of_pyIndex raised
          · contradiction
        · split at raised
          · contradiction
          · split at raised
            · rcases bind_eq_error.mp raised with raised | ⟨_, _, raised⟩
              · rw [getNumEncoderEmbeds_eq_ok.mpr
                  ⟨feature, pyIndex_eq_ok.mp located, rfl⟩] at raised
                contradiction
              · contradiction
            · contradiction

theorem free_spec (accounted : Accounted embeds manager) (sized : Sized embeds request)
    (ran : manager.free request = .ok manager') :
    Accounted embeds manager' ∧ Kept manager manager' := by
  suffices folded : ∀ (inputIds : List Nat) (start : EncoderCacheManager), Accounted embeds start →
      inputIds.foldlM (fun manager inputId => manager.freeEncoderInput request inputId) start =
        .ok manager' → Accounted embeds manager' ∧ Kept start manager' from
    folded _ manager accounted ran
  intro inputIds
  induction inputIds with
  | nil =>
      intro start sound ran
      cases ran
      exact ⟨sound, .refl _⟩
  | cons inputId rest ih =>
      intro start sound ran
      rcases bind_eq_ok.mp ran with ⟨next, freed, ran⟩
      rcases freeEncoderInput_spec sound sized freed with ⟨sound', kept⟩
      rcases ih next sound' ran with ⟨sound'', kept'⟩
      exact ⟨sound'', kept.trans kept'⟩

theorem free_error (raised : manager.free request = .error failure) : failure = .indexError := by
  suffices folded : ∀ (inputIds : List Nat) (start : EncoderCacheManager),
      inputIds.foldlM (fun manager inputId => manager.freeEncoderInput request inputId) start =
        .error failure → failure = .indexError from
    folded _ manager raised
  intro inputIds
  induction inputIds with
  | nil =>
      intro start raised
      contradiction
  | cons inputId rest ih =>
      intro start raised
      rcases bind_eq_error.mp raised with raised | ⟨next, _, raised⟩
      · exact freeEncoderInput_error raised
      · exact ih next raised

end Operations

/-! ## Runs -/

/-- The manager together with the hashes for which `can_allocate` answered yes and
that are not allocated yet, as `mm_hashes_to_schedule` collects them. -/
structure Scheduling where
  manager : EncoderCacheManager
  mmHashesToSchedule : List String

/-- The calls of the scheduler.  `scheduled` tells whether the input is scheduled
after a positive answer: one without embeddings in the window is not.  `abandon`
drops the scheduled inputs of a request that gets no tokens after all. -/
inductive Call (H : Type) where
  | checkAndUpdateCache (request : Request H) (inputId : Nat)
  | canAllocate (request : Request H) (inputId : Nat) (encoderComputeBudget : Int)
      (scheduled : Bool)
  | allocate (request : Request H) (inputId : Nat)
  | abandon
  | freeEncoderInput (request : Request H) (inputId : Nat)
  | free (request : Request H)
  | getFreedMmHashes
  | reset

/-- `num_embeds_to_schedule`. -/
def Scheduling.numEmbedsToSchedule (embeds : String → Nat) (state : Scheduling) : Nat :=
  (state.mmHashesToSchedule.map embeds).sum

/-- Execute one call. -/
def Scheduling.execute {H : Type} (embeds : String → Nat) (state : Scheduling) :
    Call H → Except PyError Scheduling
  | .checkAndUpdateCache request inputId => do
      let (_, manager) ← state.manager.checkAndUpdateCache request inputId
      pure { state with manager := manager }
  | .canAllocate request inputId encoderComputeBudget scheduled => do
      let feature ← pyIndex request.mmFeatures inputId
      let (answer, manager) ← state.manager.canAllocate request inputId encoderComputeBudget
        (state.numEmbedsToSchedule embeds)
      pure
        { manager := manager
          mmHashesToSchedule :=
            if answer ∧ scheduled then feature.identifier :: state.mmHashesToSchedule
            else state.mmHashesToSchedule }
  | .allocate request inputId => do
      let feature ← pyIndex request.mmFeatures inputId
      let manager ← state.manager.allocate request inputId
      pure
        { manager := manager
          mmHashesToSchedule := state.mmHashesToSchedule.erase feature.identifier }
  | .abandon => pure { state with mmHashesToSchedule := [] }
  | .freeEncoderInput request inputId => do
      let manager ← state.manager.freeEncoderInput request inputId
      pure { state with manager := manager }
  | .free request => do
      let manager ← state.manager.free request
      pure { state with manager := manager }
  | .getFreedMmHashes => pure { state with manager := state.manager.getFreedMmHashes.2 }
  | .reset => pure { manager := state.manager.reset, mmHashesToSchedule := [] }

/-- The scheduler's protocol: sizes depend on the hash, `can_allocate` is asked for
an input that is neither cached nor scheduled, and only scheduled inputs are
allocated. -/
def Scheduling.Allowed {H : Type} (embeds : String → Nat) (state : Scheduling) : Call H → Prop
  | .checkAndUpdateCache request _ => Sized embeds request
  | .canAllocate request inputId _ _ =>
      Sized embeds request ∧ ∃ feature, request.mmFeatures[inputId]? = some feature ∧
        state.manager.cached.get? feature.identifier = none ∧
          feature.identifier ∉ state.mmHashesToSchedule
  | .allocate request inputId =>
      Sized embeds request ∧ ∃ feature, request.mmFeatures[inputId]? = some feature ∧
        feature.identifier ∈ state.mmHashesToSchedule
  | .freeEncoderInput request _ => Sized embeds request
  | .free request => Sized embeds request
  | .abandon | .getFreedMmHashes | .reset => True

/-- Runs of the encoder cache manager under the scheduler's protocol. -/
def system (H : Type) (embeds : String → Nat) : System Scheduling where
  start state := ∃ cacheSize, state = ⟨init cacheSize, []⟩
  step state next := ∃ call : Call H,
    state.Allowed embeds call ∧ state.execute embeds call = .ok next

/-- The scheduled hashes are new and there is room for all of them. -/
structure Scheduling.Sound (embeds : String → Nat) (state : Scheduling) : Prop where
  accounted : Accounted embeds state.manager
  nodup : state.mmHashesToSchedule.Nodup
  uncached : ∀ mmHash ∈ state.mmHashesToSchedule, state.manager.cached.get? mmHash = none
  room : state.numEmbedsToSchedule embeds ≤ state.manager.numFreeSlots

section Runs

variable {H : Type} {embeds : String → Nat} {state next : Scheduling}

theorem init_sound (cacheSize : Nat) :
    Scheduling.Sound embeds ⟨init cacheSize, []⟩ where
  accounted := init_accounted cacheSize
  nodup := List.nodup_nil
  uncached _ member := absurd member List.not_mem_nil
  room := Int.natCast_nonneg cacheSize

/-- Calls that take no room keep the scheduled inputs possible. -/
theorem Scheduling.Sound.kept (sound : state.Sound embeds) {manager' : EncoderCacheManager}
    (accounted : Accounted embeds manager') (kept : Kept state.manager manager') :
    Scheduling.Sound embeds { state with manager := manager' } where
  accounted := accounted
  nodup := sound.nodup
  uncached mmHash member := kept.uncached mmHash (sound.uncached mmHash member)
  room := Int.le_trans sound.room kept.room

/-- An input whose hash is scheduled fits. -/
theorem Scheduling.Sound.fits (sound : state.Sound embeds) {mmHash : String}
    (scheduled : mmHash ∈ state.mmHashesToSchedule) :
    embeds mmHash + ((state.mmHashesToSchedule.erase mmHash).map embeds).sum ≤
      state.manager.numFreeSlots := by
  have room := sound.room
  have total := (List.perm_cons_erase scheduled).map embeds
  unfold Scheduling.numEmbedsToSchedule at room
  rw [total.sum_eq, List.map_cons, List.sum_cons] at room
  exact room

theorem sound_step (sound : state.Sound embeds) (steps : (system H embeds).step state next) :
    next.Sound embeds := by
  rcases steps with ⟨call, allowed, ran⟩
  cases call with
  | checkAndUpdateCache request inputId =>
      rcases bind_eq_ok.mp ran with ⟨⟨found, manager'⟩, checked, ran⟩
      cases ran
      rcases checkAndUpdateCache_spec sound.accounted checked with ⟨accounted, kept⟩
      exact sound.kept accounted kept
  | canAllocate request inputId encoderComputeBudget scheduled =>
      rcases allowed with ⟨sized, feature, located, uncached, unscheduled⟩
      rcases bind_eq_ok.mp ran with ⟨feature', located', ran⟩
      rw [pyIndex_eq_ok, located] at located'
      cases located'
      rcases bind_eq_ok.mp ran with ⟨⟨answer, manager'⟩, asked, ran⟩
      rcases canAllocate_spec sound.accounted located encoderComputeBudget
        (state.numEmbedsToSchedule embeds) with
        ⟨answer', manager'', asked', accounted, kept, backed⟩
      rw [asked] at asked'
      cases asked'
      cases ran
      have still := sound.kept accounted kept
      by_cases taken : answer = true ∧ scheduled = true
      · rw [if_pos taken]
        constructor
        · exact accounted
        · exact List.nodup_cons.mpr ⟨unscheduled, sound.nodup⟩
        · intro mmHash member
          rcases List.mem_cons.mp member with rfl | member
          · exact kept.uncached _ uncached
          · exact still.uncached mmHash member
        · have room := backed taken.1
          rw [sized feature (List.mem_of_getElem? located)] at room
          exact room
      · rw [if_neg taken]
        exact still
  | allocate request inputId =>
      rcases allowed with ⟨sized, feature, located, scheduled⟩
      rcases bind_eq_ok.mp ran with ⟨feature', located', ran⟩
      rw [pyIndex_eq_ok, located] at located'
      cases located'
      have fits := sound.fits scheduled
      have nodup := sound.nodup
      rcases allocate_spec sound.accounted sized located (sound.uncached _ scheduled) (by omega)
        with ⟨manager', allocated, accounted, slots, uncached⟩
      rw [allocated] at ran
      cases ran
      constructor
      · exact accounted
      · exact nodup.erase _
      · intro mmHash member
        rcases nodup.mem_erase_iff.mp member with ⟨differ, member⟩
        exact uncached mmHash differ (sound.uncached mmHash member)
      · change (((state.mmHashesToSchedule.erase feature.identifier).map embeds).sum : Int) ≤
          manager'.numFreeSlots
        omega
  | abandon =>
      cases ran
      constructor
      · exact sound.accounted
      · exact List.nodup_nil
      · exact fun mmHash member => absurd member List.not_mem_nil
      · have room := sound.room
        change (0 : Int) ≤ state.manager.numFreeSlots
        omega
  | freeEncoderInput request inputId =>
      rcases bind_eq_ok.mp ran with ⟨manager', freed, ran⟩
      cases ran
      rcases freeEncoderInput_spec sound.accounted allowed freed with ⟨accounted, kept⟩
      exact sound.kept accounted kept
  | free request =>
      rcases bind_eq_ok.mp ran with ⟨manager', freed, ran⟩
      cases ran
      rcases free_spec sound.accounted allowed freed with ⟨accounted, kept⟩
      exact sound.kept accounted kept
  | getFreedMmHashes =>
      cases ran
      have accounted := sound.accounted
      exact sound.kept ⟨accounted.free, accounted.freeable, accounted.unreferenced⟩
        ⟨rfl, Int.le_refl _, fun _ uncached => uncached⟩
  | reset =>
      cases ran
      exact init_sound _

theorem reachable_sound (reached : Reachable (system H embeds) state) : state.Sound embeds := by
  apply reached.invariant
  · rintro _ ⟨cacheSize, rfl⟩
    exact init_sound cacheSize
  · intro state next sound steps
    exact sound_step sound steps

/-- Allowed calls of `can_allocate` and `allocate` return. -/
theorem Scheduling.Sound.answers (sound : state.Sound embeds) {request : Request H}
    {inputId : Nat} :
    (∀ encoderComputeBudget scheduled,
      state.Allowed embeds (.canAllocate request inputId encoderComputeBudget scheduled) →
        ∃ next, state.execute embeds
          (.canAllocate request inputId encoderComputeBudget scheduled) = .ok next) ∧
      (state.Allowed embeds (.allocate request inputId) →
        ∃ next, state.execute embeds (.allocate request inputId) = .ok next) := by
  constructor
  · rintro encoderComputeBudget scheduled ⟨_, feature, located, _⟩
    rcases canAllocate_spec sound.accounted located encoderComputeBudget
      (state.numEmbedsToSchedule embeds) with ⟨answer, manager', asked, _⟩
    simp only [Scheduling.execute]
    rw [pyIndex_eq_ok.mpr located, asked]
    exact ⟨_, rfl⟩
  · rintro ⟨sized, feature, located, scheduled⟩
    have fits := sound.fits scheduled
    rcases allocate_spec sound.accounted sized located (sound.uncached _ scheduled) (by omega)
      with ⟨manager', allocated, _⟩
    simp only [Scheduling.execute]
    rw [pyIndex_eq_ok.mpr located, allocated]
    exact ⟨_, rfl⟩

/-- No allowed call raises anything but the error of an invalid input index. -/
theorem Scheduling.Sound.error (sound : state.Sound embeds) {call : Call H}
    (allowed : state.Allowed embeds call) {failure : PyError}
    (raised : state.execute embeds call = .error failure) : failure = .indexError := by
  cases call with
  | checkAndUpdateCache request inputId =>
      rcases bind_eq_error.mp raised with raised | ⟨_, _, raised⟩
      · exact checkAndUpdateCache_error sound.accounted raised
      · contradiction
  | canAllocate request inputId encoderComputeBudget scheduled =>
      rcases sound.answers.1 encoderComputeBudget scheduled allowed with ⟨next, ran⟩
      rw [ran] at raised
      contradiction
  | allocate request inputId =>
      rcases sound.answers.2 allowed with ⟨next, ran⟩
      rw [ran] at raised
      contradiction
  | freeEncoderInput request inputId =>
      rcases bind_eq_error.mp raised with raised | ⟨_, _, raised⟩
      · exact freeEncoderInput_error raised
      · contradiction
  | free request =>
      rcases bind_eq_error.mp raised with raised | ⟨_, _, raised⟩
      · exact free_error raised
      · contradiction
  | abandon => contradiction
  | getFreedMmHashes => contradiction
  | reset => contradiction

/-- In every state of every run the counters and the dictionaries agree, the
freeable entries are the cached ones nobody refers to, the eviction loop and the
assertions of `allocate` do not fail, and no dictionary is read in vain. -/
theorem reachable_accounted (reached : Reachable (system H embeds) state) :
    (state.manager.numFreeSlots +
        (state.manager.cached.sumOn fun mmHash _ => embeds mmHash) = state.manager.cacheSize ∧
      state.manager.numFreeableSlots = state.manager.numFreeSlots +
        (state.manager.freeable.sumOn fun _ numEmbeds => numEmbeds) ∧
      ∀ mmHash numEmbeds, state.manager.freeable.get? mmHash = some numEmbeds ↔
        state.manager.cached.get? mmHash = some [] ∧ numEmbeds = embeds mmHash) ∧
      (∀ (request : Request H) (inputId : Nat), (∀ encoderComputeBudget scheduled,
          state.Allowed embeds (.canAllocate request inputId encoderComputeBudget scheduled) →
            ∃ next, state.execute embeds
              (.canAllocate request inputId encoderComputeBudget scheduled) = .ok next) ∧
        (state.Allowed embeds (.allocate request inputId) →
          ∃ next, state.execute embeds (.allocate request inputId) = .ok next)) ∧
      ∀ (call : Call H) (failure : PyError), state.Allowed embeds call →
        state.execute embeds call = .error failure → failure = .indexError := by
  have sound := reachable_sound reached
  refine ⟨⟨sound.accounted.free, sound.accounted.freeable, sound.accounted.unreferenced⟩,
    fun request inputId => sound.answers, fun call failure allowed raised => ?_⟩
  exact sound.error allowed raised

/-- A request with one image of three embeddings. -/
def oneImage (requestId : RequestId) (identifier : String) : Request Unit :=
  { requestId := requestId, mmFeatures := [⟨identifier, { offset := 0, length := 3 }⟩] }

theorem oneImage_sized (requestId : RequestId) (identifier : String) :
    Sized (fun _ => 3) (oneImage requestId identifier) := by
  intro feature member
  rw [List.mem_singleton.mp member]
  rfl

/-- The cache of one request after it was filled, released and asked for room
again: the old entry has been evicted. -/
theorem reachable_evicted :
    ∃ state, Reachable (system Unit fun _ => 3) state ∧
      state.manager.cached.keys = [] ∧ state.manager.freed = ["cat"] ∧
      state.mmHashesToSchedule = ["dog"] := by
  let cat := oneImage "first" "cat"
  let dog := oneImage "second" "dog"
  have started : Reachable (system Unit fun _ => 3) ⟨init 4, []⟩ := .start ⟨4, rfl⟩
  have asked := started.step ⟨.canAllocate cat 0 8 true,
    ⟨oneImage_sized _ _, _, rfl, rfl, List.not_mem_nil⟩, rfl⟩
  have allocated := asked.step ⟨.allocate cat 0,
    ⟨oneImage_sized _ _, _, rfl, List.mem_singleton_self _⟩, rfl⟩
  have freed := allocated.step ⟨.free cat, oneImage_sized _ _, rfl⟩
  have again := freed.step ⟨.canAllocate dog 0 8 true,
    ⟨oneImage_sized _ _, _, rfl, rfl, List.not_mem_nil⟩, rfl⟩
  exact ⟨_, again, rfl, rfl, rfl⟩

/-- The invariant at that state, where the next `allocate` is due. -/
theorem reachable_accounted_evicted :
    ∃ state, Reachable (system Unit fun _ => 3) state ∧ state.manager.freed = ["cat"] ∧
      state.manager.numFreeSlots +
        (state.manager.cached.sumOn fun _ _ => 3) = state.manager.cacheSize ∧
      ∃ next, state.execute (fun _ => 3) (.allocate (oneImage "second" "dog") 0) = .ok next := by
  rcases reachable_evicted with ⟨state, reached, _, evicted, scheduled⟩
  rcases reachable_accounted reached with ⟨⟨free, _, _⟩, answers, _⟩
  refine ⟨state, reached, evicted, free, (answers (oneImage "second" "dog") 0).2 ?_⟩
  refine ⟨oneImage_sized _ _, _, rfl, ?_⟩
  rw [scheduled]
  exact List.mem_singleton_self _

end Runs

end EncoderCacheManager

end Vllm.Core
