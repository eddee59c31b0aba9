import Vllm.Core.EncoderCacheRuns
import Vllm.Core.EncoderCacheManager

/-!
# References to encoder outputs

An entry that a request refers to is not evicted: only entries without references
are in `freeable`.  This module says, operation by operation, which references are
kept, which entries may appear, and what `_try_schedule_encoder_inputs` has
collected when it is done.
-/

namespace Vllm.Core

open Vllm.Library

namespace EncoderCacheManager

/-- The request is among the references of the hash. -/
def Refers (manager : EncoderCacheManager) (requestId : RequestId) (mmHash : String) : Prop :=
  ∃ references, manager.cached.get? mmHash = some references ∧ requestId ∈ references

/-- What is freeable is cached without references. -/
def Tidy (manager : EncoderCacheManager) : Prop :=
  ∀ mmHash size, manager.freeable.get? mmHash = some size → manager.cached.get? mmHash = some []

/-- No entry was added. -/
def AddsNone (before after : EncoderCacheManager) : Prop :=
  ∀ mmHash, before.cached.get? mmHash = none → after.cached.get? mmHash = none

theorem AddsNone.refl (manager : EncoderCacheManager) : AddsNone manager manager :=
  fun _ uncached => uncached

theorem AddsNone.trans {first second third : EncoderCacheManager} (one : AddsNone first second)
    (two : AddsNone second third) : AddsNone first third :=
  fun mmHash uncached => two mmHash (one mmHash uncached)

theorem Tidy.not_freeable {manager : EncoderCacheManager} (tidy : manager.Tidy) {mmHash : String}
    (busy : manager.cached.get? mmHash ≠ some []) : manager.freeable.get? mmHash = none := by
  cases found : manager.freeable.get? mmHash with
  | none => rfl
  | some size => exact absurd (tidy mmHash size found) busy

section Operations

variable {H : Type} {manager next : EncoderCacheManager} {request : Request H} {inputId : Nat}

/-! ## References -/

/-- References are kept and new entries are not freeable. -/
structure Keeps (before after : EncoderCacheManager) : Prop where
  tidy : after.Tidy
  refers : ∀ holder mmHash, before.Refers holder mmHash → after.Refers holder mmHash

theorem Keeps.refl (tidy : manager.Tidy) : Keeps manager manager :=
  ⟨tidy, fun _ _ refers => refers⟩

theorem Keeps.trans {first second third : EncoderCacheManager} (one : Keeps first second)
    (two : Keeps second third) : Keeps first third :=
  ⟨two.tidy, fun holder mmHash refers => two.refers holder mmHash (one.refers holder mmHash refers)⟩

variable {mmHash : String} {found : Bool} {numEmbeds fuel : Nat}

/-- An entry that is not freeable gets a reference. -/
theorem addReference_keeps {references : List RequestId} (tidy : manager.Tidy)
    (unfreeable : manager.freeable.get? mmHash = none)
    (current : ∀ holder, manager.Refers holder mmHash → holder ∈ references) (requestId : RequestId)
    (inputId : Nat) :
    Keeps manager (manager.addReference mmHash references requestId inputId) ∧
      (manager.addReference mmHash references requestId inputId).Refers requestId mmHash := by
  refine ⟨⟨?_, ?_⟩, ?_⟩
  · intro hash size found
    have differ : mmHash ≠ hash := by
      rintro rfl
      exact absurd (unfreeable.symm.trans found) nofun
    exact (Dict.get?_insert_of_ne _ _ differ).trans (tidy hash size found)
  · intro holder hash refers
    by_cases here : mmHash = hash
    · subst here
      exact ⟨_, Dict.get?_insert_self .., List.mem_insert_of_mem (current holder refers)⟩
    · rcases refers with ⟨holders, found, member⟩
      exact ⟨holders, (Dict.get?_insert_of_ne _ _ here).trans found, member⟩
  · exact ⟨_, Dict.get?_insert_self .., List.mem_insert_self⟩

theorem checkAndUpdateCache_addsNone
    (ran : manager.checkAndUpdateCache request inputId = .ok (found, next)) :
    AddsNone manager next ∧
      ∃ feature, request.mmFeatures[inputId]? = some feature ∧
        (found = false → next.cached.get? feature.identifier = none) := by
  rcases bind_eq_ok.mp ran with ⟨feature, located, ran⟩
  have placed := pyIndex_eq_ok.mp located
  split at ran
  · rename_i uncached
    cases ran
    exact ⟨.refl manager, feature, placed, fun _ => uncached⟩
  · rename_i references cached
    split at ran
    · split at ran
      · contradiction
      · cases ran
        exact ⟨fun _ => get?_insert_none cached, feature, placed, by rintro ⟨⟩⟩
    · cases ran
      exact ⟨fun _ => get?_insert_none cached, feature, placed, by rintro ⟨⟩⟩

/-- A hit refers to the entry. -/
theorem checkAndUpdateCache_keeps (tidy : manager.Tidy)
    (ran : manager.checkAndUpdateCache request inputId = .ok (found, next)) :
    Keeps manager next ∧
      (found = true → ∃ feature, request.mmFeatures[inputId]? = some feature ∧
        next.Refers request.requestId feature.identifier) := by
  rcases bind_eq_ok.mp ran with ⟨feature, located, ran⟩
  have placed := pyIndex_eq_ok.mp located
  split at ran
  · cases ran
    exact ⟨.refl tidy, nofun⟩
  · rename_i references cached
    have current : ∀ holder, manager.Refers holder feature.identifier → holder ∈ references := by
      rintro holder ⟨holders, stored, member⟩
      rw [cached] at stored
      cases stored
      exact member
    split at ran
    · split at ran
      · contradiction
      · rename_i size _
        cases ran
        have revived : Keeps manager
            { manager with
              freeable := manager.freeable.erase feature.identifier
              numFreeableSlots := manager.numFreeableSlots - size } := by
          refine ⟨?_, fun _ _ refers => refers⟩
          intro hash size found
          rw [Dict.get?_erase] at found
          split at found
          · contradiction
          · exact tidy hash size found
        have referred := addReference_keeps revived.tidy (Dict.get?_erase_self ..) current
          request.requestId inputId
        exact ⟨revived.trans referred.1, fun _ => ⟨feature, placed, referred.2⟩⟩
    · rename_i busy
      cases ran
      have unfreeable : manager.freeable.get? feature.identifier = none := by
        apply tidy.not_freeable
        rw [cached]
        rintro same
        cases same
        exact busy rfl
      have referred := addReference_keeps tidy unfreeable current request.requestId inputId
      exact ⟨referred.1, fun _ => ⟨feature, placed, referred.2⟩⟩

/-! ## Eviction -/

theorem evictFreeable_addsNone (ran : evictFreeable numEmbeds fuel manager = .ok next) :
    AddsNone manager next := by
  induction fuel generalizing manager with
  | zero =>
      unfold evictFreeable at ran
      split at ran
      · contradiction
      · cases ran
        exact .refl _
  | succ fuel ih =>
      unfold evictFreeable at ran
      split at ran
      · split at ran
        · rename_i fuel' mmHash numFreeEmbeds same oldest
          cases same
          split at ran
          · refine AddsNone.trans ?_ (ih ran)
            intro hash uncached
            exact (Dict.get?_erase ..).trans (by rw [uncached, ite_self])
          · contradiction
        · contradiction
      · cases ran
        exact .refl _

/-- Only entries without references are evicted. -/
theorem evictFreeable_keeps (tidy : manager.Tidy)
    (ran : evictFreeable numEmbeds fuel manager = .ok next) : Keeps manager next := by
  induction fuel generalizing manager with
  | zero =>
      unfold evictFreeable at ran
      split at ran
      · contradiction
      · cases ran
        exact .refl tidy
  | succ fuel ih =>
      unfold evictFreeable at ran
      split at ran
      · split at ran
        · rename_i fuel' mmHash numFreeEmbeds same oldest
          cases same
          have unreferenced := tidy mmHash numFreeEmbeds (Dict.get?_of_first? oldest)
          split at ran
          · have evicted : Keeps manager
                { manager with
                  freeable := manager.freeable.erase mmHash
                  cached := manager.cached.erase mmHash
                  freed := manager.freed ++ [mmHash]
                  numFreeSlots := manager.numFreeSlots + numFreeEmbeds } := by
              constructor
              · intro hash size found
                rw [Dict.get?_erase] at found
                split at found
                · contradiction
                · rename_i differ
                  exact (Dict.get?_erase_of_ne _ differ).trans (tidy hash size found)
              · rintro holder hash ⟨holders, found, member⟩
                have differ : mmHash ≠ hash := by
                  rintro rfl
                  rw [unreferenced] at found
                  cases found
                  contradiction
                exact ⟨holders, (Dict.get?_erase_of_ne _ differ).trans found, member⟩
            exact evicted.trans (ih evicted.tidy ran)
          · contradiction
        · contradiction
      · cases ran
        exact .refl tidy

theorem canAllocate_eq_ok {encoderComputeBudget : Int} {numEmbedsToSchedule : Nat} {fits : Bool}
    (ran : manager.canAllocate request inputId encoderComputeBudget numEmbedsToSchedule =
      .ok (fits, next)) :
    next = manager ∨ ∃ numEmbeds fuel, evictFreeable numEmbeds fuel manager = .ok next := by
  rcases bind_eq_ok.mp ran with ⟨numEmbeds, _, ran⟩
  split at ran
  · cases ran
    exact .inl rfl
  · dsimp only at ran
    split at ran
    · cases ran
      exact .inl rfl
    · split at ran
      · cases ran
        exact .inl rfl
      · rcases bind_eq_ok.mp ran with ⟨evicted, evicting, ran⟩
        cases ran
        exact .inr ⟨_, _, evicting⟩

/-! ## Allocation -/

theorem allocate_eq_ok (ran : manager.allocate request inputId = .ok next) :
    ∃ feature slots freeableSlots, request.mmFeatures[inputId]? = some feature ∧
      next = { manager.addReference feature.identifier (manager.cached.getD feature.identifier [])
            request.requestId inputId with
          numFreeSlots := slots
          numFreeableSlots := freeableSlots } := by
  rcases bind_eq_ok.mp ran with ⟨feature, located, ran⟩
  rcases bind_eq_ok.mp ran with ⟨numEmbeds, _, ran⟩
  rcases bind_eq_ok.mp ran with ⟨_, _, ran⟩
  rcases bind_eq_ok.mp ran with ⟨_, _, ran⟩
  cases ran
  exact ⟨feature, _, _, pyIndex_eq_ok.mp located, rfl⟩

/-- Allocating inputs adds at most their entries. -/
theorem allocateAll_adds {inputIds : List Nat}
    (ran : inputIds.foldlM (fun (manager : EncoderCacheManager) inputId =>
      manager.allocate request inputId) manager = .ok next)
    (uncached : manager.cached.get? mmHash = none) :
    next.cached.get? mmHash = none ∨
      ∃ inputId ∈ inputIds, ∃ feature, request.mmFeatures[inputId]? = some feature ∧
        feature.identifier = mmHash := by
  refine foldlM_invariant
    (fun state : EncoderCacheManager => state.cached.get? mmHash = none ∨
      ∃ inputId ∈ inputIds, ∃ feature, request.mmFeatures[inputId]? = some feature ∧
        feature.identifier = mmHash)
    ?_ (.inl uncached) ran
  rintro inputId member state after entered allocated
  rcases entered with missing | entered
  · rcases allocate_eq_ok allocated with ⟨feature, _, _, placed, rfl⟩
    by_cases here : feature.identifier = mmHash
    · exact .inr ⟨inputId, member, feature, placed, here⟩
    · exact .inl ((Dict.get?_insert_of_ne _ _ here).trans missing)
  · exact .inr entered

/-! ## Release -/

theorem freeEncoderInput_addsNone
    (ran : manager.freeEncoderInput request inputId = .ok next) : AddsNone manager next := by
  have forgotten := forgetInput_eq request.requestId inputId manager
  rcases freeEncoderInput_cases ran with ⟨feature, _, rfl | ⟨references, cached, _, _,
    ⟨_, rfl⟩ | ⟨_, rfl⟩⟩⟩
  · rw [forgotten]
    exact fun _ uncached => uncached
  · exact fun _ => get?_insert_none cached
  · exact fun _ => get?_insert_none cached

theorem free_addsNone (ran : manager.free request = .ok next) : AddsNone manager next :=
  foldlM_invariant (AddsNone manager)
    (fun _ _ _ _ added freed => added.trans (freeEncoderInput_addsNone freed)) (.refl _) ran

end Operations

end EncoderCacheManager

/-! ## Scheduling encoder inputs -/

namespace EncoderPass

open EncoderCacheManager

variable {H : Type} {request : Request H} {window : EncoderWindow}

/-- The items of the inputs are scheduled. -/
def ItemsAmong (request : Request H) (inputIds : List Nat) (mmHashes : List String) : Prop :=
  ∀ inputId ∈ inputIds, ∃ feature, request.mmFeatures[inputId]? = some feature ∧
    feature.identifier ∈ mmHashes

/-- The inputs that a pass takes. -/
def taken (pass : EncoderPass) : List Nat :=
  pass.encoderInputsToSchedule ++ pass.externalLoadEncoderInput

/-- What a pass has collected: inputs whose items are not cached, and other
occurrences of the same items. -/
structure Collected (request : Request H) (pass : EncoderPass) : Prop where
  uncached : ∀ mmHash ∈ pass.mmHashesToSchedule, pass.manager.cached.get? mmHash = none
  taken : ItemsAmong request pass.taken pass.mmHashesToSchedule
  listed : ∀ mmHash ∈ pass.mmHashesToSchedule, ∃ inputId ∈ pass.taken, ∃ feature,
    request.mmFeatures[inputId]? = some feature ∧ feature.identifier = mmHash
  repeated : ItemsAmong request pass.repeatedInputs pass.mmHashesToSchedule

variable {pass next : EncoderPass} {feature : MultiModalFeatureSpec} {inputId : Nat} {stop : Bool}

variable {manager : EncoderCacheManager}

theorem Collected.setManager (collected : pass.Collected request)
    (added : AddsNone pass.manager manager) :
    Collected request { pass with manager := manager } :=
  ⟨fun mmHash member => added mmHash (collected.uncached mmHash member), collected.taken,
    collected.listed, collected.repeated⟩

theorem mem_taken_take {other : Nat} :
    other ∈ (pass.take window feature inputId).taken ↔ other = inputId ∨ other ∈ pass.taken := by
  unfold take EncoderPass.taken
  split
  · simp only [List.mem_append, List.mem_singleton]
    tauto
  · simp only [List.mem_append, List.mem_singleton]
    tauto

theorem take_eq (pass : EncoderPass) (window : EncoderWindow) (feature : MultiModalFeatureSpec)
    (inputId : Nat) :
    (pass.take window feature inputId).manager = pass.manager ∧
      (pass.take window feature inputId).mmHashesToSchedule =
        pass.mmHashesToSchedule ++ [feature.identifier] ∧
      (pass.take window feature inputId).repeatedInputs = pass.repeatedInputs ∧
      (pass.take window feature inputId).reportedCached = pass.reportedCached := by
  unfold take
  split
  · exact ⟨rfl, rfl, rfl, rfl⟩
  · exact ⟨rfl, rfl, rfl, rfl⟩

theorem Collected.take (collected : pass.Collected request)
    (placed : request.mmFeatures[inputId]? = some feature)
    (uncached : pass.manager.cached.get? feature.identifier = none) :
    (pass.take window feature inputId).Collected request := by
  rcases take_eq pass window feature inputId with ⟨manager, hashes, repeated, _⟩
  constructor
  · rw [manager, hashes]
    intro mmHash member
    rcases List.mem_append.mp member with earlier | last
    · exact collected.uncached mmHash earlier
    · rw [List.mem_singleton.mp last]
      exact uncached
  · rw [hashes]
    intro other member
    rcases mem_taken_take.mp member with rfl | earlier
    · exact ⟨feature, placed, List.mem_append_right _ (List.mem_singleton_self _)⟩
    · rcases collected.taken other earlier with ⟨found, located, member⟩
      exact ⟨found, located, List.mem_append_left _ member⟩
  · rw [hashes]
    intro mmHash member
    rcases List.mem_append.mp member with earlier | last
    · rcases collected.listed mmHash earlier with ⟨other, inside, found⟩
      exact ⟨other, mem_taken_take.mpr (.inr inside), found⟩
    · exact ⟨inputId, mem_taken_take.mpr (.inl rfl), feature, placed,
        (List.mem_singleton.mp last).symm⟩
  · rw [repeated, hashes]
    intro other member
    rcases collected.repeated other member with ⟨found, located, member⟩
    exact ⟨found, located, List.mem_append_left _ member⟩

theorem canAllocate_addsNone {next : EncoderCacheManager} {encoderComputeBudget : Int}
    {numEmbedsToSchedule : Nat} {fits : Bool}
    (ran : manager.canAllocate request inputId encoderComputeBudget numEmbedsToSchedule =
      .ok (fits, next)) : AddsNone manager next := by
  rcases canAllocate_eq_ok ran with rfl | ⟨_, _, evicting⟩
  · exact .refl _
  · exact evictFreeable_addsNone evicting

/-- The round of an input that is not cached. -/
theorem visitUncached_spec
    (ran : pass.visitUncached window request feature inputId = .ok (stop, next)) :
    ∃ manager numNewTokens, (manager = pass.manager ∨ ∃ budget embeds fits,
        pass.manager.canAllocate request inputId budget embeds = .ok (fits, manager)) ∧
      (next = { pass with manager := manager, numNewTokens := numNewTokens } ∨
        next = { pass with manager := manager }.take window feature inputId) := by
  unfold visitUncached at ran
  dsimp only at ran
  split at ran
  · cases ran
    exact ⟨_, _, .inl rfl, .inl rfl⟩
  · rcases bind_eq_ok.mp ran with ⟨⟨fits, manager⟩, asked, ran⟩
    split at ran
    · split at ran
      · cases ran
        exact ⟨manager, _, .inr ⟨_, _, _, asked⟩, .inl rfl⟩
      · cases ran
        exact ⟨manager, pass.numNewTokens, .inr ⟨_, _, _, asked⟩, .inr rfl⟩
    · cases ran
      exact ⟨manager, _, .inr ⟨_, _, _, asked⟩, .inl rfl⟩

/-- A round of the loop collects. -/
theorem Collected.visit (collected : pass.Collected request)
    (ran : pass.visit window request inputId = .ok (stop, next)) :
    next.Collected request ∧ AddsNone pass.manager next.manager := by
  rcases bind_eq_ok.mp ran with ⟨feature, located, ran⟩
  have placed := pyIndex_eq_ok.mp located
  split at ran
  · rename_i scheduled
    cases ran
    refine ⟨⟨collected.uncached, collected.taken, collected.listed, ?_⟩, .refl _⟩
    intro other member
    rcases List.mem_append.mp member with earlier | last
    · exact collected.repeated other earlier
    · rw [List.mem_singleton.mp last]
      exact ⟨feature, placed, scheduled⟩
  · rcases bind_eq_ok.mp ran with ⟨⟨cached, manager⟩, checked, ran⟩
    rcases checkAndUpdateCache_addsNone checked with ⟨added, found, foundPlaced, missed⟩
    have seen := collected.setManager added
    dsimp only at ran
    split at ran
    · cases ran
      exact ⟨⟨seen.uncached, seen.taken, seen.listed, seen.repeated⟩, added⟩
    · rename_i uncached
      rcases visitUncached_spec ran with ⟨after, numNewTokens, answered, shape⟩
      have addedAfter : AddsNone manager after := by
        rcases answered with rfl | ⟨_, _, _, asked⟩
        · exact .refl _
        · exact canAllocate_addsNone asked
      have kept := collected.setManager (added.trans addedAfter)
      rcases shape with rfl | rfl
      · exact ⟨⟨kept.uncached, kept.taken, kept.listed, kept.repeated⟩, added.trans addedAfter⟩
      · rw [placed] at foundPlaced
        cases foundPlaced
        have still := addedAfter _ (missed (by simpa using uncached))
        have both : AddsNone pass.manager after := added.trans addedAfter
        refine ⟨kept.take placed still, ?_⟩
        rw [(take_eq ..).1]
        exact both

/-- What every round keeps, the loop keeps. -/
theorem visitAll_rule (property : EncoderPass → Prop) {inputIds : List Nat}
    (kept : ∀ pass next stop, ∀ inputId ∈ inputIds, property pass →
      EncoderPass.visit pass window request inputId = .ok (stop, next) → property next)
    (holds : property pass) (ran : visitAll window request inputIds pass = .ok next) :
    property next := by
  induction inputIds generalizing pass with
  | nil =>
      cases ran
      exact holds
  | cons inputId rest ih =>
      rcases bind_eq_ok.mp ran with ⟨⟨stop, after⟩, round, ran⟩
      have holds := kept pass after stop inputId List.mem_cons_self holds round
      dsimp only at ran
      split at ran
      · cases ran
        exact holds
      · exact ih (fun pass next stop other member =>
          kept pass next stop other (List.mem_cons_of_mem _ member)) holds ran

/-- Without an external cache nothing is loaded from outside. -/
theorem visit_external (internal : ∀ mmHash, window.hasCacheItem mmHash = false)
    (none : pass.externalLoadEncoderInput = [])
    (ran : pass.visit window request inputId = .ok (stop, next)) :
    next.externalLoadEncoderInput = [] := by
  rcases bind_eq_ok.mp ran with ⟨feature, _, ran⟩
  split at ran
  · cases ran
    exact none
  · rcases bind_eq_ok.mp ran with ⟨⟨cached, manager⟩, _, ran⟩
    dsimp only at ran
    split at ran
    · cases ran
      exact none
    · rcases visitUncached_spec ran with ⟨after, numNewTokens, _, rfl | rfl⟩
      · exact none
      · unfold EncoderPass.take
        rw [if_neg (by rw [internal]; exact Bool.false_ne_true)]
        exact none

/-- A round keeps the references, and the request refers to what is reported. -/
theorem visit_keeps (tidy : pass.manager.Tidy)
    (ran : pass.visit window request inputId = .ok (stop, next)) :
    Keeps pass.manager next.manager ∧
      ∀ other ∈ next.reportedCached, other ∈ pass.reportedCached ∨
        ∃ feature, request.mmFeatures[other]? = some feature ∧
          next.manager.Refers request.requestId feature.identifier := by
  rcases bind_eq_ok.mp ran with ⟨feature, _, ran⟩
  split at ran
  · cases ran
    exact ⟨.refl tidy, fun _ member => .inl member⟩
  · rcases bind_eq_ok.mp ran with ⟨⟨cached, manager⟩, checked, ran⟩
    rcases checkAndUpdateCache_keeps tidy checked with ⟨kept, hit⟩
    dsimp only at ran
    split at ran
    · rename_i found
      cases ran
      refine ⟨kept, ?_⟩
      intro other member
      rcases List.mem_append.mp member with earlier | last
      · exact .inl earlier
      · rw [List.mem_singleton.mp last]
        exact .inr (hit found)
    · rcases visitUncached_spec ran with ⟨after, numNewTokens, answered, shape⟩
      have keptAfter : Keeps manager after := by
        rcases answered with rfl | ⟨_, _, _, asked⟩
        · exact .refl kept.tidy
        · rcases canAllocate_eq_ok asked with rfl | ⟨_, _, evicting⟩
          · exact .refl kept.tidy
          · exact evictFreeable_keeps kept.tidy evicting
      rcases shape with rfl | rfl
      · exact ⟨kept.trans keptAfter, fun _ member => .inl member⟩
      · rcases take_eq { pass with manager := after } window feature inputId with
          ⟨same, _, _, reported⟩
        rw [same, reported]
        exact ⟨kept.trans keptAfter, fun _ member => .inl member⟩

end EncoderPass

section Trying

open EncoderCacheManager

variable {H : Type} {manager : EncoderCacheManager} {request : Request H}
  {numComputedTokens shiftComputedTokens : Nat} {numNewTokens encoderComputeBudget : Int}
  {disableChunkedMmInput : Bool} {hasCacheItem : String → Bool} {encoder : EncoderPass}

/-- What `_try_schedule_encoder_inputs` has collected. -/
theorem tryScheduleEncoderInputs_collects
    (ran : tryScheduleEncoderInputs manager request numComputedTokens numNewTokens
      encoderComputeBudget shiftComputedTokens disableChunkedMmInput hasCacheItem = .ok encoder) :
    encoder.Collected request ∧ AddsNone manager encoder.manager ∧
      ((∀ mmHash, hasCacheItem mmHash = false) → encoder.externalLoadEncoderInput = []) := by
  unfold tryScheduleEncoderInputs at ran
  have nothing : EncoderPass.Collected request
      { manager := manager
        numNewTokens := numNewTokens
        encoderComputeBudget := encoderComputeBudget } :=
    ⟨nofun, nofun, nofun, nofun⟩
  split at ran
  · cases ran
    exact ⟨nothing, .refl _, fun _ => rfl⟩
  · have collected := EncoderPass.visitAll_rule
      (fun pass => pass.Collected request ∧ AddsNone manager pass.manager)
      (fun pass next stop inputId _ kept round =>
        ⟨(kept.1.visit round).1, kept.2.trans (kept.1.visit round).2⟩)
      ⟨nothing, .refl _⟩ ran
    refine ⟨collected.1, collected.2, fun internal => ?_⟩
    exact EncoderPass.visitAll_rule (fun pass => pass.externalLoadEncoderInput = [])
      (fun pass next stop inputId _ none round => EncoderPass.visit_external internal none round)
      rfl ran

/-- `_try_schedule_encoder_inputs` keeps the references, and the request refers to
what is reported as cached. -/
theorem tryScheduleEncoderInputs_keeps (tidy : manager.Tidy)
    (ran : tryScheduleEncoderInputs manager request numComputedTokens numNewTokens
      encoderComputeBudget shiftComputedTokens disableChunkedMmInput hasCacheItem = .ok encoder) :
    Keeps manager encoder.manager ∧
      ∀ inputId ∈ encoder.reportedCached, ∃ feature, request.mmFeatures[inputId]? = some feature ∧
          encoder.manager.Refers request.requestId feature.identifier := by
  unfold tryScheduleEncoderInputs at ran
  split at ran
  · cases ran
    exact ⟨.refl tidy, fun _ member => absurd member List.not_mem_nil⟩
  · refine EncoderPass.visitAll_rule
      (fun pass => Keeps manager pass.manager ∧
        ∀ inputId ∈ pass.reportedCached, ∃ feature, request.mmFeatures[inputId]? = some feature ∧
            pass.manager.Refers request.requestId feature.identifier)
      ?_ ⟨.refl tidy, fun _ member => absurd member List.not_mem_nil⟩ ran
    rintro pass next stop inputId _ ⟨kept, reported⟩ round
    rcases EncoderPass.visit_keeps kept.tidy round with ⟨keptRound, hits⟩
    refine ⟨kept.trans keptRound, ?_⟩
    intro other member
    rcases hits other member with earlier | hit
    · rcases reported other earlier with ⟨feature, placed, refers⟩
      exact ⟨feature, placed, keptRound.refers _ _ refers⟩
    · exact hit

end Trying

end Vllm.Core
