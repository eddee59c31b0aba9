import Vllm.Engine.OutputProcessor

/-!
# The index of external ids

Each external id lists the internal ids of its requests, each once, and no list is empty.
-/

namespace Vllm.Engine

open Vllm.Core Vllm.Library

/-- Each external id lists the internal ids that it owns, each once. -/
structure Indexes (externalReqIds : Dict String (List RequestId))
    (owner : RequestId → Option String) : Prop where
  nonempty : ∀ externalReqId, externalReqIds.get? externalReqId ≠ some []
  distinct : ∀ externalReqId, (externalReqIds.getD externalReqId []).Nodup
  exact_ : ∀ externalReqId requestId,
    requestId ∈ externalReqIds.getD externalReqId [] ↔ owner requestId = some externalReqId

namespace Indexes

variable {externalReqIds : Dict String (List RequestId)} {owner : RequestId → Option String}
  {requestId : RequestId} {externalReqId : String}

theorem congr_owner {other : RequestId → Option String} (indexes : Indexes externalReqIds owner)
    (same : ∀ requestId, other requestId = owner requestId) : Indexes externalReqIds other where
  nonempty := indexes.nonempty
  distinct := indexes.distinct
  exact_ := by
    intro externalReqId requestId
    rw [indexes.exact_, same]

/-- A new request is listed. -/
theorem add (indexes : Indexes externalReqIds owner) (fresh : owner requestId = none) :
    Indexes (externalReqIds.insert externalReqId
        (externalReqIds.getD externalReqId [] ++ [requestId]))
      (Function.update owner requestId (some externalReqId)) := by
  have absent : ∀ name, requestId ∉ externalReqIds.getD name [] := by
    intro name member
    rw [indexes.exact_, fresh] at member
    cases member
  constructor
  · intro name
    rw [Dict.get?_insert]
    split
    · simp
    · exact indexes.nonempty name
  · intro name
    by_cases own : externalReqId = name
    · subst own
      rw [Dict.getD_insert_self, List.nodup_append]
      refine ⟨indexes.distinct _, List.nodup_singleton _, ?_⟩
      rintro _ member _ new rfl
      rw [List.mem_singleton] at new
      exact absent _ (new ▸ member)
    · rw [Dict.getD_insert_of_ne _ _ _ own]
      exact indexes.distinct name
  · intro name other
    by_cases mine : other = requestId
    · subst mine
      by_cases own : externalReqId = name
      · subst own
        simp [Dict.getD_insert_self]
      · rw [Dict.getD_insert_of_ne _ _ _ own]
        simp [absent, own]
    · rw [Function.update_of_ne mine, ← indexes.exact_]
      by_cases own : externalReqId = name
      · subst own
        simp [Dict.getD_insert_self, mine]
      · rw [Dict.getD_insert_of_ne _ _ _ own]

/-- A request is taken out of its list. -/
theorem remove (indexes : Indexes externalReqIds owner)
    (owned : owner requestId = some externalReqId) :
    pyRemove (externalReqIds.getD externalReqId []) requestId =
        .ok ((externalReqIds.getD externalReqId []).erase requestId) ∧
      Indexes
        (if ((externalReqIds.getD externalReqId []).erase requestId).isEmpty then
          externalReqIds.erase externalReqId
        else externalReqIds.insert externalReqId
          ((externalReqIds.getD externalReqId []).erase requestId))
        (Function.update owner requestId none) := by
  have member := (indexes.exact_ externalReqId requestId).mpr owned
  have distinct := indexes.distinct externalReqId
  constructor
  · rw [pyRemove, if_pos member]
  · -- Both branches read as the shorter list.
    generalize changed : (if ((externalReqIds.getD externalReqId []).erase requestId).isEmpty then
        externalReqIds.erase externalReqId
      else externalReqIds.insert externalReqId
        ((externalReqIds.getD externalReqId []).erase requestId)) = after
    have here : after.getD externalReqId [] =
        (externalReqIds.getD externalReqId []).erase requestId := by
      rw [← changed]
      split
      · rename_i empty
        rw [Dict.getD_erase_self, List.isEmpty_iff.mp empty]
      · exact Dict.getD_insert_self ..
    have there : ∀ name, externalReqId ≠ name → after.get? name = externalReqIds.get? name := by
      intro name differ
      rw [← changed]
      split
      · exact Dict.get?_erase_of_ne _ differ
      · exact Dict.get?_insert_of_ne _ _ differ
    constructor
    · intro name
      by_cases own : externalReqId = name
      · subst own
        rw [← changed]
        split
        · simp
        · rename_i some_
          rw [Dict.get?_insert_self]
          intro empty
          cases empty_ : (externalReqIds.getD externalReqId []).erase requestId with
          | nil => exact some_ (by rw [empty_]; rfl)
          | cons first rest =>
              rw [empty_] at empty
              cases empty
      · rw [there name own]
        exact indexes.nonempty name
    · intro name
      by_cases own : externalReqId = name
      · subst own
        rw [here]
        exact distinct.erase _
      · rw [Dict.getD, there name own]
        exact indexes.distinct name
    · intro name other
      by_cases own : externalReqId = name
      · subst own
        rw [here, distinct.mem_erase_iff, indexes.exact_]
        by_cases mine : other = requestId
        · simp [mine]
        · simp [mine]
      · rw [Dict.getD, there name own, ← Dict.getD, indexes.exact_]
        by_cases mine : other = requestId
        · subst mine
          rw [Function.update_self, owned]
          simp [own]
        · rw [Function.update_of_ne mine]

/-- All requests of an external id leave the index. -/
theorem pop (indexes : Indexes externalReqIds owner) (externalReqId : String) :
    Indexes (externalReqIds.erase externalReqId)
      (fun requestId => if owner requestId = some externalReqId then none else owner requestId) := by
  constructor
  · intro name
    rw [Dict.get?_erase]
    split
    · simp
    · exact indexes.nonempty name
  · intro name
    by_cases own : externalReqId = name
    · subst own
      rw [Dict.getD_erase_self]
      exact List.nodup_nil
    · rw [Dict.getD_erase_of_ne _ _ own]
      exact indexes.distinct name
  · intro name other
    by_cases own : externalReqId = name
    · subst own
      by_cases mine : owner other = some externalReqId <;> simp [mine]
    · rw [Dict.getD_erase_of_ne _ _ own, indexes.exact_]
      by_cases mine : owner other = some externalReqId
      · simp [mine, own]
      · simp [mine]

end Indexes

namespace OutputProcessor

variable {π : Payload} {ρ : Processing π} {κ : Type}

/-- The external id of a request. -/
def owner (processor : OutputProcessor ρ κ) (requestId : RequestId) : Option String :=
  (processor.requestStates.get? requestId).map RequestState.externalReqId

variable {known : RequestId → Option String}

/-- A listed request is unlisted. -/
theorem unlist_ok (processor : OutputProcessor ρ κ)
    (indexes : Indexes processor.externalReqIds known) {state : RequestState ρ κ}
    {requestId : RequestId} (owned : known requestId = some state.externalReqId) :
    ∃ externalReqIds, processor.unlist state requestId = .ok { processor with externalReqIds } ∧
        Indexes externalReqIds (Function.update known requestId none) := by
  rcases indexes.remove owned with ⟨removed, after⟩
  refine ⟨_, ?_, after⟩
  rw [unlist, removed]
  rfl

/-- The first loop of an abort by internal ids. -/
theorem unlistAll_ok (processor : OutputProcessor ρ κ) (requestIds : List RequestId)
    (indexes : Indexes processor.externalReqIds known)
    (listed : ∀ requestId ∈ requestIds, known requestId = processor.owner requestId)
    (distinct : (requestIds.filter fun requestId =>
      (processor.requestStates.get? requestId).isSome).Nodup) :
    ∃ externalReqIds, processor.unlistAll requestIds = .ok { processor with externalReqIds } ∧
        Indexes externalReqIds
          (fun requestId => if requestId ∈ requestIds then none else known requestId) := by
  induction requestIds generalizing processor known with
  | nil => exact ⟨_, rfl, indexes.congr_owner fun _ => by simp⟩
  | cons requestId rest inductionHypothesis =>
      rw [unlistAll, List.foldlM_cons]
      cases found : processor.requestStates.get? requestId with
      | none =>
          rw [List.filter_cons_of_neg (by simp [found])] at distinct
          rcases inductionHypothesis processor indexes
            (fun other member => listed other (List.mem_cons_of_mem _ member)) distinct with
            ⟨externalReqIds, ran, after⟩
          refine ⟨externalReqIds, ran, after.congr_owner ?_⟩
          intro other
          by_cases mine : other = requestId
          · subst mine
            have absent := listed other List.mem_cons_self
            rw [owner, found] at absent
            simp [absent]
          · simp [mine]
      | some state =>
          rw [List.filter_cons_of_pos (by simp [found]), List.nodup_cons] at distinct
          have owned := listed requestId List.mem_cons_self
          rw [owner, found] at owned
          rcases unlist_ok processor indexes owned with ⟨externalReqIds, unlisted, after⟩
          have later : requestId ∉ rest := by
            intro member
            apply distinct.1
            rw [List.mem_filter]
            exact ⟨member, by simp [found]⟩
          rcases inductionHypothesis { processor with externalReqIds } after (by
            intro other member
            have differ : other ≠ requestId := by
              rintro rfl
              exact later member
            rw [Function.update_of_ne differ]
            exact listed other (List.mem_cons_of_mem _ member)) distinct.2 with
            ⟨externalReqIds', ran, after'⟩
          refine ⟨externalReqIds', ?_, after'.congr_owner ?_⟩
          · simp only [bind, Except.bind, unlisted]
            exact ran
          · intro other
            by_cases mine : other = requestId
            · subst mine
              simp
            · simp [mine]

end OutputProcessor

end Vllm.Engine
