import Vllm.Engine.ProcessorCalls

/-!
# Aborting requests

An abort by internal ids takes the listed requests and the children of the listed parents; one by
external ids takes all requests of these ids.
-/

namespace Vllm.Engine

open Vllm.Core Vllm.Library RequestState

variable {π : Payload} {ρ : Processing π} {κ : Type}

namespace OutputProcessor

variable {requestId : RequestId}

/-- An aborted request leaves the states, and its parent if it has a collector to tell. -/
theorem abortState_ok (empty : π.Pooling) {processed : Processed ρ κ} {state : RequestState ρ κ}
    (ready : state.Ready processed.processor.parents requestId)
    (typed : ∀ id parent, processed.processor.parents.get? id = some parent → parent.Typed id) :
    ∃ parents reports reqsToAbort, abortState empty processed state requestId =
        .ok { processor := { processed.processor with
                requestStates := processed.processor.requestStates.erase requestId
                parents }
              reports, reqsToAbort } ∧
      Releases processed.processor.parents parents
        fun other => state.queue.isSome ∧ other = requestId := by
  unfold abortState
  cases queue : state.queue with
  | none => exact ⟨_, _, _, rfl, (Releases.refl _).congr (by simp)⟩
  | some consumer =>
      have kind : (if state.processors.isNone then some empty else none : Option π.Pooling).isSome =
          state.processors.isNone := by
        cases state.processors <;> rfl
      rcases makeRequestOutput_ok ready typed [] kind (some .abort) none none none with
        ⟨report, after, parents, made, _, releases⟩
      simp only [made, bind, Except.bind]
      exact ⟨_, _, _, rfl, releases.congr (by simp)⟩

/-- The children of a parent are aborted one after the other. -/
theorem abortListed_ok (empty : π.Pooling) (processed : Processed ρ κ) (children : List RequestId)
    (ready : ∀ requestId state, processed.processor.requestStates.get? requestId = some state →
      state.Ready processed.processor.parents requestId)
    (typed : ∀ id parent, processed.processor.parents.get? id = some parent → parent.Typed id) :
    ∃ requestStates parents reports reqsToAbort released,
      children.foldlM (abortListed empty) processed =
        .ok { processor := { processed.processor with requestStates, parents }
              reports, reqsToAbort } ∧
      (∀ requestId, requestStates.get? requestId =
        if requestId ∈ children then none
        else processed.processor.requestStates.get? requestId) ∧
      Releases processed.processor.parents parents released ∧
      (∀ requestId, released requestId → requestId ∈ children) ∧
      ∀ requestId ∈ children, ∀ state,
        processed.processor.requestStates.get? requestId = some state → state.queue.isSome →
          released requestId := by
  induction children generalizing processed with
  | nil =>
      refine ⟨_, _, _, _, _, rfl, fun _ => by simp, .refl _, fun _ => False.elim, ?_⟩
      rintro requestId ⟨⟩
  | cons child rest inductionHypothesis =>
      rw [List.foldlM_cons, abortListed]
      cases found : processed.processor.requestStates.get? child with
      | none =>
          rcases inductionHypothesis processed ready typed with
            ⟨states, parents, reports, aborts, released, ran, gone, releases, inside, told⟩
          refine ⟨states, parents, reports, aborts, released, ran, ?_, releases,
            fun other is => List.mem_cons_of_mem _ (inside other is), ?_⟩
          · intro other
            rw [gone]
            by_cases same : other = child
            · subst same
              simp [found]
            · simp [same]
          · intro other member state otherFound
            rcases List.mem_cons.mp member with rfl | member
            · rw [found] at otherFound
              cases otherFound
            · exact told other member state otherFound
      | some state =>
          rcases abortState_ok empty (ready child state found) typed with
            ⟨parents, reports, aborts, aborted, releases⟩
          simp only [bind, Except.bind, aborted]
          have left : ∀ other, (processed.processor.requestStates.erase child).get? other =
              if other = child then none else processed.processor.requestStates.get? other := by
            intro other
            rw [Dict.get?_erase]
            by_cases same : child = other
            · simp [same]
            · simp [same, Ne.symm same]
          rcases inductionHypothesis
            { processor := { processed.processor with
                requestStates := processed.processor.requestStates.erase child
                parents }
              reports, reqsToAbort := aborts } (by
              intro other otherState otherFound
              simp only [left] at otherFound
              split at otherFound
              · cases otherFound
              · rename_i differ
                exact (ready other otherState otherFound).releases releases fun is => differ is.2)
            (fun id parent there => releases.typed typed there) with
            ⟨states, parents', reports', aborts', released, ran, gone, releases', inside, told⟩
          refine ⟨states, parents', reports', aborts', _, ran, ?_, releases.trans releases', ?_, ?_⟩
          · intro other
            rw [gone]
            simp only [left]
            by_cases same : other = child <;> simp [same]
          · rintro other (is | is)
            · exact is.2 ▸ List.mem_cons_self
            · exact List.mem_cons_of_mem _ (inside other is)
          · intro other member otherState otherFound queued
            by_cases same : other = child
            · subst same
              rw [found] at otherFound
              cases otherFound
              exact Or.inl ⟨queued, rfl⟩
            · have later := (List.mem_cons.mp member).resolve_left same
              apply Or.inr
              apply told other later otherState _ queued
              simp only [left, same, if_false]
              exact otherFound

/-! ## The requests that an abort takes -/

/-- The requests that are gone after some of the listed ids. -/
def Gone (processor : OutputProcessor ρ κ) (done : List RequestId) (requestId : RequestId) : Prop :=
  requestId ∈ done ∨ ∃ id, .request id ∈ done ∧ processor.parentRequests.contains id ∧
    requestId.parent? = some id

/-- The second loop of an abort has gone through some of the ids and has the others before it. -/
structure Aborting (processor : OutputProcessor ρ κ) (done rest : List RequestId)
    (processed : Processed ρ κ) : Prop where
  index : Indexes processed.processor.externalReqIds fun requestId =>
    if requestId ∈ rest then none else processed.processor.owner requestId
  gone : ∀ requestId, processor.Gone done requestId →
    processed.processor.requestStates.get? requestId = none
  stays : ∀ requestId, ¬ processor.Gone done requestId →
    processed.processor.requestStates.get? requestId = processor.requestStates.get? requestId
  registry : ∀ id, processed.processor.parentRequests.get? id =
    if .request id ∈ done then none else processor.parentRequests.get? id
  releases : ∃ released, Releases processor.parents processed.processor.parents released ∧
    (∀ requestId, released requestId → processor.Gone done requestId) ∧
    ∀ requestId ∈ done, ∀ state, processor.requestStates.get? requestId = some state →
      state.queue.isSome → released requestId
  streamInterval : processed.processor.streamInterval = processor.streamInterval

variable {processor : OutputProcessor ρ κ}

theorem gone_concat {done : List RequestId} {last : RequestId} :
    processor.Gone (done ++ [last]) requestId ↔
      processor.Gone done requestId ∨ requestId = last ∨
        ∃ id, last = .request id ∧ processor.parentRequests.contains id ∧
          requestId.parent? = some id := by
  simp only [Gone, List.mem_append, List.mem_singleton]
  constructor
  · rintro ((member | same) | ⟨id, member | same, rest⟩)
    · exact Or.inl (Or.inl member)
    · exact Or.inr (Or.inl same)
    · exact Or.inl (Or.inr ⟨id, member, rest⟩)
    · exact Or.inr (Or.inr ⟨id, same.symm, rest⟩)
  · rintro ((member | ⟨id, member, rest⟩) | same | ⟨id, same, rest⟩)
    · exact Or.inl (Or.inl member)
    · exact Or.inr ⟨id, Or.inl member, rest⟩
    · exact Or.inl (Or.inr same)
    · exact Or.inr ⟨id, Or.inr same.symm, rest⟩

/-- A parent has no request of its own. -/
theorem Sound.not_live_parent (sound : Sound processor) {id : String}
    (registered : processor.parentRequests.contains id) : ¬ processor.Live (.request id) := by
  rcases (sound.registry id).mp registered with ⟨requestId, live, child⟩
  rcases live.state with ⟨state, found⟩
  have ready := sound.ready requestId state found
  rcases ready.child id (ready.parentReq.trans child) with ⟨-, parent, there, -⟩
  exact sound.apart id parent there

section Loop

variable {processor : OutputProcessor ρ κ} {done rest : List RequestId} {requestId : RequestId}
  {processed : Processed ρ κ}

variable {state : RequestState ρ κ}

theorem Aborting.ready (aborting : Aborting processor done rest processed) (sound : Sound processor)
    {other : RequestId} (found : processed.processor.requestStates.get? other = some state) :
    ¬ processor.Gone done other ∧ processor.requestStates.get? other = some state ∧
      state.Ready processed.processor.parents other := by
  have here : ¬ processor.Gone done other := by
    intro gone
    rw [aborting.gone other gone] at found
    cases found
  have before := (aborting.stays other here).symm.trans found
  rcases aborting.releases with ⟨released, releases, inside, -⟩
  exact ⟨here, before,
    (sound.ready other state before).releases releases fun is => here (inside other is)⟩

variable {id : String}

theorem Aborting.typed (aborting : Aborting processor done rest processed) (sound : Sound processor)
    {parent : ParentRequest π} (there : processed.processor.parents.get? id = some parent) :
    parent.Typed id := by
  rcases aborting.releases with ⟨released, releases, -⟩
  exact releases.typed sound.typed there

/-- A listed request is aborted. -/
theorem Aborting.take (aborting : Aborting processor done (requestId :: rest) processed)
    (sound : Sound processor) (empty : π.Pooling)
    (found : processed.processor.requestStates.get? requestId = some state) :
    ∃ after, abortState empty processed state requestId = .ok after ∧
      Aborting processor (done ++ [requestId]) rest after := by
  rcases aborting.ready sound found with ⟨here, before, ready⟩
  rcases abortState_ok empty ready (fun id parent there => aborting.typed sound there) with
    ⟨parents, reports, aborts, aborted, releases⟩
  have left : ∀ other, (processed.processor.requestStates.erase requestId).get? other =
      if other = requestId then none else processed.processor.requestStates.get? other := by
    intro other
    rw [Dict.get?_erase]
    by_cases same : requestId = other
    · simp [same]
    · simp [same, Ne.symm same]
  -- A request that is served is no parent.
  have single : ∀ id, requestId = .request id → ¬ processor.parentRequests.contains id := by
    rintro id rfl registered
    exact sound.not_live_parent registered (live_of_get? before)
  have gone : ∀ other, processor.Gone (done ++ [requestId]) other ↔
      processor.Gone done other ∨ other = requestId := by
    intro other
    rw [gone_concat]
    constructor
    · rintro (gone | same | ⟨id, same, registered, -⟩)
      · exact Or.inl gone
      · exact Or.inr same
      · exact absurd registered (single id same)
    · rintro (gone | same)
      · exact Or.inl gone
      · exact Or.inr (Or.inl same)
  refine ⟨_, aborted, ?_⟩
  constructor
  · apply aborting.index.congr_owner
    intro other
    rw [owner, left]
    by_cases same : other = requestId
    · simp [same]
    · simp only [same, if_false, List.mem_cons, false_or]
      rfl
  · intro other is
    rw [left]
    rcases (gone other).mp is with before | same
    · rw [aborting.gone other before, ite_self]
    · rw [if_pos same]
  · intro other not_
    rw [gone, not_or] at not_
    rw [left, if_neg not_.2, aborting.stays other not_.1]
  · intro id
    rw [aborting.registry]
    by_cases same : requestId = .request id
    · have unregistered := single id same
      have none_ : processor.parentRequests.get? id = none := by
        simpa [Dict.contains] using unregistered
      simp [same, none_]
    · simp [Ne.symm same]
  · rcases aborting.releases with ⟨released, releases', inside, told⟩
    refine ⟨_, releases'.trans releases, ?_, ?_⟩
    · rintro other (is | is)
      · exact (gone other).mpr (Or.inl (inside other is))
      · exact (gone other).mpr (Or.inr is.2)
    · intro other member otherState otherFound queued
      rcases List.mem_append.mp member with earlier | last
      · exact Or.inl (told other earlier otherState otherFound queued)
      · rw [List.mem_singleton] at last
        subst last
        rw [before] at otherFound
        cases otherFound
        exact Or.inr ⟨queued, rfl⟩
  · exact aborting.streamInterval

/-- An id that is served no more is passed over. -/
theorem Aborting.pass (aborting : Aborting processor done (requestId :: rest) processed)
    (absent : processed.processor.requestStates.get? requestId = none)
    (late : processor.Live requestId → requestId ∈ done)
    (parent : ∀ id, requestId = .request id → processor.parentRequests.contains id →
      .request id ∈ done) : Aborting processor (done ++ [requestId]) rest processed := by
  have gone : ∀ other, processor.Gone (done ++ [requestId]) other ↔
      processor.Gone done other ∨ other = requestId := by
    intro other
    rw [gone_concat]
    constructor
    · rintro (gone | same | ⟨id, same, registered, child⟩)
      · exact Or.inl gone
      · exact Or.inr same
      · exact Or.inl (Or.inr ⟨id, parent id same registered, registered, child⟩)
    · rintro (gone | same)
      · exact Or.inl gone
      · exact Or.inr (Or.inl same)
  constructor
  · apply aborting.index.congr_owner
    intro other
    by_cases same : other = requestId
    · subst same
      rw [owner, absent]
      simp
    · simp [same]
  · intro other is
    rcases (gone other).mp is with before | rfl
    · exact aborting.gone other before
    · exact absent
  · intro other not_
    rw [gone, not_or] at not_
    exact aborting.stays other not_.1
  · intro id
    rw [aborting.registry]
    by_cases same : requestId = .request id
    · cases registered : processor.parentRequests.contains id with
      | true =>
          have named := parent id same registered
          simp [named]
      | false =>
          have none_ : processor.parentRequests.get? id = none := by
            simpa [Dict.contains] using registered
          simp [none_]
    · simp [Ne.symm same]
  · rcases aborting.releases with ⟨released, releases, inside, told⟩
    refine ⟨released, releases, fun other is => (gone other).mpr (Or.inl (inside other is)), ?_⟩
    intro other member state found queued
    rcases List.mem_append.mp member with earlier | last
    · exact told other earlier state found queued
    · rw [List.mem_singleton] at last
      subst last
      exact told other (late (live_of_get? found)) state found queued
  · exact aborting.streamInterval

/-- A listed parent takes its children with it. -/
theorem Aborting.parent (aborting : Aborting processor done (.request id :: rest) processed)
    (sound : Sound processor) (empty : π.Pooling)
    (registered : processed.processor.parentRequests.contains id)
    (behind : ∀ child ∈ rest, processor.Live child → child.parent? ≠ some id) :
    ∃ after, abortChildren empty processed
        ((processed.processor.parents.get? id).elim [] ParentRequest.childRequests) = .ok after ∧
      Aborting processor (done ++ [.request id]) rest
        { after with processor := { after.processor with
            parentRequests := after.processor.parentRequests.erase id } } := by
  have first : processor.parentRequests.contains id ∧ .request id ∉ done := by
    rw [Dict.contains, aborting.registry] at registered
    split at registered
    · cases registered
    · rename_i unnamed
      exact ⟨registered, unnamed⟩
  rcases (sound.registry id).mp first.1 with ⟨witness_, live, child_⟩
  rcases live.state with ⟨witnessState, witnessFound⟩
  have witnessReady := sound.ready witness_ witnessState witnessFound
  rcases witnessReady.child id (witnessReady.parentReq.trans child_) with ⟨-, parent, there, -⟩
  rcases aborting.releases with ⟨released, releases, inside, told⟩
  rcases releases.kept id parent there with ⟨left, found, -, -, -, -, sub, -⟩
  have typed := aborting.typed sound found
  rw [found]
  change ∃ after, abortChildren empty processed left.childRequests = .ok after ∧ _
  -- The children that are still served are those in the set of the parent.
  have children : ∀ child state, processed.processor.requestStates.get? child = some state →
      (child ∈ left.childRequests ↔ child.parent? = some id) := by
    intro child state childFound
    constructor
    · exact typed.children child
    · intro own
      rcases aborting.ready sound childFound with ⟨-, -, ready⟩
      rcases ready.child id (ready.parentReq.trans own) with ⟨-, parent', found', member, -⟩
      rw [found] at found'
      cases found'
      exact member
  rcases unlistAll_ok processed.processor left.childRequests aborting.index (by
    intro child member
    split
    · rename_i listed
      have own := typed.children child member
      rcases List.mem_cons.mp listed with rfl | later
      · cases own
      · cases served : processed.processor.requestStates.get? child with
        | none => rw [owner, served]; rfl
        | some state =>
            rcases aborting.ready sound served with ⟨-, before, -⟩
            exact absurd own (behind child later (live_of_get? before))
    · rfl) (typed.distinct.sublist List.filter_sublist) with ⟨externalReqIds, unlisted, index⟩
  rcases abortListed_ok empty { processed with
      processor := { processed.processor with externalReqIds } } left.childRequests
    (fun child state childFound => (aborting.ready sound childFound).2.2)
    (fun other parent' there' => aborting.typed sound there') with
    ⟨states, parents, reports, aborts, released', ran, gone', releases', inside', told'⟩
  have served : ∀ child, states.get? child =
      if child.parent? = some id then none else processed.processor.requestStates.get? child := by
    intro child
    rw [gone']
    cases known : processed.processor.requestStates.get? child with
    | none => simp
    | some state => simp only [children child state known]
  have gone : ∀ other, processor.Gone (done ++ [.request id]) other ↔
      processor.Gone done other ∨ other = .request id ∨ other.parent? = some id := by
    intro other
    rw [gone_concat]
    simp [first.1]
  have aborted : abortChildren empty processed left.childRequests =
      .ok { processor := { processed.processor with
              externalReqIds, requestStates := states, parents }
            reports, reqsToAbort := aborts } := by
    rw [abortChildren, unlisted]
    exact ran
  refine ⟨_, aborted, ?_⟩
  constructor
  · apply index.congr_owner
    intro other
    rw [owner, served]
    by_cases own : other ∈ left.childRequests
    · simp [own, typed.children other own]
    · rw [if_neg own]
      by_cases later : other ∈ rest
      · simp [later]
      · by_cases same : other = .request id
        · subst same
          have parentless : processed.processor.requestStates.get? (.request id) = none := by
            cases served : processed.processor.requestStates.get? (.request id) with
            | none => rfl
            | some state =>
                rcases aborting.ready sound served with ⟨-, before, -⟩
                exact absurd (live_of_get? before) (sound.not_live_parent first.1)
          simp [later, parentless]
        · simp only [later, List.mem_cons, same, or_self, if_false]
          cases known : processed.processor.requestStates.get? other with
          | none => simp [owner, known]
          | some state =>
              have foreign : other.parent? ≠ some id := fun own' =>
                own ((children other state known).mpr own')
              simp [owner, known, foreign]
  · intro other is
    change states.get? other = none
    rw [served]
    rcases (gone other).mp is with before | rfl | own
    · rw [aborting.gone other before, ite_self]
    · cases known : processed.processor.requestStates.get? (.request id) with
      | none => simp
      | some state =>
          rcases aborting.ready sound known with ⟨-, before, -⟩
          exact absurd (live_of_get? before) (sound.not_live_parent first.1)
    · rw [if_pos own]
  · intro other not_
    rw [gone, not_or, not_or] at not_
    change states.get? other = _
    rw [served, if_neg not_.2.2, aborting.stays other not_.1]
  · intro name
    change (processed.processor.parentRequests.erase id).get? name = _
    rw [Dict.get?_erase, aborting.registry]
    by_cases same : id = name
    · simp [same]
    · simp [same, Ne.symm same]
  · refine ⟨_, releases.trans releases', ?_, ?_⟩
    · rintro other (is | is)
      · exact (gone other).mpr (Or.inl (inside other is))
      · exact (gone other).mpr (Or.inr (Or.inr (typed.children other (inside' other is))))
    · intro other member state otherFound queued
      rcases List.mem_append.mp member with earlier | last
      · exact Or.inl (told other earlier state otherFound queued)
      · rw [List.mem_singleton] at last
        subst last
        exact absurd (live_of_get? otherFound) (sound.not_live_parent first.1)
  · exact aborting.streamInterval

end Loop

/-! ## Aborts that keep the parents -/

/-- The requests that an abort lists. -/
def Taken (processor : OutputProcessor ρ κ) : AbortIds → RequestId → Prop
  | .internal requestIds, requestId => requestId ∈ requestIds
  | .external names, requestId => ∃ name ∈ names, processor.owner requestId = some name

/-- The parents that an abort lists. -/
def AbortIds.Names : AbortIds → String → Prop
  | .internal requestIds, id => .request id ∈ requestIds
  | .external _, _ => False

/-- An abort lists no served request twice and none after its parent.  Every parent is listed
itself or keeps a child, and hears of the children that are taken. -/
structure KeepsParents (processor : OutputProcessor ρ κ) (ids : AbortIds) : Prop where
  once : ∀ requestIds, ids = .internal requestIds →
    (requestIds.filter fun requestId => (processor.requestStates.get? requestId).isSome).Nodup
  behind : ∀ before id after, ids = .internal (before ++ .request id :: after) →
    processor.parentRequests.contains id →
      ∀ child ∈ after, processor.Live child → child.parent? ≠ some id
  keeps : ∀ id, processor.parentRequests.contains id →
    ids.Names id ∨
      ∃ child, processor.Live child ∧ child.parent? = some id ∧ ¬ processor.Taken ids child
  told : ∀ child state, processor.requestStates.get? child = some state →
    processor.Taken ids child → ∀ id, child.parent? = some id →
      ids.Names id ∨ state.queue.isSome

section Runs

variable {processor : OutputProcessor ρ κ}

variable {all : List RequestId} {processed : Processed ρ κ}

/-- The second loop goes through all ids. -/
theorem Aborting.run (sound : Sound processor) (empty : π.Pooling) {done rest : List RequestId}
    (whole : all = done ++ rest) (behind : ∀ before id after, all = before ++ .request id :: after →
      processor.parentRequests.contains id →
        ∀ child ∈ after, processor.Live child → child.parent? ≠ some id)
    (aborting : Aborting processor done rest processed) :
    ∃ after, rest.foldlM (abortRequest empty) processed = .ok after ∧
      Aborting processor all [] after := by
  induction rest generalizing done processed with
  | nil =>
      rw [List.append_nil] at whole
      exact ⟨processed, rfl, whole ▸ aborting⟩
  | cons requestId rest inductionHypothesis =>
      have next : all = (done ++ [requestId]) ++ rest := by
        rw [whole, List.append_assoc]
        rfl
      -- A request that has gone was listed before.
      have late : processed.processor.requestStates.get? requestId = none →
          processor.Live requestId → requestId ∈ done := by
        intro absent live
        by_contra unlisted
        have gone : processor.Gone done requestId := by
          by_contra stays
          have same := aborting.stays requestId stays
          rw [absent] at same
          rw [Live, ← same] at live
          cases live
        rcases gone with listed | ⟨id, named, registered, child⟩
        · exact unlisted listed
        · rcases List.append_of_mem named with ⟨before, middle, split_⟩
          apply behind before id (middle ++ requestId :: rest) _ registered requestId _ live child
          · rw [whole, split_]
            simp
          · simp
      rw [List.foldlM_cons]
      cases found : processed.processor.requestStates.get? requestId with
      | some state =>
          rcases aborting.take sound empty found with ⟨after, aborted, taken⟩
          have step : abortRequest empty processed requestId = .ok after := by
            unfold abortRequest
            simp only [found]
            exact aborted
          rw [step]
          exact inductionHypothesis next taken
      | none =>
          cases requestId with
          | child index parent =>
              have passed := aborting.pass found (late found) (by rintro id ⟨⟩)
              have step : abortRequest empty processed (.child index parent) = .ok processed := by
                unfold abortRequest
                simp only [found]
                rfl
              rw [step]
              exact inductionHypothesis next passed
          | request id =>
              cases registered : processed.processor.parentRequests.contains id with
              | true =>
                  rcases aborting.parent sound empty registered (behind done id rest whole (by
                    rw [Dict.contains, aborting.registry] at registered
                    split at registered
                    · cases registered
                    · exact registered)) with ⟨after, aborted, taken⟩
                  have step : abortRequest empty processed (.request id) =
                      .ok { after with processor := { after.processor with
                        parentRequests := after.processor.parentRequests.erase id } } := by
                    unfold abortRequest
                    simp only [found, registered, if_true, aborted]
                    rfl
                  rw [step]
                  exact inductionHypothesis next taken
              | false =>
                  have passed := aborting.pass found (late found) (by
                    rintro _ ⟨⟩ before
                    by_contra unnamed
                    rw [Dict.contains, aborting.registry, if_neg unnamed, ← Dict.contains,
                      before] at registered
                    cases registered)
                  have step : abortRequest empty processed (.request id) = .ok processed := by
                    unfold abortRequest
                    simp only [found, registered]
                    rfl
                  rw [step]
                  exact inductionHypothesis next passed

/-- When all listed requests have gone, the maps are in step. -/
theorem Aborting.sound (aborting : Aborting processor all [] processed) (sound : Sound processor)
    (keeps : ∀ id, processor.parentRequests.contains id → .request id ∈ all ∨
      ∃ child, processor.Live child ∧ child.parent? = some id ∧ child ∉ all)
    (told : ∀ child ∈ all, ∀ state, processor.requestStates.get? child = some state →
      ∀ id, child.parent? = some id → .request id ∈ all ∨ state.queue.isSome) :
    Sound processed.processor ∧ Shrinks processor processed.processor := by
  rcases aborting.releases with ⟨released, releases, inside, told'⟩
  have lives : ∀ other, processed.processor.Live other ↔
      processor.Live other ∧ ¬ processor.Gone all other := by
    intro other
    by_cases gone : processor.Gone all other
    · rw [Live, aborting.gone other gone]
      simp [gone]
    · rw [Live, aborting.stays other gone, Live]
      simp [gone]
  have registered : ∀ id, processed.processor.parentRequests.contains id ↔
      processor.parentRequests.contains id ∧ .request id ∉ all := by
    intro id
    rw [Dict.contains, aborting.registry]
    split
    · rename_i named
      simp [named]
    · rename_i unnamed
      simp [unnamed, Dict.contains]
  constructor
  · constructor
    · exact aborting.index.congr_owner fun other => by simp
    · intro other state found
      exact (aborting.ready sound found).2.2
    · intro id parent there
      exact aborting.typed sound there
    · intro id
      rw [registered]
      constructor
      · rintro ⟨before, unnamed⟩
        rcases (keeps id before).resolve_left unnamed with ⟨child, live, own, left⟩
        refine ⟨child, (lives child).mpr ⟨live, ?_⟩, own⟩
        rintro (listed | ⟨name, named, -, own'⟩)
        · exact left listed
        · rw [own] at own'
          cases own'
          exact unnamed named
      · rintro ⟨child, live, own⟩
        rcases (lives child).mp live with ⟨live, stays⟩
        have before := (sound.registry id).mpr ⟨child, live, own⟩
        exact ⟨before, fun named => stays (Or.inr ⟨id, named, before, own⟩)⟩
    · intro id left there found child member
      rcases (registered id).mp there with ⟨before, unnamed⟩
      rcases releases.back found with ⟨parent, known⟩
      rcases releases.kept id parent known with ⟨other, found', -, -, -, -, -, mem⟩
      rw [found] at found'
      cases found'
      rcases (mem child).mp member with ⟨member, kept⟩
      have live := sound.waits id parent before known child member
      have own := (sound.typed id parent known).children child member
      refine (lives child).mpr ⟨live, ?_⟩
      rintro (listed | ⟨name, named, -, own'⟩)
      · rcases live.state with ⟨state, stateFound⟩
        rcases told child listed state stateFound id own with named | queued
        · exact unnamed named
        · exact kept (told' child listed state stateFound queued)
      · rw [own] at own'
        cases own'
        exact unnamed named
    · intro id left there live
      rcases releases.back there with ⟨parent, known⟩
      exact sound.apart id parent known ((lives _).mp live).1
  · constructor
    · intro other state found
      exact ⟨state, (aborting.ready sound found).2.1, rfl⟩
    · exact ⟨released, releases⟩
    · exact aborting.streamInterval

/-- The first loop of an abort by external ids. -/
theorem popExternal_spec {known : RequestId → Option String} (names : List String)
    (processor : OutputProcessor ρ κ) (listed : List RequestId)
    (indexes : Indexes processor.externalReqIds known) :
    ∃ externalReqIds fresh, names.foldl
        (fun popped requestId =>
          ({ popped.1 with externalReqIds := popped.1.externalReqIds.erase requestId },
            popped.2 ++ popped.1.externalReqIds.getD requestId [])) (processor, listed) =
        ({ processor with externalReqIds }, listed ++ fresh) ∧
      (∀ requestId, requestId ∈ fresh ↔ ∃ name ∈ names, known requestId = some name) ∧
      Indexes externalReqIds fun requestId => if requestId ∈ fresh then none else known requestId := by
  induction names generalizing processor listed known with
  | nil =>
      refine ⟨_, [], by rw [List.append_nil]; rfl, by simp, ?_⟩
      exact indexes.congr_owner fun _ => by simp
  | cons name rest inductionHypothesis =>
      rcases inductionHypothesis
        { processor with externalReqIds := processor.externalReqIds.erase name }
        (listed ++ processor.externalReqIds.getD name []) (indexes.pop name) with
        ⟨externalReqIds, fresh, ran, mem, after⟩
      have all : ∀ requestId, requestId ∈ processor.externalReqIds.getD name [] ++ fresh ↔
          ∃ other ∈ name :: rest, known requestId = some other := by
        intro requestId
        rw [List.mem_append, indexes.exact_, mem]
        by_cases own : known requestId = some name
        · simp [own]
        · simp [own]
      refine ⟨externalReqIds, processor.externalReqIds.getD name [] ++ fresh, ?_, all, ?_⟩
      · rw [List.foldl_cons, ran, List.append_assoc]
      · apply after.congr_owner
        intro requestId
        simp only [List.mem_append, indexes.exact_]
        by_cases own : known requestId = some name
        · simp [own]
        · simp [own]

theorem Aborting.start {externalReqIds : Dict String (List RequestId)}
    (index : Indexes externalReqIds fun requestId =>
      if requestId ∈ all then none else processor.owner requestId) :
    Aborting processor [] all { processor := { processor with externalReqIds } } where
  index := index
  gone := by
    rintro requestId (member | ⟨id, member, -⟩)
    · cases member
    · cases member
  stays := fun _ _ => rfl
  registry := fun _ => rfl
  releases := by
    refine ⟨_, .refl _, fun _ => False.elim, ?_⟩
    rintro requestId ⟨⟩
  streamInterval := rfl

/-- An abort that keeps the parents keeps the maps in step. -/
theorem abortRequests_ok (sound : Sound processor) (empty : π.Pooling) {ids : AbortIds}
    (keepsParents : KeepsParents processor ids) :
    ∃ after, abortRequests empty processor ids = .ok after ∧ Sound after.processor ∧
      Shrinks processor after.processor := by
  cases ids with
  | internal requestIds =>
      rcases unlistAll_ok processor requestIds sound.index (fun _ _ => rfl)
        (keepsParents.once requestIds rfl) with ⟨externalReqIds, unlisted, index⟩
      rcases Aborting.run sound empty (List.nil_append requestIds).symm
        (fun before id after same => keepsParents.behind before id after (same ▸ rfl))
        (Aborting.start index) with ⟨after, ran, aborted⟩
      refine ⟨after, ?_, aborted.sound sound keepsParents.keeps ?_⟩
      · rw [abortRequests, unlisted]
        exact ran
      · intro child member state found id own
        exact keepsParents.told child state found member id own
  | external names =>
      rcases popExternal_spec names processor [] sound.index with
        ⟨externalReqIds, fresh, popped, mem, index⟩
      have live : ∀ child ∈ fresh, processor.Live child := by
        intro child member
        rcases (mem child).mp member with ⟨name, -, owned⟩
        rcases Option.map_eq_some_iff.mp owned with ⟨state, found, -⟩
        exact live_of_get? found
      have single : ∀ id, processor.parentRequests.contains id → .request id ∉ fresh :=
        fun id registered member => sound.not_live_parent registered (live _ member)
      rcases Aborting.run sound empty (List.nil_append fresh).symm (by
        rintro before id after rfl registered
        exact absurd (by simp) (single id registered)) (Aborting.start index) with
        ⟨after, ran, aborted⟩
      refine ⟨after, ?_, aborted.sound sound ?_ ?_⟩
      · rw [abortRequests, popExternal, popped]
        exact ran
      · intro id registered
        rcases (keepsParents.keeps id registered).resolve_left (fun named => named) with
          ⟨child, live, own, left⟩
        exact Or.inr ⟨child, live, own, fun member => left ((mem child).mp member)⟩
      · intro child member state found id own
        exact Or.inr ((keepsParents.told child state found ((mem child).mp member) id
          own).resolve_left fun named => named)

end Runs

end OutputProcessor

end Vllm.Engine
