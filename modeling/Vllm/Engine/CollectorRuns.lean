import Mathlib.Data.List.Induction
import Mathlib.Data.List.Nodup
import Vllm.Engine.RequestOutputs

/-!
# Runs of a request output collector

Texts, tokens and log probabilities are handed over whole however puts and gets interleave.  Of the
other values, merging keeps those of the first output at an index or those of the last.
-/

namespace Vllm.Engine

open Vllm.Core CompletionOutput RequestOutput

variable {π : Payload}

section Merging

/-- The completion that all the completions of one index are merged into. -/
def mergedCompletion : List (CompletionOutput π) → Option (CompletionOutput π)
  | [] => none
  | first :: rest => some (rest.foldl CompletionOutput.aggregated first)

/-- New log probabilities never come to a completion that began without a list of them. -/
def LogprobsFit (completions : List (CompletionOutput π)) : Prop :=
  ∀ first rest, completions = first :: rest → ∀ later ∈ rest, first.Takes later

/-- The completions of an index. -/
def withIndex (index : Nat) (completions : List (CompletionOutput π)) :
    List (CompletionOutput π) :=
  completions.filter fun completion => completion.index = index

theorem mergedCompletion_concat (completions : List (CompletionOutput π))
    (nextCompletion : CompletionOutput π) :
    mergedCompletion (completions ++ [nextCompletion]) =
      some ((mergedCompletion completions).elim nextCompletion
        fun known => known.aggregated nextCompletion) := by
  cases completions with
  | nil => rfl
  | cons first rest => simp [mergedCompletion, List.foldl_append]

theorem foldl_aggregated_logprobs (rest : List (CompletionOutput π)) (first : CompletionOutput π) :
    (rest.foldl CompletionOutput.aggregated first).logprobs = none ↔ first.logprobs = none := by
  induction rest generalizing first with
  | nil => rfl
  | cons later rest inductionHypothesis =>
      rw [List.foldl_cons, inductionHypothesis]
      simp [CompletionOutput.aggregated]

variable {completions : List (CompletionOutput π)}

theorem logprobsFit_concat {nextCompletion : CompletionOutput π} :
    LogprobsFit (completions ++ [nextCompletion]) ↔
      LogprobsFit completions ∧
        ∀ known, mergedCompletion completions = some known → known.Takes nextCompletion := by
  cases completions with
  | nil =>
      constructor
      · intro _
        constructor
        · rintro first rest ⟨⟩
        · rintro known ⟨⟩
      · rintro - first rest same later member
        cases same
        cases member
  | cons first rest =>
      constructor
      · intro fit
        constructor
        · rintro _ _ ⟨⟩ later member
          exact fit first (rest ++ [nextCompletion]) rfl later (List.mem_append_left _ member)
        · rintro known ⟨⟩ missing
          apply fit first (rest ++ [nextCompletion]) rfl nextCompletion (by simp)
          exact (foldl_aggregated_logprobs rest first).mp missing
      · rintro ⟨fit, last⟩ _ _ ⟨⟩ later member
        rcases List.mem_append.mp member with before | new
        · exact fit first rest rfl later before
        · rw [List.mem_singleton.mp new]
          intro missing
          exact last _ rfl ((foldl_aggregated_logprobs rest first).mpr missing)

/-- All completions of a list are added one after the other. -/
def joinCompletions (completions : List (CompletionOutput π)) :
    Except PyError (List (CompletionOutput π)) :=
  completions.foldlM (fun outputs nextCompletion => addCompletion true nextCompletion outputs) []

theorem joinCompletions_append (known fresh : List (CompletionOutput π)) :
    joinCompletions (known ++ fresh) =
      joinCompletions known >>= fun outputs =>
        fresh.foldlM (fun outputs nextCompletion => addCompletion true nextCompletion outputs)
          outputs := by
  rw [joinCompletions, List.foldlM_append]
  rfl

/-- Joined completions have one completion for each index, merged from those of the index. -/
theorem joinCompletions_spec {joined : List (CompletionOutput π)}
    (done : joinCompletions completions = .ok joined) :
    (joined.map CompletionOutput.index).Nodup ∧
      ∀ index, LogprobsFit (withIndex index completions) ∧
        completionAt index joined = mergedCompletion (withIndex index completions) := by
  induction completions using List.reverseRecOn generalizing joined with
  | nil =>
      cases done
      constructor
      · exact List.nodup_nil
      · intro index
        constructor
        · rintro first rest ⟨⟩
        · rfl
  | append_singleton completions nextCompletion inductionHypothesis =>
      rw [joinCompletions_append] at done
      rcases bind_eq_ok.mp done with ⟨known, before, added⟩
      rcases bind_eq_ok.mp added with ⟨after, added, same⟩
      cases same
      rcases inductionHypothesis before with ⟨distinct, merged⟩
      rcases addCompletion_spec added with ⟨takes, indices, found⟩
      constructor
      · rw [indices]
        split
        · exact distinct
        · rename_i absent
          rw [Bool.not_eq_true, Option.isSome_eq_false_iff, Option.isNone_iff_eq_none] at absent
          rw [List.nodup_append]
          refine ⟨distinct, List.nodup_singleton _, ?_⟩
          rintro _ member _ new rfl
          rw [List.mem_singleton] at new
          rcases List.mem_map.mp member with ⟨completion, member, own⟩
          have here := completionAt_of_mem distinct member
          rw [own, new, absent] at here
          cases here
      · intro index
        rw [found, withIndex, List.filter_append]
        by_cases own : nextCompletion.index = index
        · have single : [nextCompletion].filter (fun completion => completion.index = index) =
              [nextCompletion] := by simp [own]
          rw [single, if_pos own, logprobsFit_concat, mergedCompletion_concat, (merged index).2]
          refine ⟨⟨(merged index).1, ?_⟩, rfl⟩
          intro completion here
          apply takes
          rw [own, (merged index).2]
          exact here
        · have none_ : [nextCompletion].filter (fun completion => completion.index = index) =
              [] := by simp [own]
          rw [none_, List.append_nil, if_neg own]
          exact merged index

/-- Completions whose log probabilities fit at each index are joined. -/
theorem joinCompletions_ok (fit : ∀ index, LogprobsFit (withIndex index completions)) :
    ∃ joined, joinCompletions completions = .ok joined := by
  induction completions using List.reverseRecOn with
  | nil => exact ⟨_, rfl⟩
  | append_singleton completions nextCompletion inductionHypothesis =>
      have split_ : ∀ index, LogprobsFit (withIndex index completions) ∧
          (nextCompletion.index = index → ∀ known,
            mergedCompletion (withIndex index completions) = some known →
              known.Takes nextCompletion) := by
        intro index
        have here := fit index
        rw [withIndex, List.filter_append] at here
        by_cases own : nextCompletion.index = index
        · have single : [nextCompletion].filter (fun completion => completion.index = index) =
              [nextCompletion] := by simp [own]
          rw [single, logprobsFit_concat] at here
          exact ⟨here.1, fun _ => here.2⟩
        · have none_ : [nextCompletion].filter (fun completion => completion.index = index) =
              [] := by simp [own]
          rw [none_, List.append_nil] at here
          exact ⟨here, fun same => absurd same own⟩
      rcases inductionHypothesis (fun index => (split_ index).1) with ⟨known, before⟩
      have takes : ∀ completion, completionAt nextCompletion.index known = some completion →
          completion.Takes nextCompletion := by
        intro completion here
        rw [((joinCompletions_spec before).2 _).2] at here
        exact (split_ _).2 rfl completion here
      rcases addCompletion_ok takes with ⟨after, added⟩
      rw [joinCompletions_append, before]
      exact ⟨after, by simp [bind, Except.bind, added, pure, Except.pure]⟩

/-- Completions with their own indices are joined to themselves. -/
theorem joinCompletions_distinct (distinct : (completions.map CompletionOutput.index).Nodup) :
    joinCompletions completions = .ok completions := by
  induction completions using List.reverseRecOn with
  | nil => rfl
  | append_singleton completions nextCompletion inductionHypothesis =>
      rw [List.map_append, List.nodup_append] at distinct
      rcases distinct with ⟨before, _, apart⟩
      have append : ∀ known : List (CompletionOutput π),
          (∀ completion ∈ known, completion.index ≠ nextCompletion.index) →
            addCompletion true nextCompletion known = .ok (known ++ [nextCompletion]) := by
        intro known others
        induction known with
        | nil => rfl
        | cons head rest appendRest =>
            rw [addCompletion, if_neg (others head List.mem_cons_self),
              appendRest fun completion member => others completion (List.mem_cons_of_mem _ member)]
            rfl
      rw [joinCompletions_append, inductionHypothesis before]
      simp only [bind, Except.bind, List.foldlM_cons, List.foldlM_nil]
      rw [append completions fun completion member =>
        apart _ (List.mem_map_of_mem member) _ (List.mem_singleton_self _)]
      rfl

end Merging

/-! ## Values of merged completions -/

section Values

variable {α : Type}

variable {field : CompletionOutput π → Option α}

/-- A value that merging takes from the first completion. -/
theorem mergedCompletion_first
    (kept : ∀ known next : CompletionOutput π, field (known.aggregated next) = field known)
    (completions : List (CompletionOutput π)) :
    (mergedCompletion completions).bind field = completions.head?.bind field := by
  induction completions using List.reverseRecOn with
  | nil => rfl
  | append_singleton completions next inductionHypothesis =>
      rw [mergedCompletion_concat]
      cases completions with
      | nil => rfl
      | cons first rest =>
          rw [mergedCompletion] at inductionHypothesis ⊢
          simpa [kept] using inductionHypothesis

/-- A value that merging takes from the last completion. -/
theorem mergedCompletion_last
    (taken : ∀ known next : CompletionOutput π, field (known.aggregated next) = field next)
    (completions : List (CompletionOutput π)) :
    (mergedCompletion completions).bind field = completions.getLast?.bind field := by
  induction completions using List.reverseRecOn with
  | nil => rfl
  | append_singleton completions next _ =>
      rw [mergedCompletion_concat, List.getLast?_concat]
      cases mergedCompletion completions <;> simp [taken]

/-- What is appended on merging is the concatenation. -/
theorem mergedCompletion_flatMap {measure : CompletionOutput π → List α}
    (appended : ∀ known next : CompletionOutput π, known.Takes next →
      measure (known.aggregated next) = measure known ++ measure next)
    {completions : List (CompletionOutput π)} (fit : LogprobsFit completions) :
    (mergedCompletion completions).toList.flatMap measure = completions.flatMap measure := by
  induction completions using List.reverseRecOn with
  | nil => rfl
  | append_singleton completions next inductionHypothesis =>
      rcases logprobsFit_concat.mp fit with ⟨before, takes⟩
      rw [mergedCompletion_concat, List.flatMap_append, ← inductionHypothesis before]
      cases merged : mergedCompletion completions with
      | none => simp
      | some known => simp [appended known next (takes known merged)]

end Values

/-! ## Runs -/

/-- The consumer and the producer of a collector. -/
inductive Handling (π : Payload) where
  | put (output : RequestOutput π)
  | get

/-- A collector with what has been received from it. -/
structure Handoff (π : Payload) where
  collector : RequestOutputCollector π
  received : List (RequestOutput π) := []

namespace Handoff

/-- A get that finds nothing waits, or gives nothing. -/
def step (handoff : Handoff π) : Handling π → Except PyError (Handoff π)
  | .put output => do
      let collector ← handoff.collector.put (.request output)
      return { handoff with collector }
  | .get =>
      let (item, collector) := handoff.collector.get
      match item with
      | some (.request output) => return { collector, received := handoff.received ++ [output] }
      | _ => return { handoff with collector }

/-- A run of the collector of a request in delta mode. -/
def run (events : List (Handling π)) : Except PyError (Handoff π) :=
  events.foldlM step { collector := .new .delta }

/-- What has been received, and what waits to be. -/
def given (handoff : Handoff π) : List (RequestOutput π) :=
  handoff.received ++
    match handoff.collector.output with
    | some (.request output) => [output]
    | _ => []

end Handoff

/-- The puts of a run, in groups that are received together. -/
structure Batches (π : Payload) where
  closed : List (List (RequestOutput π)) := []
  waiting : List (RequestOutput π) := []

namespace Batches

def step (batches : Batches π) : Handling π → Batches π
  | .put output => { batches with waiting := batches.waiting ++ [output] }
  | .get =>
      match batches.waiting with
      | [] => batches
      | first :: rest => { closed := batches.closed ++ [first :: rest] }

def of (events : List (Handling π)) : Batches π :=
  events.foldl step {}

/-- The group that waits comes last. -/
def all (batches : Batches π) : List (List (RequestOutput π)) :=
  batches.closed ++ if batches.waiting.isEmpty then [] else [batches.waiting]

end Batches

/-- The outputs that a run puts. -/
def puts (events : List (Handling π)) : List (RequestOutput π) :=
  events.filterMap fun event =>
    match event with
    | .put output => some output
    | .get => none

/-- The completions of a list of outputs. -/
def completionsOf (outputs : List (RequestOutput π)) : List (CompletionOutput π) :=
  outputs.flatMap RequestOutput.outputs

theorem completionsOf_append (outputs others : List (RequestOutput π)) :
    completionsOf (outputs ++ others) = completionsOf outputs ++ completionsOf others :=
  List.flatMap_append

/-- The output that a group of outputs is merged into. -/
structure Merged (batch : List (RequestOutput π)) (output : RequestOutput π) : Prop where
  joined : joinCompletions (completionsOf batch) = .ok output.outputs
  finished : output.finished = batch.any RequestOutput.finished
  kvTransferParams : output.kvTransferParams = batch.getLast?.bind RequestOutput.kvTransferParams
  ecTransferParams : output.ecTransferParams = batch.getLast?.bind RequestOutput.ecTransferParams

variable {output : RequestOutput π} {batches : Batches π} {events : List (Handling π)}

theorem Merged.single (distinct : (output.outputs.map CompletionOutput.index).Nodup) :
    Merged [output] output where
  joined := by
    rw [completionsOf, List.flatMap_singleton]
    exact joinCompletions_distinct distinct
  finished := by simp
  kvTransferParams := rfl
  ecTransferParams := rfl

variable {batch : List (RequestOutput π)} {handoff : Handoff π}

/-- Adding an output to a merged one merges the longer group. -/
theorem Merged.add_iff {nextOutput after : RequestOutput π} (merged : Merged batch output) :
    output.add nextOutput true = .ok after ↔ Merged (batch ++ [nextOutput]) after := by
  have joined : joinCompletions (completionsOf (batch ++ [nextOutput])) =
      nextOutput.outputs.foldlM
        (fun outputs nextCompletion => addCompletion true nextCompletion outputs)
        output.outputs := by
    rw [completionsOf_append, joinCompletions_append, merged.joined, completionsOf,
      List.flatMap_singleton]
    rfl
  constructor
  · intro added
    rcases bind_eq_ok.mp added with ⟨outputs, done, same⟩
    cases same
    constructor
    · rw [joined]
      exact done
    · rw [List.any_append, ← merged.finished]
      simp
    · rw [List.getLast?_concat]
      rfl
    · rw [List.getLast?_concat]
      rfl
  · intro whole
    rw [RequestOutput.add, ← joined, whole.joined]
    have finished : after.finished = (output.finished || nextOutput.finished) := by
      rw [whole.finished, List.any_append, ← merged.finished]
      simp
    have kvTransferParams := whole.kvTransferParams
    have ecTransferParams := whole.ecTransferParams
    rw [List.getLast?_concat] at kvTransferParams ecTransferParams
    rcases after with ⟨outputs, finished', kv, ec⟩
    cases kvTransferParams
    cases ecTransferParams
    cases finished
    rfl

/-- A group is received or waits as the output it is merged into. -/
structure Tracks (batches : Batches π) (handoff : Handoff π) : Prop where
  aggregate : handoff.collector.aggregate = true
  received : List.Forall₂ Merged batches.closed handoff.received
  none_ : batches.waiting = [] → handoff.collector.output = none
  waiting : batches.waiting ≠ [] →
    ∃ output, handoff.collector.output = some (.request output) ∧ Merged batches.waiting output

/-- A run whose outputs have one completion for each index. -/
def Distinct (events : List (Handling π)) : Prop :=
  ∀ output ∈ puts events, (output.outputs.map CompletionOutput.index).Nodup

theorem Tracks.put {after : Handoff π} (tracks : Tracks batches handoff)
    (distinct : (output.outputs.map CompletionOutput.index).Nodup)
    (stepped : handoff.step (.put output) = .ok after) :
    Tracks (batches.step (.put output)) after := by
  rcases bind_eq_ok.mp stepped with ⟨collector, placed, same⟩
  cases same
  by_cases idle : batches.waiting = []
  · rw [RequestOutputCollector.put_idle (tracks.none_ idle)] at placed
    cases placed
    constructor
    · exact tracks.aggregate
    · exact tracks.received
    · simp [Batches.step]
    · intro _
      refine ⟨output, rfl, ?_⟩
      rw [Batches.step, idle]
      exact Merged.single distinct
  · rcases tracks.waiting idle with ⟨pending, here, merged⟩
    rw [RequestOutputCollector.put_request here] at placed
    rcases bind_eq_ok.mp placed with ⟨whole, added, same⟩
    cases same
    rw [tracks.aggregate] at added
    constructor
    · exact tracks.aggregate
    · exact tracks.received
    · simp [Batches.step]
    · intro _
      exact ⟨whole, rfl, merged.add_iff.mp added⟩

theorem Tracks.get (tracks : Tracks batches handoff) :
    ∃ after, handoff.step .get = .ok after ∧ Tracks (batches.step .get) after := by
  cases place : batches.waiting with
  | nil =>
      have idle := tracks.none_ place
      refine ⟨{ handoff with collector := { handoff.collector with output := none } }, ?_, ?_⟩
      · rw [Handoff.step, RequestOutputCollector.get, idle]
        rfl
      · rw [Batches.step, place]
        constructor
        · exact tracks.aggregate
        · exact tracks.received
        · exact fun _ => rfl
        · exact fun some_ => absurd place some_
  | cons first rest =>
      rcases tracks.waiting (by simp [place]) with ⟨pending, here, merged⟩
      refine ⟨{ collector := { handoff.collector with output := none },
                received := handoff.received ++ [pending] }, ?_, ?_⟩
      · rw [Handoff.step, RequestOutputCollector.get, here]
        rfl
      · rw [Batches.step, place]
        rw [place] at merged
        constructor
        · exact tracks.aggregate
        · exact List.rel_append tracks.received (List.Forall₂.cons merged .nil)
        · exact fun _ => rfl
        · exact fun some_ => absurd rfl some_

theorem Distinct.of_concat {event : Handling π} (distinct : Distinct (events ++ [event])) :
    Distinct events := by
  intro output member
  apply distinct
  rw [puts, List.filterMap_append]
  exact List.mem_append_left _ member

theorem Distinct.last (distinct : Distinct (events ++ [.put output])) :
    (output.outputs.map CompletionOutput.index).Nodup := by
  apply distinct
  rw [puts, List.filterMap_append]
  exact List.mem_append_right _ List.mem_cons_self

theorem Handoff.run_concat (events : List (Handling π)) (event : Handling π) :
    Handoff.run (events ++ [event]) = Handoff.run events >>= fun handoff => handoff.step event := by
  rw [run, List.foldlM_append]
  congr 1
  funext handoff
  rw [List.foldlM_cons]
  cases handoff.step event <;> rfl

theorem Batches.of_concat (events : List (Handling π)) (event : Handling π) :
    Batches.of (events ++ [event]) = (Batches.of events).step event :=
  List.foldl_append

/-- A run hands over its groups, each merged into one output. -/
theorem run_tracks (distinct : Distinct events) (ran : Handoff.run events = .ok handoff) :
    Tracks (Batches.of events) handoff := by
  induction events using List.reverseRecOn generalizing handoff with
  | nil =>
      cases ran
      constructor
      · rfl
      · exact .nil
      · exact fun _ => rfl
      · exact fun some_ => absurd rfl some_
  | append_singleton events event inductionHypothesis =>
      rw [Handoff.run_concat] at ran
      rcases bind_eq_ok.mp ran with ⟨before, ranBefore, stepped⟩
      have tracks := inductionHypothesis distinct.of_concat ranBefore
      rw [Batches.of_concat]
      cases event with
      | put output => exact tracks.put distinct.last stepped
      | get =>
          rcases tracks.get with ⟨after, stepped', tracks⟩
          rw [stepped] at stepped'
          cases stepped'
          exact tracks

/-- The log probabilities of each group fit at each index. -/
def Fitting (batches : Batches π) : Prop :=
  ∀ batch ∈ batches.all, ∀ index, LogprobsFit (withIndex index (completionsOf batch))

theorem LogprobsFit.of_append {completions others : List (CompletionOutput π)}
    (fit : LogprobsFit (completions ++ others)) : LogprobsFit completions := by
  rintro first rest rfl later member
  exact fit first (rest ++ others) rfl later (List.mem_append_left _ member)

theorem Batches.mem_all :
    batch ∈ batches.all ↔
      batch ∈ batches.closed ∨ batch = batches.waiting ∧ batches.waiting ≠ [] := by
  cases waiting : batches.waiting <;> simp [all, waiting]

theorem Batches.all_get (batches : Batches π) : (batches.step .get).all = batches.all := by
  cases waiting : batches.waiting <;> simp [step, all, waiting]

theorem Fitting.of_step {event : Handling π} (fitting : Fitting (batches.step event)) :
    Fitting batches := by
  cases event with
  | get =>
      rw [Fitting, Batches.all_get] at fitting
      exact fitting
  | put output =>
      intro batch member index
      rcases Batches.mem_all.mp member with closed | ⟨rfl, some_⟩
      · exact fitting batch (Batches.mem_all.mpr (Or.inl closed)) index
      · have whole := fitting (batches.waiting ++ [output])
          (Batches.mem_all.mpr (Or.inr ⟨rfl, List.append_ne_nil_of_right_ne_nil _ (by simp)⟩)) index
        rw [completionsOf_append, withIndex, List.filter_append] at whole
        exact whole.of_append

/-- A run whose log probabilities fit ends. -/
theorem run_ok (distinct : Distinct events) (fitting : Fitting (Batches.of events)) :
    ∃ handoff, Handoff.run events = .ok handoff := by
  induction events using List.reverseRecOn with
  | nil => exact ⟨_, rfl⟩
  | append_singleton events event inductionHypothesis =>
      rw [Batches.of_concat] at fitting
      rcases inductionHypothesis distinct.of_concat fitting.of_step with ⟨before, ranBefore⟩
      have tracks := run_tracks distinct.of_concat ranBefore
      rw [Handoff.run_concat, ranBefore]
      cases event with
      | get =>
          rcases tracks.get with ⟨after, stepped, _⟩
          exact ⟨after, stepped⟩
      | put output =>
          change ∃ handoff, before.step (.put output) = .ok handoff
          by_cases idle : (Batches.of events).waiting = []
          · rw [Handoff.step, RequestOutputCollector.put_idle (tracks.none_ idle)]
            exact ⟨_, rfl⟩
          · rcases tracks.waiting idle with ⟨pending, here, merged⟩
            rcases joinCompletions_ok (fitting ((Batches.of events).waiting ++ [output])
              (Batches.mem_all.mpr
                (Or.inr ⟨rfl, List.append_ne_nil_of_right_ne_nil _ (by simp)⟩))) with
              ⟨joined, done⟩
            have whole : Merged ((Batches.of events).waiting ++ [output])
                { outputs := joined
                  finished := ((Batches.of events).waiting ++ [output]).any RequestOutput.finished
                  kvTransferParams := output.kvTransferParams
                  ecTransferParams := output.ecTransferParams } :=
              ⟨done, rfl, by rw [List.getLast?_concat]; rfl, by rw [List.getLast?_concat]; rfl⟩
            rw [Handoff.step, RequestOutputCollector.put_request here, tracks.aggregate,
              merged.add_iff.mpr whole]
            exact ⟨_, rfl⟩

/-! ## What is handed over -/

section Handover

variable {α : Type}

/-- A value of a completion is found in an output, at its index. -/
def Carries (field : CompletionOutput π → Option α) (batch : List (RequestOutput π))
    (received : RequestOutput π) : Prop :=
  ∀ output ∈ batch, ∀ completion ∈ output.outputs, ∀ value, field completion = some value →
    ∃ other ∈ received.outputs, other.index = completion.index ∧ field other = some value

/-- What is set in the outputs of a group is set in the output that is received for them. -/
structure Covers (batch : List (RequestOutput π)) (received : RequestOutput π) : Prop where
  finished : ∀ output ∈ batch, output.finished = true → received.finished = true
  kvTransferParams : ∀ output ∈ batch, ∀ params, output.kvTransferParams = some params →
    received.kvTransferParams = some params
  finishReason : Carries CompletionOutput.finishReason batch received
  stopReason : Carries CompletionOutput.stopReason batch received
  routedExperts : Carries CompletionOutput.routedExperts batch received
  samplingMask : Carries CompletionOutput.samplingMask batch received
  specDecodeMetrics : Carries CompletionOutput.specDecodeMetrics batch received

/-- What the completions of an index hold, one after the other. -/
def concatAt (measure : CompletionOutput π → List α) (index : Nat)
    (outputs : List (RequestOutput π)) : List α :=
  (withIndex index (completionsOf outputs)).flatMap measure

/-- The run ends, the texts are handed over whole, and nothing that is set gets lost. -/
def LosesNothing (events : List (Handling π)) : Prop :=
  ∃ handoff, Handoff.run events = .ok handoff ∧
    (∀ index, concatAt CompletionOutput.text index handoff.given =
        concatAt CompletionOutput.text index (puts events) ∧
      concatAt CompletionOutput.tokenIds index handoff.given =
        concatAt CompletionOutput.tokenIds index (puts events) ∧
      concatAt (fun completion => completion.logprobs.getD []) index handoff.given =
        concatAt (fun completion => completion.logprobs.getD []) index (puts events)) ∧
    List.Forall₂ Covers (Batches.of events).all handoff.given

/-- A value stands in the first completion of its index. -/
def AtFirst (field : CompletionOutput π → Option α) (batch : List (RequestOutput π)) : Prop :=
  ∀ completion ∈ completionsOf batch, ∀ value, field completion = some value →
    (withIndex completion.index (completionsOf batch)).head?.bind field = some value

/-- A value stands in the last completion of its index. -/
def AtLast (field : CompletionOutput π → Option α) (batch : List (RequestOutput π)) : Prop :=
  ∀ completion ∈ completionsOf batch, ∀ value, field completion = some value →
    (withIndex completion.index (completionsOf batch)).getLast?.bind field = some value

/-- Outputs that merging loses nothing of. -/
structure Mergeable (batch : List (RequestOutput π)) : Prop where
  logprobs : ∀ index, LogprobsFit (withIndex index (completionsOf batch))
  kvTransferParams : ∀ output ∈ batch, ∀ params, output.kvTransferParams = some params →
    batch.getLast?.bind RequestOutput.kvTransferParams = some params
  finishReason : AtLast CompletionOutput.finishReason batch
  stopReason : AtLast CompletionOutput.stopReason batch
  routedExperts : AtFirst CompletionOutput.routedExperts batch
  samplingMask : AtFirst CompletionOutput.samplingMask batch
  specDecodeMetrics : AtFirst CompletionOutput.specDecodeMetrics batch

variable {batch : List (RequestOutput π)} {received : RequestOutput π}
  {measure : CompletionOutput π → List α} {groups : List (List (RequestOutput π))}

theorem mem_completionsOf {completion : CompletionOutput π} :
    completion ∈ completionsOf batch ↔ ∃ output ∈ batch, completion ∈ output.outputs :=
  List.mem_flatMap

/-- A value is carried where the merged completion of its index has it. -/
theorem Merged.carries_iff (merged : Merged batch received)
    (field : CompletionOutput π → Option α) :
    Carries field batch received ↔
      ∀ completion ∈ completionsOf batch, ∀ value, field completion = some value →
        (mergedCompletion (withIndex completion.index (completionsOf batch))).bind field =
          some value := by
  rcases joinCompletions_spec merged.joined with ⟨distinct, found⟩
  constructor
  · intro carries completion member value set_
    rcases mem_completionsOf.mp member with ⟨output, listed, member⟩
    rcases carries output listed completion member value set_ with ⟨other, there, own, set_⟩
    rw [← (found completion.index).2, ← own, completionAt_of_mem distinct there]
    exact set_
  · intro holds output listed completion member value set_
    have there := holds completion (mem_completionsOf.mpr ⟨output, listed, member⟩) value set_
    rw [← (found completion.index).2] at there
    rcases Option.bind_eq_some_iff.mp there with ⟨other, here, set_⟩
    exact ⟨other, List.mem_of_find?_eq_some here, completionAt_index here, set_⟩

theorem Merged.carries_first (merged : Merged batch received)
    (field : CompletionOutput π → Option α)
    (kept : ∀ known next : CompletionOutput π, field (known.aggregated next) = field known) :
    Carries field batch received ↔ AtFirst field batch := by
  rw [merged.carries_iff, AtFirst]
  simp only [mergedCompletion_first kept]

theorem Merged.carries_last (merged : Merged batch received) (field : CompletionOutput π → Option α)
    (taken : ∀ known next : CompletionOutput π, field (known.aggregated next) = field next) :
    Carries field batch received ↔ AtLast field batch := by
  rw [merged.carries_iff, AtLast]
  simp only [mergedCompletion_last taken]

/-- Merging covers exactly the mergeable groups. -/
theorem Merged.covers_iff (merged : Merged batch received) :
    Covers batch received ↔ Mergeable batch := by
  have finishReason := merged.carries_last CompletionOutput.finishReason fun _ _ => rfl
  have stopReason := merged.carries_last CompletionOutput.stopReason fun _ _ => rfl
  have routedExperts :=
    merged.carries_first CompletionOutput.routedExperts fun _ _ => rfl
  have samplingMask := merged.carries_first CompletionOutput.samplingMask fun _ _ => rfl
  have specDecodeMetrics :=
    merged.carries_first CompletionOutput.specDecodeMetrics fun _ _ => rfl
  constructor
  · intro covers
    constructor
    · exact fun index => ((joinCompletions_spec merged.joined).2 index).1
    · intro output member params set_
      rw [← merged.kvTransferParams]
      exact covers.kvTransferParams output member params set_
    · exact finishReason.mp covers.finishReason
    · exact stopReason.mp covers.stopReason
    · exact routedExperts.mp covers.routedExperts
    · exact samplingMask.mp covers.samplingMask
    · exact specDecodeMetrics.mp covers.specDecodeMetrics
  · intro mergeable
    constructor
    · intro output member finished
      rw [merged.finished, List.any_eq_true]
      exact ⟨output, member, finished⟩
    · intro output member params set_
      rw [merged.kvTransferParams]
      exact mergeable.kvTransferParams output member params set_
    · exact finishReason.mpr mergeable.finishReason
    · exact stopReason.mpr mergeable.stopReason
    · exact routedExperts.mpr mergeable.routedExperts
    · exact samplingMask.mpr mergeable.samplingMask
    · exact specDecodeMetrics.mpr mergeable.specDecodeMetrics

/-- A merged output holds what the outputs of its group hold one after the other. -/
theorem Merged.concatAt_eq (merged : Merged batch received)
    (appended : ∀ known next : CompletionOutput π, known.Takes next →
      measure (known.aggregated next) = measure known ++ measure next) (index : Nat) :
    concatAt measure index [received] = concatAt measure index batch := by
  rcases joinCompletions_spec merged.joined with ⟨distinct, found⟩
  rw [concatAt, concatAt, completionsOf, List.flatMap_singleton, withIndex,
    filter_index distinct, (found index).2, mergedCompletion_flatMap appended (found index).1]

theorem concatAt_append (measure : CompletionOutput π → List α) (index : Nat)
    (outputs others : List (RequestOutput π)) :
    concatAt measure index (outputs ++ others) =
      concatAt measure index outputs ++ concatAt measure index others := by
  rw [concatAt, completionsOf_append, withIndex, List.filter_append, List.flatMap_append]
  rfl

theorem concatAt_merged {given : List (RequestOutput π)} (merged : List.Forall₂ Merged groups given)
    (appended : ∀ known next : CompletionOutput π, known.Takes next →
      measure (known.aggregated next) = measure known ++ measure next) (index : Nat) :
    concatAt measure index given = concatAt measure index groups.flatten := by
  induction merged with
  | nil => rfl
  | @cons batch received groups given first _ inductionHypothesis =>
      have split_ := concatAt_append measure index [received] given
      rw [List.singleton_append] at split_
      rw [split_, List.flatten_cons, concatAt_append, inductionHypothesis,
        first.concatAt_eq appended]

/-- The groups of a run are its puts. -/
theorem Batches.flatten_all (events : List (Handling π)) :
    (Batches.of events).all.flatten = puts events := by
  have step : ∀ (batches : Batches π) (event : Handling π),
      (batches.step event).all.flatten = batches.all.flatten ++ puts [event] := by
    intro batches event
    cases event with
    | get =>
        rw [Batches.all_get]
        simp [puts]
    | put output => cases waiting : batches.waiting <;> simp [Batches.step, all, puts, waiting]
  induction events using List.reverseRecOn with
  | nil => rfl
  | append_singleton events event inductionHypothesis =>
      rw [Batches.of_concat, step, inductionHypothesis, puts, puts, puts, List.filterMap_append]

theorem Tracks.given {handoff : Handoff π} (tracks : Tracks batches handoff) :
    List.Forall₂ Merged batches.all handoff.given := by
  apply List.rel_append tracks.received
  cases waiting : batches.waiting with
  | nil =>
      rw [tracks.none_ waiting]
      exact .nil
  | cons first rest =>
      rcases tracks.waiting (by simp [waiting]) with ⟨output, here, merged⟩
      rw [here]
      rw [waiting] at merged
      exact .cons merged .nil

theorem forall₂_covers_iff {given : List (RequestOutput π)}
    (merged : List.Forall₂ Merged groups given) :
    List.Forall₂ Covers groups given ↔ ∀ batch ∈ groups, Mergeable batch := by
  induction merged with
  | nil => simp
  | cons first _ inductionHypothesis =>
      rw [List.forall₂_cons, first.covers_iff, inductionHypothesis, List.forall_mem_cons]

/-- A collector loses nothing exactly where each group that is received together is mergeable. -/
theorem losesNothing_iff {events : List (Handling π)} (distinct : Distinct events) :
    LosesNothing events ↔ ∀ batch ∈ (Batches.of events).all, Mergeable batch := by
  constructor
  · rintro ⟨handoff, ran, -, covers⟩
    exact (forall₂_covers_iff (run_tracks distinct ran).given).mp covers
  · intro mergeable
    rcases run_ok distinct fun batch member => (mergeable batch member).logprobs with
      ⟨handoff, ran⟩
    have merged := (run_tracks distinct ran).given
    refine ⟨handoff, ran, ?_, (forall₂_covers_iff merged).mpr mergeable⟩
    intro index
    rw [← Batches.flatten_all]
    refine ⟨?_, ?_, ?_⟩
    · exact concatAt_merged merged (fun _ _ _ => rfl) index
    · exact concatAt_merged merged (fun _ _ _ => rfl) index
    · apply concatAt_merged merged
      intro known next takes
      cases logprobs : known.logprobs with
      | none => simp [CompletionOutput.aggregated, logprobs, takes logprobs]
      | some list => simp [CompletionOutput.aggregated, logprobs]

end Handover

/-! ## A last output that comes early -/

/-- A payload without content. -/
def plainPayload : Payload where
  Logprob := Unit
  Score := Unit
  Experts := Unit
  Mask := Unit
  Metrics := Unit
  Params := Unit
  Pooling := Unit
  Error := Unit

/-- The last output of a request with its speculative decoding metrics. -/
def lastOutput : RequestOutput plainPayload where
  outputs := [{ index := 0, text := ['b'], tokenIds := [2], finishReason := some "stop",
                specDecodeMetrics := some () }]
  finished := true

/-- The last output is put before the first one has been received. -/
def hurriedRun : List (Handling plainPayload) :=
  [.put { outputs := [{ index := 0, text := ['a'], tokenIds := [1] }], finished := false },
    .put lastOutput, .get]

/-- Merging drops the metrics. -/
theorem hurriedRun_loses : ¬ LosesNothing hurriedRun := by
  rintro ⟨handoff, ran, -, covers⟩
  cases ran
  cases covers with
  | cons covered _ =>
      rcases covered.specDecodeMetrics lastOutput (by simp) _ (List.mem_singleton_self _) () rfl with
        ⟨other, member, _, set_⟩
      rw [List.mem_singleton.mp member] at set_
      cases set_

theorem hurriedRun_distinct : Distinct hurriedRun := by
  intro output member
  rcases List.mem_pair.mp member with rfl | rfl
  · exact List.nodup_singleton _
  · exact List.nodup_singleton _

/-- The law at a run that merges two outputs. -/
theorem losesNothing_hurriedRun :
    LosesNothing hurriedRun ↔ ∀ batch ∈ (Batches.of hurriedRun).all, Mergeable batch :=
  losesNothing_iff hurriedRun_distinct

end Vllm.Engine
