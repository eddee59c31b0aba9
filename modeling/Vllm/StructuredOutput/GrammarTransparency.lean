import Vllm.StructuredOutput.BitmaskRows

/-!
# A grammar bitmask leaves the grammars alone

The serial and the parallel path fill the rows of the requests one after the other, and every
grammar is afterwards in the state in which it was.
-/

namespace Vllm.StructuredOutput

open Vllm.Core Vllm.Library

variable {γ μ κ ι : Type} [DecidableEq ι]

namespace StructuredOutputManager

variable {backend : StructuredOutputGrammar γ μ} {manager : StructuredOutputManager κ μ}
  {requests later : Dict ι (Request γ κ)} {scheduled : Dict ι (List Int)}

/-- The rows of a request id. -/
def idRows (backend : StructuredOutputGrammar γ μ) (manager : StructuredOutputManager κ μ)
    (requests : Dict ι (Request γ κ)) (scheduled : Dict ι (List Int)) (reqId : ι) : List μ :=
  (requests.get? reqId).elim [] fun request =>
    manager.requestRows backend request (scheduled.getD reqId [])

/-- The request of an id is constrained from the start and its grammar rejects a draft. -/
def idRefuses (backend : StructuredOutputGrammar γ μ) (manager : StructuredOutputManager κ μ)
    (requests : Dict ι (Request γ κ)) (scheduled : Dict ι (List Int)) (reqId : ι) : Bool :=
  (requests.get? reqId).any fun request =>
    manager.refusesDrafts backend request (scheduled.getD reqId [])

/-- Some requests have been asked whether their bitmask is filled. -/
def AskedAll (manager : StructuredOutputManager κ μ) (requests later : Dict ι (Request γ κ)) :
    Prop :=
  ∀ reqId, later.get? reqId = requests.get? reqId ∨
    ∃ request asked, requests.get? reqId = some request ∧ later.get? reqId = some asked ∧
      Asked manager request asked

theorem AskedAll.insert {reqId : ι} {request : Request γ κ}
    (listed : requests.get? reqId = some request) :
    AskedAll manager requests (requests.insert reqId (manager.shouldFillBitmask request).2) := by
  intro other
  by_cases same : reqId = other
  · subst same
    right
    exact ⟨request, _, listed, requests.get?_insert_self reqId _,
      shouldFillBitmask_asked manager request⟩
  · left
    exact requests.get?_insert_of_ne _ same

theorem AskedAll.idRows (asks : AskedAll manager requests later) (reqId : ι) :
    manager.idRows backend later scheduled reqId =
      manager.idRows backend requests scheduled reqId := by
  unfold StructuredOutputManager.idRows
  rcases asks reqId with same | ⟨request, asked, before, after, asks⟩
  · rw [same]
  · rw [before, after]
    exact asks.requestRows _

theorem AskedAll.idRefuses (asks : AskedAll manager requests later) (reqId : ι) :
    manager.idRefuses backend later scheduled reqId =
      manager.idRefuses backend requests scheduled reqId := by
  unfold StructuredOutputManager.idRefuses
  rcases asks reqId with same | ⟨request, asked, before, after, asks⟩
  · rw [same]
  · rw [before, after]
    exact asks.refusesDrafts _

theorem AskedAll.grammar (asks : AskedAll manager requests later) (reqId : ι) :
    (later.get? reqId).map Request.grammar = (requests.get? reqId).map Request.grammar := by
  rcases asks reqId with same | ⟨request, asked, before, after, asks⟩
  · rw [same]
  · rw [before, after]
    exact congrArg some asks.grammar

theorem AskedAll.isSome (asks : AskedAll manager requests later) (reqId : ι) :
    (later.get? reqId).isSome = (requests.get? reqId).isSome := by
  rcases asks reqId with same | ⟨request, asked, before, after, _⟩
  · rw [same]
  · rw [before, after]
    rfl

/-- The rows that the drafts of the requests ask for at most. -/
def rowsNeeded (scheduled : Dict ι (List Int)) (ids : List ι) : Nat :=
  (ids.map fun reqId => (scheduled.getD reqId []).length + 1).sum

section Serial

variable {ids : List ι} {bitmask : List μ} {cumulativeIndex : Nat}

theorem requestRows_length_le (request : Request γ κ) (drafts : List Int) :
    (manager.requestRows backend request drafts).length ≤ drafts.length + 1 := by
  rw [requestRows_length]
  split
  · exact Nat.le_succ _
  · exact Nat.le_refl _

/-- One request of the serial path. -/
theorem fillSerial_cons (ids : List ι) (lawful : backend.Lawful) {reqId : ι}
    (listed : (requests.get? reqId).isSome = true)
    (room : cumulativeIndex + ((scheduled.getD reqId []).length + 1) ≤ bitmask.length)
    (kept : manager.idRefuses backend requests scheduled reqId = false) :
    ∃ later filled, AskedAll manager requests later ∧ filled.length = bitmask.length ∧
      filled.take (cumulativeIndex + (manager.idRows backend requests scheduled reqId).length) =
        bitmask.take cumulativeIndex ++ manager.idRows backend requests scheduled reqId ∧
      (manager.idRows backend requests scheduled reqId).length ≤
        (scheduled.getD reqId []).length + 1 ∧
      manager.fillSerial backend scheduled (reqId :: ids) requests bitmask cumulativeIndex =
        manager.fillSerial backend scheduled ids later filled
          (cumulativeIndex + (manager.idRows backend requests scheduled reqId).length) := by
  rcases Option.isSome_iff_exists.mp listed with ⟨request, found⟩
  rw [StructuredOutputManager.idRefuses, found, Option.any_some] at kept
  have rows : manager.idRows backend requests scheduled reqId =
      manager.requestRows backend request (scheduled.getD reqId []) := by
    rw [StructuredOutputManager.idRows, found]
    rfl
  rcases fillRequest_ok lawful room kept with ⟨filled, ran, length, taken⟩
  rw [rows]
  refine ⟨_, filled, AskedAll.insert found, length, taken, requestRows_length_le _ _, ?_⟩
  rw [fillSerial, found]
  simp only [ran, bind, Except.bind]

/-- The serial path fills the rows of the requests one after the other. -/
theorem fillSerial_ok (lawful : backend.Lawful)
    (listed : ∀ reqId ∈ ids, (requests.get? reqId).isSome = true)
    (room : cumulativeIndex + rowsNeeded scheduled ids ≤ bitmask.length)
    (kept : ∀ reqId ∈ ids, manager.idRefuses backend requests scheduled reqId = false) :
    ∃ later filled, manager.fillSerial backend scheduled ids requests bitmask cumulativeIndex =
        .ok (later, filled,
          cumulativeIndex + (ids.flatMap (manager.idRows backend requests scheduled)).length) ∧
      filled.take (cumulativeIndex +
          (ids.flatMap (manager.idRows backend requests scheduled)).length) =
        bitmask.take cumulativeIndex ++ ids.flatMap (manager.idRows backend requests scheduled) ∧
      ∀ reqId, (later.get? reqId).map Request.grammar =
        (requests.get? reqId).map Request.grammar := by
  induction ids generalizing requests bitmask cumulativeIndex with
  | nil => exact ⟨requests, bitmask, rfl, by simp, fun _ => rfl⟩
  | cons reqId ids inductionHypothesis =>
      rw [rowsNeeded, List.map_cons, List.sum_cons] at room
      have here : cumulativeIndex + ((scheduled.getD reqId []).length + 1) ≤ bitmask.length := by
        omega
      rcases fillSerial_cons ids lawful (listed reqId List.mem_cons_self) here
          (kept reqId List.mem_cons_self) with ⟨next, filled, asks, length, taken, below, ran⟩
      have nextListed : ∀ other ∈ ids, (next.get? other).isSome = true := fun other member =>
        (asks.isSome other).trans (listed other (List.mem_cons_of_mem _ member))
      have nextKept : ∀ other ∈ ids,
          manager.idRefuses backend next scheduled other = false := fun other member =>
        (asks.idRefuses other).trans (kept other (List.mem_cons_of_mem _ member))
      have nextRoom : cumulativeIndex + (manager.idRows backend requests scheduled reqId).length +
          rowsNeeded scheduled ids ≤ filled.length := by
        rw [rowsNeeded, length]
        omega
      rcases inductionHypothesis nextListed nextRoom nextKept with
        ⟨later, final, goesOn, finalTaken, grammars⟩
      have sameRows : manager.idRows backend next scheduled =
          manager.idRows backend requests scheduled := funext asks.idRows
      rw [sameRows] at goesOn finalTaken
      rw [List.flatMap_cons, List.length_append, ← Nat.add_assoc]
      refine ⟨later, final, ran.trans goesOn, ?_, ?_⟩
      · rw [finalTaken, taken, List.append_assoc]
      · intro other
        exact (grammars other).trans (asks.grammar other)

/-- The serial path raises where a request refuses a draft. -/
theorem fillSerial_error (lawful : backend.Lawful)
    (listed : ∀ reqId ∈ ids, (requests.get? reqId).isSome = true)
    (room : cumulativeIndex + rowsNeeded scheduled ids ≤ bitmask.length)
    (refused : ∃ reqId ∈ ids, manager.idRefuses backend requests scheduled reqId = true) :
    manager.fillSerial backend scheduled ids requests bitmask cumulativeIndex =
      .error .assertionError := by
  induction ids generalizing requests bitmask cumulativeIndex with
  | nil =>
      rcases refused with ⟨_, member, _⟩
      cases member
  | cons reqId ids inductionHypothesis =>
      rw [rowsNeeded, List.map_cons, List.sum_cons] at room
      have here : cumulativeIndex + ((scheduled.getD reqId []).length + 1) ≤ bitmask.length := by
        omega
      cases first : manager.idRefuses backend requests scheduled reqId with
      | true =>
          rcases Option.isSome_iff_exists.mp (listed reqId List.mem_cons_self) with
            ⟨request, found⟩
          rw [StructuredOutputManager.idRefuses, found, Option.any_some] at first
          rw [fillSerial, found]
          simp only [fillRequest_error lawful here first, bind, Except.bind]
      | false =>
          rcases fillSerial_cons ids lawful (listed reqId List.mem_cons_self) here first
            with ⟨next, filled, asks, length, _, below, ran⟩
          rw [ran]
          apply inductionHypothesis
          · intro other member
            exact (asks.isSome other).trans (listed other (List.mem_cons_of_mem _ member))
          · rw [rowsNeeded, length]
            omega
          · rcases refused with ⟨other, member, refused⟩
            rcases List.mem_cons.mp member with rfl | member
            · rw [first] at refused
              cases refused
            · exact ⟨other, member, (asks.idRefuses other).trans refused⟩

end Serial

section Parallel

/-- The fill of a request that has no drafts. -/
def idFill (manager : StructuredOutputManager κ μ) (requests : Dict ι (Request γ κ)) (reqId : ι)
    (index : Nat) : List (Fill γ) :=
  (requests.get? reqId).elim [] fun request =>
    [⟨request.grammar, index, (manager.shouldFillBitmask request).1⟩]

theorem AskedAll.idFill (asks : AskedAll manager requests later) (reqId : ι) (index : Nat) :
    manager.idFill later reqId index = manager.idFill requests reqId index := by
  unfold StructuredOutputManager.idFill
  rcases asks reqId with same | ⟨request, asked, before, after, asks⟩
  · rw [same]
  · rw [before, after, Option.elim_some, Option.elim_some, asks.grammar, asks.again]

/-- The fills of requests without drafts, row by row. -/
def idFills (manager : StructuredOutputManager κ μ) (requests : Dict ι (Request γ κ)) :
    List ι → Nat → List (Fill γ)
  | [], _ => []
  | reqId :: ids, index =>
      manager.idFill requests reqId index ++ idFills manager requests ids (index + 1)

theorem AskedAll.idFills (asks : AskedAll manager requests later) (ids : List ι) (index : Nat) :
    manager.idFills later ids index = manager.idFills requests ids index := by
  induction ids generalizing index with
  | nil => rfl
  | cons reqId ids inductionHypothesis =>
      rw [StructuredOutputManager.idFills, StructuredOutputManager.idFills, asks.idFill,
        inductionHypothesis]

variable {ids : List ι}

/-- The batches hold the fills of all requests in order. -/
theorem submitBatches_ok (listed : ∀ reqId ∈ ids, (requests.get? reqId).isSome = true)
    (promises : List (List (Fill γ))) (batch : List (Fill γ)) (cumulativeIndex : Nat) :
    ∃ later batches, manager.submitBatches ids requests promises batch cumulativeIndex =
        .ok (later, batches, cumulativeIndex + ids.length) ∧
      batches.flatten =
        promises.flatten ++ batch ++ manager.idFills requests ids cumulativeIndex ∧
      ∀ reqId, (later.get? reqId).map Request.grammar =
        (requests.get? reqId).map Request.grammar := by
  induction ids generalizing requests promises batch cumulativeIndex with
  | nil =>
      rw [submitBatches]
      refine ⟨requests, _, rfl, ?_, fun _ => rfl⟩
      split
      · simp [StructuredOutputManager.idFills]
      · next none =>
        rw [not_not] at none
        simp [StructuredOutputManager.idFills, none]
  | cons reqId ids inductionHypothesis =>
      rcases Option.isSome_iff_exists.mp (listed reqId List.mem_cons_self) with ⟨request, found⟩
      have asks : AskedAll manager requests _ := AskedAll.insert found
      have nextListed : ∀ other ∈ ids, ((requests.insert reqId
          (manager.shouldFillBitmask request).2).get? other).isSome = true := fun other member =>
        (asks.isSome other).trans (listed other (List.mem_cons_of_mem _ member))
      have fill : manager.idFill requests reqId cumulativeIndex =
          [⟨(manager.shouldFillBitmask request).2.grammar, cumulativeIndex,
            (manager.shouldFillBitmask request).1⟩] := by
        rw [StructuredOutputManager.idFill, found, Option.elim_some,
          (shouldFillBitmask_asked manager request).grammar]
      rw [submitBatches, found, List.length_cons, StructuredOutputManager.idFills, fill]
      dsimp only
      split
      · rcases inductionHypothesis nextListed (promises ++ [batch ++ _]) []
          (cumulativeIndex + 1) with ⟨later, batches, ran, flat, grammars⟩
        refine ⟨later, batches, ?_, ?_, fun other => (grammars other).trans (asks.grammar other)⟩
        · rw [ran, Nat.add_assoc, Nat.add_comm 1]
        · rw [flat, asks.idFills]
          simp
      · rcases inductionHypothesis nextListed promises (batch ++ _)
          (cumulativeIndex + 1) with ⟨later, batches, ran, flat, grammars⟩
        refine ⟨later, batches, ?_, ?_, fun other => (grammars other).trans (asks.grammar other)⟩
        · rw [ran, Nat.add_assoc, Nat.add_comm 1]
        · rw [flat, asks.idFills]
          simp

/-- Fills of different rows fill each its own row, in whatever order. -/
theorem fillBitmasks_ok {fills : List (Fill γ)} {bitmask : List μ}
    (inside : ∀ fill ∈ fills, fill.index < bitmask.length)
    (distinct : (fills.map Fill.index).Nodup) :
    ∃ filled, manager.fillBitmasks backend bitmask fills = .ok filled ∧
      (∀ fill ∈ fills,
        filled[fill.index]? = some (manager.row backend fill.grammar fill.applyBitmask)) ∧
      ∀ index, index ∉ fills.map Fill.index → filled[index]? = bitmask[index]? := by
  induction fills generalizing bitmask with
  | nil =>
      refine ⟨bitmask, rfl, ?_, fun _ _ => rfl⟩
      intro fill member
      cases member
  | cons fill fills inductionHypothesis =>
      rw [List.map_cons, List.nodup_cons] at distinct
      have here := inside fill List.mem_cons_self
      have first : manager.fillBitmask backend bitmask fill = .ok _ := if_pos here
      have rest : ∀ other ∈ fills, other.index < (bitmask.set fill.index
          (manager.row backend fill.grammar fill.applyBitmask)).length := by
        intro other member
        rw [List.length_set]
        exact inside other (List.mem_cons_of_mem _ member)
      rcases inductionHypothesis rest distinct.2 with ⟨filled, ran, rows, others⟩
      refine ⟨filled, ?_, ?_, ?_⟩
      · rw [fillBitmasks, first]
        exact ran
      · intro other member
        rcases List.mem_cons.mp member with rfl | member
        · rw [others _ distinct.1, List.getElem?_set_self here]
        · exact rows other member
      · intro index absent
        rw [List.map_cons, List.mem_cons, not_or] at absent
        rw [others index absent.2, List.getElem?_set_ne (Ne.symm absent.1)]

theorem idFills_index (listed : ∀ reqId ∈ ids, (requests.get? reqId).isSome = true) (index : Nat) :
    (manager.idFills requests ids index).map Fill.index = List.range' index ids.length := by
  induction ids generalizing index with
  | nil => rfl
  | cons reqId ids inductionHypothesis =>
      rcases Option.isSome_iff_exists.mp (listed reqId List.mem_cons_self) with ⟨request, found⟩
      have rest := inductionHypothesis
        (fun other member => listed other (List.mem_cons_of_mem _ member)) (index + 1)
      rw [idFills, idFill, found, Option.elim_some, List.singleton_append, List.map_cons, rest]
      rfl

/-- The row of a request without drafts. -/
theorem idFills_row (listed : ∀ reqId ∈ ids, (requests.get? reqId).isSome = true)
    (none : ∀ reqId ∈ ids, scheduled.getD reqId [] = []) (index : Nat) :
    (manager.idFills requests ids index).map
        (fun fill => manager.row backend fill.grammar fill.applyBitmask) =
      ids.flatMap (manager.idRows backend requests scheduled) := by
  induction ids generalizing index with
  | nil => rfl
  | cons reqId ids inductionHypothesis =>
      rcases Option.isSome_iff_exists.mp (listed reqId List.mem_cons_self) with ⟨request, found⟩
      have rest := inductionHypothesis
        (fun other member => listed other (List.mem_cons_of_mem _ member))
        (fun other member => none other (List.mem_cons_of_mem _ member)) (index + 1)
      rw [idFills, idFill, found, Option.elim_some, List.singleton_append, List.map_cons, rest,
        List.flatMap_cons, idRows, found, Option.elim_some, none reqId List.mem_cons_self,
        requestRows]
      simp [bonusRow, stateAfter, content, appliesAfter, follow]

end Parallel

/-- The bitmask that `grammar_bitmask` writes to. -/
def buffer (manager : StructuredOutputManager κ μ) : List μ :=
  manager.grammarBitmask.getD
    (List.replicate (manager.maxNumSeqs * (1 + manager.numSpeculativeTokens)) manager.fullMask)

theorem buffer_length (manager : StructuredOutputManager κ μ) :
    manager.buffer.length = manager.maxNumSeqs * (1 + manager.numSpeculativeTokens) := by
  unfold buffer
  cases there : manager.grammarBitmask with
  | none => simp
  | some bitmask => exact manager.allocated bitmask there

theorem rowsNeeded_le {ids : List ι} {bound : Nat}
    (few : ∀ reqId ∈ ids, (scheduled.getD reqId []).length ≤ bound) :
    rowsNeeded scheduled ids ≤ ids.length * (1 + bound) := by
  induction ids with
  | nil => simp [rowsNeeded]
  | cons reqId ids inductionHypothesis =>
      have rest := inductionHypothesis fun other member => few other (List.mem_cons_of_mem _ member)
      have first := few reqId List.mem_cons_self
      rw [rowsNeeded] at rest ⊢
      rw [List.map_cons, List.sum_cons, List.length_cons, Nat.succ_mul]
      omega

section Paths

variable {interleave : List (List (Fill γ)) → List (Fill γ)} {ids : List ι}

theorem computeGrammarBitmask_serial (some : ids ≠ [])
    (serial : ¬ (ids.length > fillBitmaskParallelThreshold ∧ manager.numSpeculativeTokens = 0)) :
    manager.computeGrammarBitmask backend interleave requests ids scheduled =
      (manager.fillSerial backend scheduled ids requests manager.buffer 0).bind fun outcome =>
        .ok (Option.some (outcome.2.1.take outcome.2.2), outcome.1) := by
  unfold computeGrammarBitmask
  rw [if_neg some]
  rw [if_neg serial]
  rfl

theorem computeGrammarBitmask_parallel (some : ids ≠ [])
    (parallel : ids.length > fillBitmaskParallelThreshold ∧ manager.numSpeculativeTokens = 0) :
    manager.computeGrammarBitmask backend interleave requests ids scheduled =
      (manager.submitBatches ids requests [] [] 0).bind fun outcome =>
        (manager.fillBitmasks backend manager.buffer (interleave outcome.2.1)).bind fun filled =>
          .ok (Option.some (filled.take outcome.2.2), outcome.1) := by
  unfold computeGrammarBitmask
  rw [if_neg some]
  rw [if_pos parallel]
  rfl

/-- The worker threads fill the rows of requests without drafts. -/
theorem fillBitmasks_interleaved {order : List (Fill γ)}
    (listed : ∀ reqId ∈ ids, (requests.get? reqId).isSome = true)
    (none : ∀ reqId ∈ ids, scheduled.getD reqId [] = [])
    (fair : order.Perm (manager.idFills requests ids 0)) {bitmask : List μ}
    (room : ids.length ≤ bitmask.length) :
    ∃ filled, manager.fillBitmasks backend bitmask order = .ok filled ∧
      filled.take ids.length = ids.flatMap (manager.idRows backend requests scheduled) := by
  have indices : (manager.idFills requests ids 0).map Fill.index = _ := idFills_index listed 0
  have rows : (manager.idFills requests ids 0).map
      (fun fill => manager.row backend fill.grammar fill.applyBitmask) = _ :=
    idFills_row listed none 0
  have inside : ∀ fill ∈ order, fill.index < bitmask.length := by
    intro fill member
    have listedIndex : fill.index ∈ (manager.idFills requests ids 0).map Fill.index :=
      List.mem_map_of_mem (fair.mem_iff.mp member)
    rw [indices, List.mem_range'_1] at listedIndex
    omega
  have distinct : (order.map Fill.index).Nodup := by
    rw [(fair.map Fill.index).nodup_iff, indices]
    exact List.nodup_range'
  rcases (fillBitmasks_ok inside distinct :
    ∃ filled, manager.fillBitmasks backend bitmask order = .ok filled ∧ _) with
    ⟨filled, ran, here, _⟩
  refine ⟨filled, ran, ?_⟩
  rw [← rows]
  have count : (manager.idFills requests ids 0).length = ids.length := by
    rw [← List.length_map (f := Fill.index), indices, List.length_range']
  apply List.ext_getElem?
  intro index
  rw [List.getElem?_take, List.getElem?_map]
  split
  · next below =>
    have there : index < (manager.idFills requests ids 0).length := by rwa [count]
    have place : ((manager.idFills requests ids 0)[index]).index = index := by
      have mapped := List.getElem_map (l := manager.idFills requests ids 0) Fill.index
        (i := index) (h := by simpa using there)
      rw [← mapped]
      simp [indices]
    have found := here _ (fair.mem_iff.mpr (List.getElem_mem there))
    rw [place] at found
    rw [found, List.getElem?_eq_getElem there]
    rfl
  · next beyond =>
    rw [List.getElem?_eq_none (by omega)]
    rfl

end Paths

/-- For any scheduled drafts, the call fills the rows of the requests in their order, serially or
in parallel, and leaves every grammar as it was; it raises exactly when a request that is
constrained from the start has a draft that its grammar rejects. -/
theorem computeGrammarBitmask_rows (backend : StructuredOutputGrammar γ μ) (lawful : backend.Lawful)
    (manager : StructuredOutputManager κ μ) (interleave : List (List (Fill γ)) → List (Fill γ))
    (fair : ∀ batches, (interleave batches).Perm batches.flatten)
    (requests : Dict ι (Request γ κ)) (ids : List ι) (scheduled : Dict ι (List Int))
    (some : ids ≠ []) (listed : ∀ reqId ∈ ids, (requests.get? reqId).isSome = true)
    (batch : ids.length ≤ manager.maxNumSeqs)
    (few : ∀ reqId ∈ ids, (scheduled.getD reqId []).length ≤ manager.numSpeculativeTokens) :
    if ∃ reqId ∈ ids, manager.idRefuses backend requests scheduled reqId = true then
      manager.computeGrammarBitmask backend interleave requests ids scheduled =
        .error .assertionError
    else
      ∃ later, manager.computeGrammarBitmask backend interleave requests ids scheduled =
          .ok (Option.some (ids.flatMap (manager.idRows backend requests scheduled)), later) ∧
        ∀ reqId, (later.get? reqId).map Request.grammar =
          (requests.get? reqId).map Request.grammar := by
  have room : rowsNeeded scheduled ids ≤ manager.buffer.length := by
    rw [buffer_length]
    exact Nat.le_trans (rowsNeeded_le few) (Nat.mul_le_mul_right _ batch)
  by_cases parallel :
      ids.length > fillBitmaskParallelThreshold ∧ manager.numSpeculativeTokens = 0
  · have none : ∀ reqId ∈ ids, scheduled.getD reqId [] = [] := by
      intro reqId member
      have bound := few reqId member
      rw [parallel.2] at bound
      exact List.eq_nil_of_length_eq_zero (Nat.le_zero.mp bound)
    have keeps : ¬ ∃ reqId ∈ ids, manager.idRefuses backend requests scheduled reqId = true := by
      rintro ⟨reqId, member, refused⟩
      unfold idRefuses at refused
      rw [none reqId member] at refused
      simp [refusesDrafts, content, refuses] at refused
    have fits : ids.length ≤ manager.buffer.length := by
      rw [buffer_length, parallel.2]
      omega
    rcases (submitBatches_ok listed [] [] 0 :
      ∃ later batches, manager.submitBatches ids requests [] [] 0 = .ok (later, batches, _) ∧ _) with
      ⟨later, batches, submitted, flat, grammars⟩
    have order := fair batches
    rw [flat, List.flatten_nil, List.nil_append, List.nil_append] at order
    rcases (fillBitmasks_interleaved listed none order fits :
      ∃ filled, manager.fillBitmasks backend manager.buffer (interleave batches) = .ok filled ∧ _)
      with ⟨filled, ran, rows⟩
    rw [if_neg keeps, computeGrammarBitmask_parallel some parallel, submitted]
    refine ⟨later, ?_, grammars⟩
    simp only [Except.bind, ran, Nat.zero_add, rows]
  · rw [computeGrammarBitmask_serial some parallel]
    rw [← Nat.zero_add (rowsNeeded scheduled ids)] at room
    split
    · next refused =>
      rw [fillSerial_error lawful listed room refused]
      rfl
    · next keeps =>
      have kept : ∀ reqId ∈ ids, manager.idRefuses backend requests scheduled reqId = false := by
        intro reqId member
        rw [← Bool.not_eq_true]
        exact fun refused => keeps ⟨reqId, member, refused⟩
      rcases fillSerial_ok lawful listed room kept with ⟨later, filled, ran, rows, grammars⟩
      refine ⟨later, ?_, grammars⟩
      rw [ran]
      simp only [Except.bind]
      rw [rows, List.take_zero, List.nil_append]

/-- A grammar of the tokens 0, 1, 2, which has terminated behind them. -/
def ladder : StructuredOutputGrammar Nat Nat where
  acceptTokens state tokens :=
    if tokens = (List.range' state tokens.length).map Int.ofNat then (true, state + tokens.length)
    else (false, state)
  validateTokens state tokens :=
    ((tokens.zip (List.range' state tokens.length)).takeWhile fun pair =>
      pair.1 = Int.ofNat pair.2).map Prod.fst
  rollback state numTokens := state - numTokens
  fillBitmask state := state + 1
  isTerminated state := decide (3 ≤ state)

theorem ladder_lawful : ladder.Lawful where
  rollback_acceptEach state tokens accepted moved := by
    suffices grown : accepted = state + tokens.length by
      rw [grown]
      exact Nat.add_sub_cancel ..
    induction tokens generalizing state with
    | nil => exact (Option.some.inj moved).symm
    | cons token tokens inductionHypothesis =>
        rw [StructuredOutputGrammar.acceptEach] at moved
        split at moved
        · next taken =>
          have next : (ladder.acceptTokens state [token]).2 = state + 1 := by
            simp only [ladder] at taken ⊢
            split at taken
            · next fits => rw [if_pos fits]; rfl
            · cases taken
          rw [inductionHypothesis _ moved, next, List.length_cons]
          omega
        · cases moved
  accept_of_validate state token valid := by
    by_cases here : token = (state : Int)
    · simp [ladder, here]
    · simp [ladder, List.takeWhile, here] at valid

/-- A request of that grammar. -/
def ladderRequest : Request Nat Unit :=
  ⟨some [7], [7], 1, 0, ⟨0, none, none, ()⟩⟩

def ladderManager (isDiffusion : Bool) : StructuredOutputManager Unit Nat :=
  ⟨none, false, 2, 3, isDiffusion, 0, none, by rintro _ ⟨⟩⟩

def ladderRequests : Dict Nat (Request Nat Unit) :=
  ⟨[(0, ladderRequest)], by decide⟩

/-- Drafts with padding: the rows behind padding are not constrained, the bonus row is. -/
theorem computeGrammarBitmask_rows_ladder :
    ∃ later, (ladderManager false).computeGrammarBitmask ladder List.flatten ladderRequests [0]
        ⟨[(0, [0, -1, 1])], by decide⟩ = .ok (some [1, 2, 0, 2], later) ∧
      ∀ reqId, (later.get? reqId).map Request.grammar =
        (ladderRequests.get? reqId).map Request.grammar := by
  have rows := computeGrammarBitmask_rows ladder ladder_lawful (ladderManager false) List.flatten
    (fun _ => .refl _) ladderRequests [0] ⟨[(0, [0, -1, 1])], by decide⟩ (by decide) (by decide)
    (by decide) (by decide)
  exact rows

/-- A draft that the grammar rejects raises, and a diffusion model has no row for a bonus token. -/
theorem rejectedDraft_raises :
    (ladderManager false).computeGrammarBitmask ladder List.flatten ladderRequests [0]
        ⟨[(0, [0, 5])], by decide⟩ = .error .assertionError ∧
      ((ladderManager true).computeGrammarBitmask ladder List.flatten ladderRequests [0]
        ⟨[(0, [0])], by decide⟩).map Prod.fst = .ok (some [1]) := by
  constructor
  · rfl
  · rfl

end StructuredOutputManager

end Vllm.StructuredOutput
