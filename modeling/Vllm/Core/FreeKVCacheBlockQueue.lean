import Vllm.Core.Error
import Vllm.Library.DoublyLinked

/-!
# The free block queue

`FreeKVCacheBlockQueue` threads the free blocks through the `prev_free_block`
and `next_free_block` fields of the blocks, between a fake head and a fake
tail.  Only this class writes these two fields, so the model keeps them in the
queue (`links`) instead of in the block records.

Every operation is specified by a list operation on the represented list; the
callers never look at the pointers.
-/

namespace Vllm.Core

open Vllm.Library

/-- Block ids range over `0 .. num_gpu_blocks - 1`. -/
abbrev BlockId := Nat

/-- The linked list of free blocks with its separate counter. -/
structure FreeKVCacheBlockQueue where
  links : Links BlockId
  numFreeBlocks : Int

namespace FreeKVCacheBlockQueue

/-- Link the given blocks consecutively and connect the two fake blocks. -/
def init : List BlockId → FreeKVCacheBlockQueue
  | [] =>
      { links := ((⟨fun _ => none, fun _ => none⟩ : Links BlockId).setNext .head
          (some .tail)).setPrev .tail (some .head)
        numFreeBlocks := 0 }
  | first :: rest =>
      let threaded := Links.linkAfter ⟨fun _ => none, fun _ => none⟩ (.node first) rest
      { links := (((threaded.1.setNext .head (some (.node first))).setPrev (.node first)
          (some .head)).setPrev .tail (some threaded.2)).setNext threaded.2 (some .tail)
        numFreeBlocks := (first :: rest).length }

/-- Pop the first free block. -/
def popleft (queue : FreeKVCacheBlockQueue) :
    Except PyError (BlockId × FreeKVCacheBlockQueue) :=
  match queue.links.next .head with
  | some (.node first) =>
      match queue.links.next (.node first) with
      | none =>
          .error (.runtimeError ("Invalid block found in popleft() " ++
            "which doesn't have a valid next_free_block"))
      | some second =>
          .ok (first,
            { links := ((queue.links.setNext .head (some second)).setPrev second
                (some .head)).detach (.node first)
              numFreeBlocks := queue.numFreeBlocks - 1 })
  | _ =>
      -- The successor of the fake head is the fake tail, or missing.
      if queue.numFreeBlocks = 0 then .error (.valueError "No free blocks available")
      else .error .assertionError

/-- The loop of `popleft_n`: take `n` blocks from `current` on, clearing their
links, and return the link the loop stopped at. -/
def popRun (links : Links BlockId) :
    Nat → Option (Link BlockId) →
      Except PyError (List BlockId × Links BlockId × Option (Link BlockId))
  | 0, current => .ok ([], links, current)
  | n + 1, some (.node block) => do
      let (rest, links, current) ←
        popRun (links.detach (.node block)) n (links.next (.node block))
      .ok (block :: rest, links, current)
  -- The fake blocks are never popped: `n` does not exceed the number of blocks.
  | _ + 1, _ => .error .assertionError

/-- Pop the first `n` free blocks. -/
def popleftN (queue : FreeKVCacheBlockQueue) (n : Nat) :
    Except PyError (List BlockId × FreeKVCacheBlockQueue) := do
  if n = 0 then
    return ([], queue)
  pyAssert ((n : Int) ≤ queue.numFreeBlocks)
  let (popped, links, current) ← popRun queue.links n (queue.links.next .head)
  let links := match current with
    | some link => (links.setNext .head (some link)).setPrev link (some .head)
    | none => links
  return (popped, { links := links, numFreeBlocks := queue.numFreeBlocks - n })

/-- Remove a block from the middle of the free list. -/
def remove (queue : FreeKVCacheBlockQueue) (block : BlockId) :
    Except PyError FreeKVCacheBlockQueue :=
  match queue.links.prev (.node block), queue.links.next (.node block) with
  | some before, some after =>
      .ok
        { links := ((queue.links.setNext before (some after)).setPrev after
            (some before)).detach (.node block)
          numFreeBlocks := queue.numFreeBlocks - 1 }
  | _, _ => .error (.runtimeError "remove() called on an invalid block")

/-- Put a list of blocks at the front of the free list. -/
def prependN (queue : FreeKVCacheBlockQueue) (blocks : List BlockId) :
    Except PyError FreeKVCacheBlockQueue :=
  if blocks.length = 0 then .ok queue
  else
    match queue.links.next .head with
    | none => .error .assertionError
    | some first =>
        let threaded := Links.linkAfter queue.links .head blocks
        .ok
          { links := (threaded.1.setNext threaded.2 (some first)).setPrev first
              (some threaded.2)
            numFreeBlocks := queue.numFreeBlocks + blocks.length }

/-- Put a list of blocks at the end of the free list. -/
def appendN (queue : FreeKVCacheBlockQueue) (blocks : List BlockId) :
    Except PyError FreeKVCacheBlockQueue :=
  if blocks.length = 0 then .ok queue
  else
    match queue.links.prev .tail with
    | none => .error .assertionError
    | some last =>
        let threaded := Links.linkAfter queue.links last blocks
        .ok
          { links := (threaded.1.setNext threaded.2 (some .tail)).setPrev .tail
              (some threaded.2)
            numFreeBlocks := queue.numFreeBlocks + blocks.length }

/-- Read the free list by following `next_free_block` from the fake head.  The
source loops without a bound; `none` inside the result means that `fuel` steps
did not reach the fake tail. -/
def getAllFreeBlocks (queue : FreeKVCacheBlockQueue) (fuel : Nat) :
    Except PyError (Option (List BlockId)) :=
  match queue.links.next .head with
  | none =>
      .error (.runtimeError "next_free_block of fake_free_list_head should always exist")
  | some first => .ok (queue.links.walk fuel first)

/-! ## Refinement of lists -/

/-- The pointers thread exactly `blocks`, and the counter agrees. -/
structure Represents (queue : FreeKVCacheBlockQueue) (blocks : List BlockId) : Prop where
  links : queue.links.Represents blocks
  count : queue.numFreeBlocks = blocks.length

variable {blocks fresh : List BlockId} {queue : FreeKVCacheBlockQueue}

theorem init_represents (nodup : blocks.Nodup) : (init blocks).Represents blocks := by
  cases blocks with
  | nil =>
      refine ⟨⟨List.nodup_nil, ?_, ?_, ?_, ?_⟩, rfl⟩
      · exact List.isChain_cons_cons.mpr
          ⟨⟨by simp [init, Links.setNext_next], by simp [init, Links.setPrev_prev]⟩,
            List.IsChain.singleton _⟩
      · simp [init, Links.setNext_next]
      · simp [init, Links.setPrev_prev]
      · simp [init, Links.setNext_next]
  | cons first rest =>
      have pathNodup : (Link.node first :: rest.map Link.node).Nodup := by
        simpa using (List.nodup_map_iff Links.node_injective).mpr nodup
      obtain ⟨linked, lastEq, nextFrame, prevFrame⟩ :=
        Links.linkAfter_spec rest ⟨fun _ => none, fun _ => none⟩ (.node first) pathNodup
      obtain ⟨initial, pathEq⟩ : ∃ initial, Link.node first :: rest.map Link.node =
          initial ++ [(Links.linkAfter ⟨fun _ => none, fun _ => none⟩
            (Link.node first) rest).2] := by
        refine ⟨(Link.node first :: rest.map Link.node).dropLast, ?_⟩
        rw [List.getLast?_eq_getLast_of_ne_nil (by simp), Option.some.injEq] at lastEq
        rw [← lastEq, List.dropLast_append_getLast]
      have lastMem : (Links.linkAfter ⟨fun _ => none, fun _ => none⟩
          (Link.node first) rest).2 ∈ Link.node first :: rest.map Link.node := by
        rw [pathEq]
        simp
      simp only [init]
      generalize Links.linkAfter ⟨fun _ => none, fun _ => none⟩ (Link.node first) rest =
        threaded at *
      rcases threaded with ⟨threaded, last⟩
      simp only at linked lastEq nextFrame prevFrame pathEq lastMem ⊢
      have dropLastEq : (Link.node first :: rest.map Link.node).dropLast = initial := by
        rw [pathEq, List.dropLast_concat]
      have isNode : ∀ link ∈ Link.node first :: rest.map Link.node,
          link ≠ Link.head ∧ link ≠ Link.tail := by
        intro link member
        rw [← List.map_cons] at member
        obtain ⟨value, -, rfl⟩ := List.mem_map.mp member
        simp
      refine ⟨⟨nodup, ?_, ?_, ?_, ?_⟩, rfl⟩
      · -- The fake head, the threaded blocks, the fake tail.
        have shape : Links.path (first :: rest) =
            [] ++ Link.head :: (Link.node first :: (rest.map Link.node ++ [Link.tail])) := by
          simp [Links.path]
        have inner : Link.node first :: (rest.map Link.node ++ [Link.tail]) =
            initial ++ last :: Link.tail :: [] := by
          rw [← List.cons_append, pathEq]
          simp
        rw [shape]
        refine Links.linked_append_cons_cons.mpr ⟨List.IsChain.singleton _, ⟨?_, ?_⟩, ?_⟩
        · simp [Links.setNext_next, (isNode last lastMem).1.symm]
        · simp [Links.setPrev_prev]
        · rw [inner]
          refine Links.linked_append_cons_cons.mpr ⟨?_, ⟨?_, ?_⟩, List.IsChain.singleton _⟩
          · rw [← pathEq]
            refine linked.congr ?_ ?_
            · intro link member
              have differ : link ≠ last := by
                rintro rfl
                rw [dropLastEq] at member
                rw [pathEq, List.nodup_append] at pathNodup
                exact pathNodup.2.2 link member link (by simp) rfl
              have notHead := (isNode link (List.dropLast_subset _ member)).1
              simp [Links.setNext_next, differ, notHead]
            · intro link member
              have notTail := (isNode link (List.mem_cons_of_mem _ member)).2
              have differ : link ≠ Link.node first := by
                rintro rfl
                exact (List.nodup_cons.mp pathNodup).1 member
              simp [Links.setPrev_prev, notTail, differ]
          · simp [Links.setNext_next]
          · simp [Links.setPrev_prev]
      · have notLast := (isNode last lastMem).2.symm
        have outside : Link.tail ∉ (Link.node first :: rest.map Link.node).dropLast :=
          fun member => (isNode _ (List.dropLast_subset _ member)).2 rfl
        simp [Links.setNext_next, notLast, nextFrame _ outside]
      · intro value outside
        have notMem : Link.node value ∉ Link.node first :: rest.map Link.node := by
          simpa [List.mem_map] using outside
        rw [List.mem_cons, not_or] at notMem
        simp [Links.setPrev_prev, notMem.1, prevFrame _ notMem.2]
      · intro value outside
        have notMem : Link.node value ∉ Link.node first :: rest.map Link.node := by
          simpa [List.mem_map] using outside
        have notLast : Link.node value ≠ last := by
          rintro rfl
          exact notMem lastMem
        have notInner : Link.node value ∉ (Link.node first :: rest.map Link.node).dropLast :=
          fun member => notMem (List.dropLast_subset _ member)
        simp [Links.setNext_next, notLast, nextFrame _ notInner]

/-- `popleft` takes the head of the represented list. -/
theorem popleft_spec {first : BlockId} {rest : List BlockId}
    (represents : queue.Represents (first :: rest)) :
    ∃ queue', queue.popleft = .ok (first, queue') ∧ queue'.Represents rest := by
  obtain ⟨back, pathEq⟩ := Links.exists_path_eq_firstLink_cons rest
  have whole : Links.path (first :: rest) =
      [] ++ Link.head :: Link.node first :: Links.firstLink rest :: back := by
    rw [List.nil_append, Links.path, List.map_cons, List.cons_append, pathEq]
  have linked := represents.links.linked
  have nodup := Links.nodup_path represents.links.nodup
  rw [whole] at linked nodup
  have headNext := (List.isChain_cons_cons.mp linked).1.1
  have firstNext :=
    (List.isChain_cons_cons.mp (List.isChain_cons_cons.mp linked).2).1.1
  have unlinked := linked.unlink nodup
  rw [List.nil_append, ← pathEq] at unlinked
  have popped : queue.popleft = .ok (first,
      { links := ((queue.links.setNext .head (some (Links.firstLink rest))).setPrev
          (Links.firstLink rest) (some .head)).detach (.node first)
        numFreeBlocks := queue.numFreeBlocks - 1 }) := by
    simp only [popleft, headNext, firstNext]
  refine ⟨_, popped, ⟨⟨?_, unlinked, ?_, ?_, ?_⟩, ?_⟩⟩
  · exact (List.nodup_cons.mp represents.links.nodup).2
  · simp [Links.detach_next, Links.setNext_next, represents.links.tailNext]
  · intro value outside
    by_cases same : value = first
    · simp [Links.detach_prev, same]
    · have differ := Links.node_ne_firstLink outside
      simp [Links.detach_prev, Links.setPrev_prev, same, differ,
        represents.links.detachedPrev value (by simp [same, outside])]
  · intro value outside
    by_cases same : value = first
    · simp [Links.detach_next, same]
    · simp [Links.detach_next, Links.setNext_next, same,
        represents.links.detachedNext value (by simp [same, outside])]
  · rw [represents.count]
    simp

theorem popRun_spec (n : Nat) :
    ∀ (links : Links BlockId) (blocks : List BlockId), blocks.Nodup →
      links.Linked (blocks.map Link.node ++ [Link.tail]) → n ≤ blocks.length →
      ∃ links', popRun links n (some (Links.firstLink blocks)) =
          .ok (blocks.take n, links', some (Links.firstLink (blocks.drop n))) ∧
        links'.Linked ((blocks.drop n).map Link.node ++ [Link.tail]) ∧
        (∀ block ∈ blocks.take n, links'.prev (.node block) = none ∧
          links'.next (.node block) = none) ∧
        (∀ link, (∀ block ∈ blocks.take n, link ≠ .node block) →
          links'.prev link = links.prev link ∧ links'.next link = links.next link) := by
  induction n with
  | zero =>
      intro links blocks _ linked _
      exact ⟨links, by simp [popRun], by simpa using linked, by simp, by simp⟩
  | succ n ih =>
      intro links blocks nodup linked bound
      cases blocks with
      | nil => simp at bound
      | cons first rest =>
          obtain ⟨firstOut, restNodup⟩ := List.nodup_cons.mp nodup
          obtain ⟨back, pathEq⟩ := Links.exists_path_eq_firstLink_cons rest
          have firstNext : links.next (.node first) = some (Links.firstLink rest) := by
            rw [List.map_cons, List.cons_append, pathEq] at linked
            exact (List.isChain_cons_cons.mp linked).1.1
          have notFirst : ∀ link ∈ rest.map Link.node ++ [Link.tail], link ≠ .node first := by
            rintro link member rfl
            simp [firstOut] at member
          have restLinked : (links.detach (.node first)).Linked
              (rest.map Link.node ++ [Link.tail]) := by
            refine Links.Linked.congr (List.IsChain.tail linked) ?_ ?_
            · intro link member
              rw [Links.detach_next, if_neg (notFirst link (List.dropLast_subset _ member))]
            · intro link member
              rw [Links.detach_prev, if_neg (notFirst link (List.mem_of_mem_tail member))]
          obtain ⟨links', runEq, restLinked', detached, frame⟩ :=
            ih _ rest restNodup restLinked (by simpa using bound)
          refine ⟨links', ?_, restLinked', ?_, ?_⟩
          · rw [Links.firstLink_cons, popRun, firstNext, runEq]
            rfl
          · intro block member
            rw [List.take_succ_cons, List.mem_cons] at member
            rcases member with rfl | member
            · have outside : ∀ other ∈ rest.take n, Link.node block ≠ .node other := by
                rintro other member same
                cases same
                exact firstOut (List.mem_of_mem_take member)
              rw [(frame _ outside).1, (frame _ outside).2]
              simp [Links.detach_prev, Links.detach_next]
            · exact detached block member
          · intro link outside
            rw [List.take_succ_cons, List.forall_mem_cons] at outside
            rw [(frame link outside.2).1, (frame link outside.2).2]
            simp [Links.detach_prev, Links.detach_next, outside.1]

/-- `popleft_n` takes a prefix of the represented list. -/
theorem popleftN_spec (represents : queue.Represents blocks) {n : Nat} (bound : n ≤ blocks.length) :
    ∃ queue', queue.popleftN n = .ok (blocks.take n, queue') ∧
      queue'.Represents (blocks.drop n) := by
  by_cases zero : n = 0
  · subst zero
    exact ⟨queue, by simp [popleftN, pure, Except.pure], by simpa using represents⟩
  obtain ⟨links', runEq, restLinked, detached, frame⟩ :=
    popRun_spec n queue.links blocks represents.links.nodup
      (List.IsChain.tail represents.links.linked) bound
  have headNext : queue.links.next .head = some (Links.firstLink blocks) :=
    represents.links.next_head
  have counted : (n : Int) ≤ queue.numFreeBlocks := by
    rw [represents.count]
    exact_mod_cast bound
  have dropNodup := represents.links.nodup.sublist (List.drop_sublist n blocks)
  have pathNodup := Links.nodup_path dropNodup
  obtain ⟨back, pathEq⟩ := Links.exists_path_eq_firstLink_cons (blocks.drop n)
  have popped : queue.popleftN n = .ok (blocks.take n,
      { links := (links'.setNext .head (some (Links.firstLink (blocks.drop n)))).setPrev
          (Links.firstLink (blocks.drop n)) (some .head)
        numFreeBlocks := queue.numFreeBlocks - n }) := by
    simp [popleftN, zero, pyAssert, counted, headNext, runEq, bind, Except.bind, pure, Except.pure]
  refine ⟨_, popped, ⟨⟨dropNodup, ?_, ?_, ?_, ?_⟩, ?_⟩⟩
  · rw [Links.path, pathEq] at pathNodup ⊢
    rw [pathEq] at restLinked
    obtain ⟨headOut, restNodup⟩ := List.nodup_cons.mp pathNodup
    refine List.isChain_cons_cons.mpr ⟨⟨?_, ?_⟩, restLinked.congr ?_ ?_⟩
    · simp [Links.setNext_next]
    · simp [Links.setPrev_prev]
    · intro link member
      have differ : link ≠ Link.head := by
        rintro rfl
        exact headOut (List.dropLast_subset _ member)
      simp [Links.setNext_next, differ]
    · intro link member
      have differ : link ≠ Links.firstLink (blocks.drop n) := by
        rintro rfl
        exact (List.nodup_cons.mp restNodup).1 member
      simp [Links.setPrev_prev, differ]
  · have outside : ∀ block ∈ blocks.take n, Link.tail ≠ Link.node block := by simp
    simp [Links.setNext_next, (frame _ outside).2, represents.links.tailNext]
  · intro value outside
    rw [Links.setPrev_prev, if_neg (Links.node_ne_firstLink outside), Links.setNext_prev]
    by_cases popped : value ∈ blocks.take n
    · exact (detached value popped).1
    · rw [(frame _ (by rintro other member same; cases same; exact popped member)).1]
      exact represents.links.detachedPrev value fun member =>
        (List.mem_append.mp ((List.take_append_drop n blocks).symm ▸ member)).elim
          popped outside
  · intro value outside
    rw [Links.setPrev_next, Links.setNext_next, if_neg (by simp)]
    by_cases popped : value ∈ blocks.take n
    · exact (detached value popped).2
    · rw [(frame _ (by rintro other member same; cases same; exact popped member)).2]
      exact represents.links.detachedNext value fun member =>
        (List.mem_append.mp ((List.take_append_drop n blocks).symm ▸ member)).elim
          popped outside
  · simp only [represents.count, List.length_drop]
    omega

/-- `remove` erases a member of the represented list. -/
theorem remove_spec (represents : queue.Represents blocks) {block : BlockId}
    (member : block ∈ blocks) :
    ∃ queue', queue.remove block = .ok queue' ∧ queue'.Represents (blocks.erase block) := by
  obtain ⟨before, after, rfl⟩ := List.append_of_mem member
  have nodup := represents.links.nodup
  have erased : (before ++ block :: after).erase block = before ++ after := by
    have outside : block ∉ before := fun inBefore =>
      (List.nodup_append.mp nodup).2.2 block inBefore block (by simp) rfl
    rw [List.erase_append_right _ outside, List.erase_cons_head]
  obtain ⟨front, frontEq⟩ := Links.exists_path_eq_concat_lastLink before
  obtain ⟨back, backEq⟩ := Links.exists_path_eq_firstLink_cons after
  have whole : Links.path (before ++ block :: after) =
      front ++ Links.lastLink before :: Link.node block :: Links.firstLink after :: back := by
    rw [Links.path, List.map_append, List.map_cons, List.append_assoc, List.cons_append,
      backEq, ← List.cons_append, frontEq]
    simp
  have linked := represents.links.linked
  have pathNodup := Links.nodup_path nodup
  rw [whole] at linked pathNodup
  obtain ⟨-, beforeJoined, restLinked⟩ := Links.linked_append_cons_cons.mp linked
  have afterJoined := (List.isChain_cons_cons.mp restLinked).1
  have unlinked := linked.unlink pathNodup
  have restored : front ++ Links.lastLink before :: Links.firstLink after :: back =
      Links.path (before ++ after) := by
    rw [Links.path, List.map_append, List.append_assoc, backEq, ← List.cons_append, frontEq]
    simp
  rw [restored] at unlinked
  have removed : queue.remove block = .ok
      { links := ((queue.links.setNext (Links.lastLink before)
          (some (Links.firstLink after))).setPrev (Links.firstLink after)
            (some (Links.lastLink before))).detach (.node block)
        numFreeBlocks := queue.numFreeBlocks - 1 } := by
    simp only [remove, beforeJoined.2, afterJoined.1]
  rw [erased]
  have split : ∀ {value}, value ∉ before ++ after → value ≠ block →
      value ∉ before ++ block :: after := by
    intro value outside differ
    simp only [List.mem_append, List.mem_cons, not_or] at outside ⊢
    exact ⟨outside.1, differ, outside.2⟩
  refine ⟨_, removed, ⟨⟨?_, unlinked, ?_, ?_, ?_⟩, ?_⟩⟩
  · exact nodup.sublist (List.Sublist.append_left (List.sublist_cons_self _ _) _)
  · simp [Links.detach_next, Links.setNext_next, Links.tail_ne_lastLink, represents.links.tailNext]
  · intro value outside
    by_cases same : value = block
    · simp [Links.detach_prev, same]
    · have differ : Link.node value ≠ Links.firstLink after :=
        Links.node_ne_firstLink fun inAfter => outside (List.mem_append_right _ inAfter)
      simp [Links.detach_prev, Links.setPrev_prev, same, differ,
        represents.links.detachedPrev value (split outside same)]
  · intro value outside
    by_cases same : value = block
    · simp [Links.detach_next, same]
    · have differ : Link.node value ≠ Links.lastLink before :=
        Links.node_ne_lastLink fun inBefore => outside (List.mem_append_left _ inBefore)
      simp [Links.detach_next, Links.setNext_next, same, differ,
        represents.links.detachedNext value (split outside same)]
  · rw [represents.count]
    simp only [List.length_append, List.length_cons]
    omega

/-- Threading fresh blocks between two neighbours of the represented list. -/
private theorem insert_represents {links : Links BlockId} (before after fresh : List BlockId)
    (represents : links.Represents (before ++ after)) (nodup : (before ++ (fresh ++ after)).Nodup) :
    let threaded := Links.linkAfter links (Links.lastLink before) fresh
    ((threaded.1.setNext threaded.2 (some (Links.firstLink after))).setPrev
      (Links.firstLink after) (some threaded.2)).Represents (before ++ (fresh ++ after)) := by
  intro threaded
  obtain ⟨front, frontEq⟩ := Links.exists_path_eq_concat_lastLink before
  obtain ⟨back, backEq⟩ := Links.exists_path_eq_firstLink_cons after
  have oldPath : Links.path (before ++ after) =
      front ++ Links.lastLink before :: Links.firstLink after :: back := by
    rw [Links.path, List.map_append, List.append_assoc, backEq, ← List.cons_append, frontEq]
    simp
  have newPath : Links.path (before ++ (fresh ++ after)) =
      front ++ Links.lastLink before ::
        (fresh.map Link.node ++ Links.firstLink after :: back) := by
    rw [Links.path, List.map_append, List.map_append, List.append_assoc, List.append_assoc,
      backEq, ← List.cons_append, frontEq]
    simp
  have linked := represents.linked
  have pathNodup := Links.nodup_path nodup
  rw [oldPath] at linked
  rw [newPath] at pathNodup
  have inserted := linked.insert pathNodup
  rw [← newPath] at inserted
  have newNodup : (Links.lastLink before :: fresh.map Link.node).Nodup := by
    rw [List.nodup_append] at pathNodup
    rw [← List.cons_append, List.nodup_append] at pathNodup
    exact pathNodup.2.1.1
  obtain ⟨-, lastEq, nextFrame, prevFrame⟩ :=
    Links.linkAfter_spec fresh links (Links.lastLink before) newNodup
  have lastMem : threaded.2 ∈ Links.lastLink before :: fresh.map Link.node :=
    List.mem_of_getLast? lastEq
  refine ⟨nodup, inserted, ?_, ?_, ?_⟩
  · have notThreaded : Link.tail ∉ Links.lastLink before :: fresh.map Link.node := by
      simp [Links.tail_ne_lastLink]
    have differ : Link.tail ≠ threaded.2 := by
      intro same
      exact notThreaded (same ▸ lastMem)
    rw [Links.setPrev_next, Links.setNext_next, if_neg differ,
      nextFrame _ fun member => notThreaded (List.dropLast_subset _ member)]
    exact represents.tailNext
  · intro value outside
    simp only [List.mem_append, not_or] at outside
    rw [Links.setPrev_prev, if_neg (Links.node_ne_firstLink outside.2.2), Links.setNext_prev,
      prevFrame _ (by simpa using outside.2.1)]
    exact represents.detachedPrev value (by simp [outside])
  · intro value outside
    simp only [List.mem_append, not_or] at outside
    have notThreaded : Link.node value ∉ Links.lastLink before :: fresh.map Link.node := by
      simp [Links.node_ne_lastLink outside.1, outside.2.1]
    have differ : Link.node value ≠ threaded.2 := by
      intro same
      exact notThreaded (same ▸ lastMem)
    rw [Links.setPrev_next, Links.setNext_next, if_neg differ,
      nextFrame _ fun member => notThreaded (List.dropLast_subset _ member)]
    exact represents.detachedNext value (by simp [outside])

/-- `prepend_n` puts fresh blocks before the represented list. -/
theorem prependN_spec (represents : queue.Represents blocks) (nodup : (fresh ++ blocks).Nodup) :
    ∃ queue', queue.prependN fresh = .ok queue' ∧ queue'.Represents (fresh ++ blocks) := by
  by_cases empty : fresh = []
  · subst empty
    exact ⟨queue, by simp [prependN], by simpa using represents⟩
  have inserted := insert_represents [] blocks fresh
    represents.links nodup
  have headNext : queue.links.next .head = some (Links.firstLink blocks) :=
    represents.links.next_head
  refine ⟨⟨_, queue.numFreeBlocks + fresh.length⟩, ?_, ⟨inserted, ?_⟩⟩
  · simp only [prependN, List.length_eq_zero_iff, empty, if_false, headNext]
    rfl
  · rw [represents.count]
    simp only [List.length_append]
    omega

/-- `append_n` puts fresh blocks after the represented list. -/
theorem appendN_spec (represents : queue.Represents blocks) (nodup : (blocks ++ fresh).Nodup) :
    ∃ queue', queue.appendN fresh = .ok queue' ∧ queue'.Represents (blocks ++ fresh) := by
  by_cases empty : fresh = []
  · subst empty
    exact ⟨queue, by simp [appendN], by simpa using represents⟩
  have inserted := insert_represents blocks [] fresh
    (by simpa using represents.links) (by simpa using nodup)
  have tailPrev : queue.links.prev .tail = some (Links.lastLink blocks) :=
    represents.links.prev_tail
  rw [List.append_nil] at inserted
  refine ⟨⟨_, queue.numFreeBlocks + fresh.length⟩, ?_, ⟨inserted, ?_⟩⟩
  · simp only [appendN, List.length_eq_zero_iff, empty, if_false, tailPrev]
    rfl
  · rw [represents.count]
    simp only [List.length_append]
    omega

/-- Reading the queue gives back the represented list. -/
theorem getAllFreeBlocks_spec (represents : queue.Represents blocks) {fuel : Nat}
    (enough : blocks.length < fuel) : queue.getAllFreeBlocks fuel = .ok (some blocks) := by
  have headNext : queue.links.next .head = some (Links.firstLink blocks) :=
    represents.links.next_head
  rw [getAllFreeBlocks, headNext]
  simp only
  rw [represents.links.walk_eq enough]

end FreeKVCacheBlockQueue

end Vllm.Core
