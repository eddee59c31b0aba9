import Mathlib.Data.List.Chain
import Mathlib.Data.List.Nodup
import Mathlib.Logic.Function.Basic

/-!
# Intrusive doubly linked lists between two sentinels

A list of nodes is threaded through a heap of `prev`/`next` pointers between a
head and a tail sentinel.  `Linked links path` says that consecutive links of a
path point at each other; `Represents links nodes` adds the sentinels, the
distinctness of the nodes, and that every other node is detached.

The rules at the end are the pointer surgeries such lists are built from:
cutting one link out (`Linked.unlink`), running a chain of new links
(`linkAfter`), and reading the list back by following `next` (`walk`).
-/

namespace Vllm.Library

universe u

/-- A pointer target: one of the two sentinels, or a node. -/
inductive Link (α : Type u) where
  | head
  | tail
  | node (value : α)
  deriving DecidableEq

/-- The heap of the two pointer fields. -/
structure Links (α : Type u) where
  prev : Link α → Option (Link α)
  next : Link α → Option (Link α)

namespace Links

variable {α : Type u} [DecidableEq α]

/-- Write the `prev` field of `at'`. -/
def setPrev (links : Links α) (at' : Link α) (target : Option (Link α)) : Links α :=
  { links with prev := Function.update links.prev at' target }

/-- Write the `next` field of `at'`. -/
def setNext (links : Links α) (at' : Link α) (target : Option (Link α)) : Links α :=
  { links with next := Function.update links.next at' target }

/-- Clear both fields of `at'`. -/
def detach (links : Links α) (at' : Link α) : Links α :=
  (links.setPrev at' none).setNext at' none

theorem setPrev_prev (links : Links α) (at' other : Link α) (target : Option (Link α)) :
    (links.setPrev at' target).prev other =
      if other = at' then target else links.prev other := by
  simp [setPrev, Function.update_apply]

@[simp]
theorem setPrev_next (links : Links α) (at' : Link α) (target : Option (Link α)) :
    (links.setPrev at' target).next = links.next :=
  rfl

theorem setNext_next (links : Links α) (at' other : Link α) (target : Option (Link α)) :
    (links.setNext at' target).next other =
      if other = at' then target else links.next other := by
  simp [setNext, Function.update_apply]

@[simp]
theorem setNext_prev (links : Links α) (at' : Link α) (target : Option (Link α)) :
    (links.setNext at' target).prev = links.prev :=
  rfl

theorem detach_prev (links : Links α) (at' other : Link α) :
    (links.detach at').prev other = if other = at' then none else links.prev other := by
  simp [detach, setPrev_prev]

theorem detach_next (links : Links α) (at' other : Link α) :
    (links.detach at').next other = if other = at' then none else links.next other := by
  simp [detach, setNext_next]

omit [DecidableEq α] in
/-- Two links that point at each other. -/
def Joined (links : Links α) (source target : Link α) : Prop :=
  links.next source = some target ∧ links.prev target = some source

omit [DecidableEq α] in
/-- Consecutive links of the path point at each other. -/
def Linked (links : Links α) (path : List (Link α)) : Prop :=
  List.IsChain links.Joined path

variable {links : Links α} {front back : List (Link α)} {source target : Link α} {nodes : List α}

omit [DecidableEq α] in
/-- A path only depends on `next` before its last link and on `prev` after its
first one. -/
theorem Linked.congr {links' : Links α} {path : List (Link α)} (linked : links.Linked path)
    (nextEq : ∀ link ∈ path.dropLast, links'.next link = links.next link)
    (prevEq : ∀ link ∈ path.tail, links'.prev link = links.prev link) : links'.Linked path := by
  induction path with
  | nil => exact List.IsChain.nil
  | cons first rest ih =>
      cases rest with
      | nil => exact List.IsChain.singleton _
      | cons second rest =>
          obtain ⟨⟨nextFirst, prevSecond⟩, tailLinked⟩ := List.isChain_cons_cons.mp linked
          refine List.isChain_cons_cons.mpr ⟨⟨?_, ?_⟩, ih tailLinked ?_ ?_⟩
          · rw [nextEq first (by simp), nextFirst]
          · rw [prevEq second (by simp), prevSecond]
          · intro link member
            exact nextEq link (by
              rw [List.dropLast_cons_of_ne_nil (by simp)]
              exact List.mem_cons_of_mem _ member)
          · intro link member
            exact prevEq link (List.mem_of_mem_tail member)

omit [DecidableEq α] in
/-- A path splits between any two consecutive links. -/
theorem linked_append_cons_cons :
    links.Linked (front ++ source :: target :: back) ↔
      links.Linked (front ++ [source]) ∧ links.Joined source target ∧
        links.Linked (target :: back) := by
  constructor
  · intro linked
    have split := List.isChain_append.mp
      (show List.IsChain links.Joined ((front ++ [source]) ++ target :: back) by
        rw [List.append_assoc]
        exact linked)
    exact ⟨split.1, split.2.2 source (by simp) target (by simp), split.2.1⟩
  · rintro ⟨frontLinked, joined, backLinked⟩
    have whole : List.IsChain links.Joined ((front ++ [source]) ++ target :: back) := by
      refine List.isChain_append.mpr ⟨frontLinked, backLinked, ?_⟩
      intro last lastMem first firstMem
      simp only [List.getLast?_append, List.getLast?_singleton, Option.some_or,
        Option.mem_some_iff] at lastMem
      simp only [List.head?_cons, Option.mem_some_iff] at firstMem
      subst last
      subst first
      exact joined
    simpa [Linked] using whole

/-- Cut one link out of the middle of a path. -/
theorem Linked.unlink {middle : Link α}
    (linked : links.Linked (front ++ source :: middle :: target :: back))
    (nodup : (front ++ source :: middle :: target :: back).Nodup) :
    (((links.setNext source (some target)).setPrev target (some source)).detach
      middle).Linked (front ++ source :: target :: back) := by
  obtain ⟨frontLinked, -, restLinked⟩ := linked_append_cons_cons.mp linked
  have backLinked : links.Linked (target :: back) :=
    (List.isChain_cons_cons.mp restLinked).2
  rw [List.nodup_append] at nodup
  obtain ⟨frontNodup, restNodup, disjoint⟩ := nodup
  simp only [List.nodup_cons, List.mem_cons, not_or] at restNodup
  have middleNe : middle ≠ source := fun same => restNodup.1.1 same.symm
  refine linked_append_cons_cons.mpr ⟨frontLinked.congr ?_ ?_, ⟨?_, ?_⟩, backLinked.congr ?_ ?_⟩
  · intro link member
    simp only [List.dropLast_concat] at member
    rw [detach_next, setPrev_next, setNext_next, if_neg, if_neg]
    · exact disjoint link member source (by simp)
    · exact disjoint link member middle (by simp)
  · intro link member
    have inFront : link ∈ front ∨ link = source := by
      simpa using List.mem_of_mem_tail member
    rw [detach_prev, setPrev_prev, setNext_prev, if_neg, if_neg]
    · rintro rfl
      rcases inFront with inFront | rfl
      · exact disjoint link inFront link (by simp) rfl
      · exact restNodup.1.2.1 rfl
    · rintro rfl
      rcases inFront with inFront | rfl
      · exact disjoint link inFront link (by simp) rfl
      · exact middleNe rfl
  · rw [detach_next, setPrev_next, setNext_next, if_neg (Ne.symm middleNe), if_pos rfl]
  · rw [detach_prev, setPrev_prev, if_neg (Ne.symm restNodup.2.1.1), if_pos rfl]
  · intro link member
    have inBack : link = target ∨ link ∈ back := by
      simpa using List.dropLast_subset _ member
    rw [detach_next, setPrev_next, setNext_next, if_neg, if_neg]
    · rintro rfl
      exact inBack.elim restNodup.1.2.1 restNodup.1.2.2
    · rintro rfl
      exact inBack.elim restNodup.2.1.1 restNodup.2.1.2
  · intro link member
    rw [detach_prev, setPrev_prev, setNext_prev, if_neg, if_neg]
    · rintro rfl
      exact restNodup.2.2.1 member
    · rintro rfl
      exact restNodup.2.1.2 member

/-! ## Running a chain of new links -/

/-- Thread `nodes` one after the other behind `source`: the loop
`node.prev = source; source.next = node; source = node`.  The result carries
the last link threaded. -/
def linkAfter (links : Links α) (source : Link α) : List α → Links α × Link α
  | [] => (links, source)
  | value :: rest =>
      linkAfter ((links.setPrev (.node value) (some source)).setNext source
        (some (.node value))) (.node value) rest

/-- The path built by `linkAfter`, and what it leaves alone. -/
theorem linkAfter_spec (values : List α) :
    ∀ (links : Links α) (source : Link α), (source :: values.map Link.node).Nodup →
      ((linkAfter links source values).1.Linked (source :: values.map Link.node)) ∧
      ((source :: values.map Link.node).getLast? =
        some (linkAfter links source values).2) ∧
      (∀ link, link ∉ (source :: values.map Link.node).dropLast →
        (linkAfter links source values).1.next link = links.next link) ∧
      (∀ link, link ∉ values.map Link.node →
        (linkAfter links source values).1.prev link = links.prev link) := by
  induction values with
  | nil =>
      intro links source _
      exact ⟨List.IsChain.singleton _, rfl, fun _ _ => rfl, fun _ _ => rfl⟩
  | cons value rest ih =>
      intro links source nodup
      simp only [List.map_cons] at nodup ⊢
      obtain ⟨sourceOut, restNodup⟩ := List.nodup_cons.mp nodup
      have valueOut := (List.nodup_cons.mp restNodup).1
      obtain ⟨linked, lastEq, nextFrame, prevFrame⟩ := ih
        ((links.setPrev (.node value) (some source)).setNext source (some (.node value)))
        (.node value) restNodup
      have sourceDrop : source ∉ (Link.node value :: rest.map Link.node).dropLast :=
        fun member => sourceOut (List.dropLast_subset _ member)
      refine ⟨List.isChain_cons_cons.mpr ⟨⟨?_, ?_⟩, linked⟩, ?_, ?_, ?_⟩
      · rw [linkAfter, nextFrame source sourceDrop, setNext_next, if_pos rfl]
      · rw [linkAfter, prevFrame _ valueOut, setNext_prev, setPrev_prev, if_pos rfl]
      · rw [List.getLast?_cons_cons, lastEq, linkAfter]
      · intro link outside
        rw [List.dropLast_cons_of_ne_nil (by simp), List.mem_cons, not_or] at outside
        rw [linkAfter, nextFrame link outside.2, setNext_next, if_neg outside.1, setPrev_next]
      · intro link outside
        rw [List.mem_cons, not_or] at outside
        rw [linkAfter, prevFrame link outside.2, setNext_prev, setPrev_prev, if_neg outside.1]

/-- Thread `values` between two neighbouring links of a path. -/
theorem Linked.insert {values : List α} (linked : links.Linked (front ++ source :: target :: back))
    (nodup : (front ++ source :: (values.map Link.node ++ target :: back)).Nodup) :
    (((linkAfter links source values).1.setNext (linkAfter links source values).2
      (some target)).setPrev target (some (linkAfter links source values).2)).Linked
        (front ++ source :: (values.map Link.node ++ target :: back)) := by
  obtain ⟨frontLinked, -, backLinked⟩ := linked_append_cons_cons.mp linked
  rw [List.nodup_append] at nodup
  obtain ⟨frontNodup, restNodup, disjoint⟩ := nodup
  have restSplit : (source :: values.map Link.node).Nodup ∧ (target :: back).Nodup ∧
      ∀ link ∈ source :: values.map Link.node, ∀ other ∈ target :: back, link ≠ other := by
    rw [← List.cons_append, List.nodup_append] at restNodup
    exact restNodup
  obtain ⟨newNodup, backNodup, apart⟩ := restSplit
  obtain ⟨newLinked, lastEq, nextFrame, prevFrame⟩ := linkAfter_spec values links source newNodup
  generalize linkAfter links source values = result at *
  rcases result with ⟨threaded, last⟩
  simp only at newLinked lastEq nextFrame prevFrame ⊢
  obtain ⟨initial, pathEq⟩ : ∃ initial, source :: values.map Link.node = initial ++ [last] := by
    have nonempty : source :: values.map Link.node ≠ [] := by simp
    refine ⟨(source :: values.map Link.node).dropLast, ?_⟩
    rw [List.getLast?_eq_getLast_of_ne_nil nonempty, Option.some.injEq] at lastEq
    rw [← lastEq, List.dropLast_append_getLast]
  have lastMem : last ∈ source :: values.map Link.node := by
    rw [pathEq]
    simp
  have rewriteWhole : front ++ source :: (values.map Link.node ++ target :: back) =
      (front ++ initial) ++ last :: target :: back := by
    rw [← List.cons_append, pathEq]
    simp
  rw [rewriteWhole]
  refine linked_append_cons_cons.mpr ⟨?_, ⟨?_, ?_⟩, backLinked.congr ?_ ?_⟩
  · -- The old front and the new chain meet at `source`.
    have newFront : threaded.Linked (front ++ [source]) := by
      refine frontLinked.congr ?_ ?_
      · intro link member
        simp only [List.dropLast_concat] at member
        refine nextFrame link fun inNew => ?_
        exact disjoint link member link
          (by
            exact List.mem_append_left _ (List.dropLast_subset _ inNew)) rfl
      · intro link member
        have inFront : link ∈ front ∨ link = source := by
          simpa using List.mem_of_mem_tail member
        refine prevFrame link fun inNew => ?_
        rcases inFront with inFront | rfl
        · exact disjoint link inFront link (by simp [inNew]) rfl
        · exact (List.nodup_cons.mp newNodup).1 inNew
    have combined : threaded.Linked (front ++ (initial ++ [last])) := by
      rw [← pathEq]
      cases values with
      | nil => simpa using newFront
      | cons value rest =>
          exact linked_append_cons_cons.mpr
            ⟨newFront, (List.isChain_cons_cons.mp newLinked).1,
              (List.isChain_cons_cons.mp newLinked).2⟩
    rw [← List.append_assoc] at combined
    refine combined.congr ?_ ?_
    · intro link member
      simp only [List.dropLast_concat, List.mem_append] at member
      rw [setPrev_next, setNext_next, if_neg]
      rintro rfl
      rcases member with inFront | inInitial
      · exact disjoint link inFront link
          (by
            exact List.mem_append_left _ lastMem) rfl
      · rw [pathEq, List.nodup_append] at newNodup
        exact newNodup.2.2 link inInitial link (by simp) rfl
    · intro link member
      have inside : link ∈ front ∨ link ∈ source :: values.map Link.node := by
        rw [pathEq]
        simpa [or_assoc] using List.mem_of_mem_tail member
      rw [setPrev_prev, setNext_prev, if_neg]
      rintro rfl
      rcases inside with inFront | inNew
      · exact disjoint link inFront link (by simp) rfl
      · exact apart link inNew link (by simp) rfl
  · rw [setPrev_next, setNext_next, if_pos rfl]
  · rw [setPrev_prev, if_pos rfl]
  · intro link member
    have inBack : link ∈ target :: back := List.dropLast_subset _ member
    rw [setPrev_next, setNext_next, if_neg (Ne.symm (apart last lastMem link inBack))]
    refine nextFrame link fun inNew => ?_
    exact apart link (List.dropLast_subset _ inNew) link inBack rfl
  · intro link member
    have inBack : link ∈ target :: back := List.mem_cons_of_mem _ member
    rw [setPrev_prev, setNext_prev, if_neg]
    · refine prevFrame link fun inNew => ?_
      exact apart link (List.mem_cons_of_mem _ inNew) link inBack rfl
    · rintro rfl
      exact (List.nodup_cons.mp backNodup).1 member

/-! ## Representation of a whole list -/

section

omit [DecidableEq α]

/-- The path of a list between the two sentinels. -/
def path (nodes : List α) : List (Link α) :=
  Link.head :: (nodes.map Link.node ++ [Link.tail])

/-- The pointers thread exactly `nodes`; all other nodes are detached. -/
structure Represents (links : Links α) (nodes : List α) : Prop where
  nodup : nodes.Nodup
  linked : links.Linked (path nodes)
  tailNext : links.next .tail = none
  detachedPrev : ∀ value, value ∉ nodes → links.prev (.node value) = none
  detachedNext : ∀ value, value ∉ nodes → links.next (.node value) = none

/-- The first link of the part of a path that threads `nodes` up to the tail. -/
def firstLink (nodes : List α) : Link α :=
  (nodes.head?.map Link.node).getD .tail

@[simp]
theorem firstLink_nil : firstLink ([] : List α) = .tail :=
  rfl

@[simp]
theorem firstLink_cons (value : α) (rest : List α) : firstLink (value :: rest) = .node value :=
  rfl

/-- The path towards the tail starts at `firstLink`. -/
theorem exists_path_eq_firstLink_cons (nodes : List α) :
    ∃ back, nodes.map Link.node ++ [Link.tail] = firstLink nodes :: back := by
  cases nodes with
  | nil => exact ⟨[], rfl⟩
  | cons value rest => exact ⟨rest.map Link.node ++ [Link.tail], rfl⟩

variable {value : α} {fuel : Nat}

theorem node_ne_firstLink (outside : value ∉ nodes) :
    Link.node value ≠ firstLink nodes := by
  cases nodes with
  | nil => simp
  | cons first rest =>
      simp only [firstLink_cons, ne_eq, Link.node.injEq]
      exact fun same => outside (by simp [same])

/-- The last link of the part of a path that threads `nodes` from the head. -/
def lastLink (nodes : List α) : Link α :=
  (nodes.getLast?.map Link.node).getD .head

/-- The path from the head ends in `lastLink`. -/
theorem exists_path_eq_concat_lastLink (nodes : List α) :
    ∃ front, Link.head :: nodes.map Link.node = front ++ [lastLink nodes] := by
  rcases List.eq_nil_or_concat nodes with rfl | ⟨initial, last, rfl⟩
  · exact ⟨[], rfl⟩
  · exact ⟨Link.head :: initial.map Link.node, by simp [lastLink]⟩

theorem node_ne_lastLink (outside : value ∉ nodes) :
    Link.node value ≠ lastLink nodes := by
  rcases List.eq_nil_or_concat nodes with rfl | ⟨initial, last, rfl⟩
  · simp [lastLink]
  · simp only [List.concat_eq_append, lastLink, List.getLast?_append, List.getLast?_singleton,
      Option.some_or, Option.map_some, Option.getD_some, ne_eq, Link.node.injEq]
    exact fun same => outside (by simp [same])

theorem tail_ne_lastLink (nodes : List α) : Link.tail ≠ lastLink nodes := by
  unfold lastLink
  cases nodes.getLast? <;> simp

theorem node_injective : Function.Injective (Link.node : α → Link α) := fun _ _ same => by
  cases same
  rfl

theorem nodup_path (nodup : nodes.Nodup) : (path nodes).Nodup := by
  simp [path, List.nodup_cons, List.nodup_append, List.nodup_map_iff node_injective, nodup]

/-- Following `next` from the head sentinel reaches the first node, or the tail. -/
theorem Represents.next_head (represents : links.Represents nodes) :
    links.next .head = some (firstLink nodes) := by
  have linked := represents.linked
  cases nodes with
  | nil => exact (List.isChain_cons_cons.mp linked).1.1
  | cons value rest => exact (List.isChain_cons_cons.mp linked).1.1

/-- The predecessor of the tail sentinel is the last node, or the head. -/
theorem Represents.prev_tail (represents : links.Represents nodes) :
    links.prev .tail = some (lastLink nodes) := by
  obtain ⟨front, pathEq⟩ := exists_path_eq_concat_lastLink nodes
  have linked := represents.linked
  rw [path, ← List.cons_append, pathEq, List.append_assoc] at linked
  exact (linked_append_cons_cons.mp linked).2.1.2

/-- Collect the nodes met by following `next`, as long as the current link has
a successor.  `none` when the fuel does not suffice. -/
def walk (links : Links α) : Nat → Link α → Option (List α)
  | 0, _ => none
  | fuel + 1, link =>
      match links.next link with
      | none => some []
      | some successor =>
          match link with
          | .node value => (walk links fuel successor).map (value :: ·)
          | _ => walk links fuel successor

theorem walk_suffix (tailNext : links.next .tail = none)
    (linked : links.Linked (nodes.map Link.node ++ [Link.tail])) (fuel : Nat)
    (enough : nodes.length < fuel) : links.walk fuel (firstLink nodes) = some nodes := by
  induction nodes generalizing fuel with
  | nil =>
      obtain ⟨fuel, rfl⟩ := Nat.exists_eq_add_one_of_ne_zero (Nat.ne_of_gt enough)
      simp [walk, tailNext]
  | cons value rest ih =>
      obtain ⟨fuel, rfl⟩ := Nat.exists_eq_add_one_of_ne_zero (Nat.ne_zero_of_lt enough)
      have restLinked : links.Linked (rest.map Link.node ++ [Link.tail]) :=
        List.IsChain.tail linked
      have nextEq : links.next (.node value) =
          some (firstLink rest) := by
        cases rest with
        | nil => exact (List.isChain_cons_cons.mp linked).1.1
        | cons second rest => exact (List.isChain_cons_cons.mp linked).1.1
      have recursive := ih restLinked fuel (by simpa using enough)
      simp [walk, nextEq, recursive]

/-- Walking forward from the successor of the head sentinel reads the list. -/
theorem Represents.walk_eq (represents : links.Represents nodes) (enough : nodes.length < fuel) :
    links.walk fuel (firstLink nodes) = some nodes :=
  walk_suffix represents.tailNext (List.IsChain.tail represents.linked) fuel enough

/-- Collect the nodes met by following `prev` up to the head sentinel. -/
def walkBack (links : Links α) : Nat → Link α → Option (List α)
  | 0, _ => none
  | _ + 1, .head => some []
  | fuel + 1, link =>
      match link, links.prev link with
      | .node value, some before => (walkBack links fuel before).map (value :: ·)
      | _, _ => none

/-- Walking backward from the predecessor of the tail sentinel reads the list in reverse. -/
theorem Represents.walkBack_eq (represents : links.Represents nodes)
    (enough : nodes.length < fuel) :
    links.walkBack fuel (lastLink nodes) = some nodes.reverse := by
  have linked : links.Linked (Link.head :: nodes.map Link.node) := by
    have whole := represents.linked
    rw [path, ← List.cons_append] at whole
    exact (List.isChain_append.mp whole).1
  clear represents
  induction nodes using List.reverseRecOn generalizing fuel with
  | nil =>
      rcases Nat.exists_eq_add_one_of_ne_zero (Nat.ne_of_gt enough) with ⟨fuel, rfl⟩
      simp [walkBack, lastLink]
  | append_singleton nodes value inductionHypothesis =>
      rcases Nat.exists_eq_add_one_of_ne_zero (Nat.ne_zero_of_lt enough) with ⟨fuel, rfl⟩
      rcases exists_path_eq_concat_lastLink nodes with ⟨front, pathEq⟩
      rw [List.map_append, ← List.cons_append, List.map_singleton] at linked
      have before : links.prev (.node value) = some (lastLink nodes) := by
        rw [pathEq, List.append_assoc] at linked
        exact (linked_append_cons_cons.mp linked).2.1.2
      have shorter : nodes.length < fuel := by simpa using enough
      have recursive := inductionHypothesis shorter (List.isChain_append.mp linked).1
      simp [lastLink, walkBack, before, ← recursive]

end

end Links

end Vllm.Library
