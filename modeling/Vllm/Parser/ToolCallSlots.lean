import Vllm.Parser.ParserEngine

/-!
# Slots of tool calls

What the events of tool calls change: the tools stay, and an event acts on the slot of its index.
-/

namespace Vllm.Parser

open Vllm.Core
open Vllm.Library

/-! ## Coalesced deltas -/

/-- The step of `coalesceToolCallDeltas`. -/
def mergeDelta (merged : Dict Int DeltaToolCall) (delta : DeltaToolCall) :
    Dict Int DeltaToolCall :=
  match merged.get? delta.index with
  | none => merged.insert delta.index delta
  | some existing => merged.insert delta.index (existing.absorb delta)

variable {merged : Dict Int DeltaToolCall} {deltas : List DeltaToolCall}

variable {index : Int}

theorem mem_keys_mergeDelta {delta : DeltaToolCall} :
    index ∈ (mergeDelta merged delta).keys ↔ index = delta.index ∨ index ∈ merged.keys := by
  rw [mergeDelta]
  split
  · exact Dict.mem_keys_insert
  · exact Dict.mem_keys_insert

theorem mem_keys_foldl_mergeDelta : index ∈ (deltas.foldl mergeDelta merged).keys ↔
      index ∈ merged.keys ∨ ∃ delta ∈ deltas, delta.index = index := by
  induction deltas generalizing merged with
  | nil => simp
  | cons delta deltas ih =>
      rw [List.foldl_cons, ih, mem_keys_mergeDelta]
      simp only [List.mem_cons, exists_eq_or_imp]
      constructor
      · rintro ((same | old) | later)
        · exact .inr (.inl same.symm)
        · exact .inl old
        · exact .inr (.inr later)
      · rintro (old | same | later)
        · exact .inl (.inr old)
        · exact .inl (.inl same.symm)
        · exact .inr later

theorem coalesceToolCallDeltas_eq (deltas : List DeltaToolCall) :
    coalesceToolCallDeltas deltas =
      if (deltas.foldl mergeDelta .empty).size = deltas.length then deltas
      else (deltas.foldl mergeDelta .empty).entries.map (·.2) :=
  rfl

/-- Something is left of some deltas. -/
theorem coalesceToolCallDeltas_eq_nil : coalesceToolCallDeltas deltas = [] ↔ deltas = [] := by
  constructor
  · intro none
    rw [coalesceToolCallDeltas_eq] at none
    split at none
    · exact none
    · cases deltas with
      | nil => rfl
      | cons delta deltas =>
          have listed : delta.index ∈ ((delta :: deltas).foldl mergeDelta .empty).keys :=
            mem_keys_foldl_mergeDelta.mpr (.inr ⟨delta, List.mem_cons_self, rfl⟩)
          rw [Dict.keys, List.map_eq_nil_iff.mp none] at listed
          simp at listed
  · rintro rfl
    rfl

namespace ToolCalls

variable {ν : Type} [DecidableEq ν] [SchemaCoercion ν]
variable {settings : ParserSettings ν} {calls next : ToolCalls ν}

/-! ## Streamed arguments -/

section Streaming

variable (settings calls) (idx : Int) (slot : ToolCallSlot)

/-- Stream arguments up to a JSON text, if there is one to go on with. -/
def streamTo : Option Text → Option Text × ToolCalls ν
  | none => (none, calls)
  | some json =>
      (some (json.drop slot.streamedJson.length),
        calls.setSlot idx { slot with streamedJson := json })

/-- The JSON text that `_compute_arg_delta` streams up to. -/
def argTarget (converter : ArgConverter ν) (rawDelta : Text) : Option Text :=
  if ¬settings.streamArgDeltas then none
  else if settings.argStructuralChars.any fun structural => rawDelta.all (· ∉ structural) then none
  else
    (converter calls.tools calls.slots slot.args true).bind fun json =>
      if json = [] then none
      else
        let json := if slot.name ≠ [] then fixArgTypes calls.tools json slot.name else json
        let safeJson := safeArgPrefix json slot.stringKeys
        if safeJson = [] ∨ safeJson = slot.streamedJson ∨
            ¬slot.streamedJson.isPrefixOf safeJson then none
        else some safeJson

/-- The JSON text that `_flush_arg_converter` streams up to. -/
def flushTarget (converter : ArgConverter ν) : Option Text :=
  (converter calls.tools calls.slots slot.args false).bind fun json =>
    let json := if json ≠ [] then fixArgTypes calls.tools json slot.name else json
    if json ≠ [] ∧ slot.streamedJson.length < json.length ∧ slot.streamedJson.isPrefixOf json then
      some json
    else none

variable {settings calls}

variable {converter : ArgConverter ν}

theorem computeArgDelta_eq (converts : settings.argConverter = some converter) (rawDelta : Text) :
    calls.computeArgDelta settings idx slot rawDelta =
      calls.streamTo idx slot (argTarget settings calls slot converter rawDelta) := by
  rw [computeArgDelta, converts, argTarget]
  dsimp only
  split
  · rfl
  · split
    · rfl
    · cases converter calls.tools calls.slots slot.args true with
      | none => rfl
      | some json =>
          rw [Option.bind_some]
          dsimp only
          split
          · rfl
          · generalize (if slot.name ≠ [] then fixArgTypes calls.tools json slot.name else json) =
              json
            split
            · rfl
            · rfl

theorem flushArgConverter_eq (converts : settings.argConverter = some converter) :
    calls.flushArgConverter settings idx slot =
      calls.streamTo idx slot (flushTarget calls slot converter) := by
  rw [flushArgConverter, converts, flushTarget]
  dsimp only
  cases converter calls.tools calls.slots slot.args false with
  | none => rfl
  | some json =>
      rw [Option.bind_some]
      dsimp only
      generalize (if json ≠ [] then fixArgTypes calls.tools json slot.name else json) = json
      split
      · rfl
      · rfl

end Streaming

/-! ## Tools -/

section Tools

omit [DecidableEq ν] [SchemaCoercion ν] in
@[simp]
theorem setSlot_tools (calls : ToolCalls ν) (idx : Int) (slot : ToolCallSlot) :
    (calls.setSlot idx slot).tools = calls.tools :=
  rfl

variable {deltas more : List DeltaToolCall} {event : SemanticEvent}

omit [DecidableEq ν] in
theorem emitNameDelta_tools {idx : Int} {name : Option Text}
    (ran : calls.emitNameDelta settings idx deltas name = .ok (next, more)) :
    next.tools = calls.tools := by
  rw [emitNameDelta] at ran
  split at ran
  · cases ran
    rfl
  · split at ran
    · rcases bind_eq_ok.mp ran with ⟨slot, _, ran⟩
      cases ran
      rfl
    · cases ran
      rfl

omit [DecidableEq ν] [SchemaCoercion ν] in
theorem streamTo_tools (calls : ToolCalls ν) (idx : Int) (slot : ToolCallSlot)
    (target : Option Text) : (calls.streamTo idx slot target).2.tools = calls.tools := by
  cases target with
  | none => rfl
  | some json => rfl

theorem computeArgDelta_tools (settings : ParserSettings ν) (calls : ToolCalls ν) (idx : Int)
    (slot : ToolCallSlot) (rawDelta : Text) :
    (calls.computeArgDelta settings idx slot rawDelta).2.tools = calls.tools := by
  cases converts : settings.argConverter with
  | none => simp [computeArgDelta, converts]
  | some converter => rw [computeArgDelta_eq idx slot converts, streamTo_tools]

theorem flushArgConverter_tools (settings : ParserSettings ν) (calls : ToolCalls ν) (idx : Int)
    (slot : ToolCallSlot) : (calls.flushArgConverter settings idx slot).2.tools = calls.tools := by
  cases converts : settings.argConverter with
  | none => simp [flushArgConverter, converts]
  | some converter => rw [flushArgConverter_eq idx slot converts, streamTo_tools]

theorem handleArgChunk_tools (ran : calls.handleArgChunk settings event deltas = .ok (next, more)) :
    next.tools = calls.tools := by
  rcases bind_eq_ok.mp ran with ⟨slot, _, ran⟩
  dsimp only at ran
  split at ran
  · split at ran
    · exact (emitNameDelta_tools ran).trans (setSlot_tools ..)
    · split at ran
      · exact (emitNameDelta_tools ran).trans (setSlot_tools ..)
      · cases ran
        rfl
  · split at ran
    · have kept := computeArgDelta_tools settings
        (calls.setSlot event.toolIndex (slot.appendArgs event.value)) event.toolIndex
          (slot.appendArgs event.value) event.value
      split at ran
      case h_1 computed =>
        rw [computed] at kept
        split at ran
        · cases ran
          exact kept
        · cases ran
          exact kept
      case h_2 computed =>
        rw [computed] at kept
        cases ran
        exact kept
    · cases ran
      rfl

theorem handleToolEnd_tools (ran : calls.handleToolEnd settings event deltas = .ok (next, more)) :
    next.tools = calls.tools := by
  rw [handleToolEnd] at ran
  dsimp only at ran
  split at ran
  · cases ran
    rfl
  · rcases bind_eq_ok.mp ran with ⟨slot, _, ran⟩
    generalize { slot with name := settings.cleanName slot.name } = slot at ran
    have kept := flushArgConverter_tools settings (calls.setSlot event.toolIndex slot)
      event.toolIndex slot
    generalize (calls.setSlot event.toolIndex slot).flushArgConverter settings event.toolIndex
      slot = result at ran kept
    rcases bind_eq_ok.mp ran with ⟨last, _, ran⟩
    generalize (if last.name ≠ [] then last.name else (tryExtractName last.args).getD []) = name
      at ran
    split at ran
    · cases ran
      exact kept
    · split at ran
      · split at ran
        · cases ran
          exact kept
        · cases ran
          exact kept
      · cases ran
        exact kept

/-- The tools stay. -/
theorem onToolEvent_tools (ran : calls.onToolEvent settings event deltas = .ok (next, more)) :
    next.tools = calls.tools := by
  rw [onToolEvent.eq_def] at ran
  split at ran
  · cases ran
    rfl
  · rcases bind_eq_ok.mp ran with ⟨named, called, ran⟩
    cases ran
    rcases bind_eq_ok.mp called with ⟨slot, _, called⟩
    cases called
    rfl
  · exact handleArgChunk_tools ran
  · exact handleToolEnd_tools ran
  · cases ran
    rfl

end Tools

/-! ## Slots -/

section Slots

variable {deltas more : List DeltaToolCall} {event : SemanticEvent}

section

omit [DecidableEq ν] [SchemaCoercion ν]

theorem slots_of_slot {idx : Int} {slot : ToolCallSlot} (found : calls.slot idx = .ok slot) :
    calls.slots ≠ [] := by
  intro none
  simp [ToolCalls.slot, pyIndex, none] at found

@[simp]
theorem setSlot_length (calls : ToolCalls ν) (idx : Int) (slot : ToolCallSlot) :
    (calls.setSlot idx slot).slots.length = calls.slots.length :=
  List.length_set ..

end

omit [DecidableEq ν] in
theorem emitNameDelta_length {idx : Int} {name : Option Text}
    (ran : calls.emitNameDelta settings idx deltas name = .ok (next, more)) :
    next.slots.length = calls.slots.length := by
  rw [emitNameDelta] at ran
  split at ran
  · cases ran
    rfl
  · split at ran
    · rcases bind_eq_ok.mp ran with ⟨slot, _, ran⟩
      cases ran
      exact setSlot_length ..
    · cases ran
      rfl

omit [DecidableEq ν] [SchemaCoercion ν] in
theorem streamTo_length (calls : ToolCalls ν) (idx : Int) (slot : ToolCallSlot)
    (target : Option Text) :
    (calls.streamTo idx slot target).2.slots.length = calls.slots.length := by
  cases target with
  | none => rfl
  | some json => exact setSlot_length ..

theorem computeArgDelta_length (settings : ParserSettings ν) (calls : ToolCalls ν) (idx : Int)
    (slot : ToolCallSlot) (rawDelta : Text) :
    (calls.computeArgDelta settings idx slot rawDelta).2.slots.length = calls.slots.length := by
  cases converts : settings.argConverter with
  | none => simp [computeArgDelta, converts]
  | some converter => rw [computeArgDelta_eq idx slot converts, streamTo_length]

theorem flushArgConverter_length (settings : ParserSettings ν) (calls : ToolCalls ν) (idx : Int)
    (slot : ToolCallSlot) :
    (calls.flushArgConverter settings idx slot).2.slots.length = calls.slots.length := by
  cases converts : settings.argConverter with
  | none => simp [flushArgConverter, converts]
  | some converter => rw [flushArgConverter_eq idx slot converts, streamTo_length]

/-- An argument chunk finds its slot and leaves the number of slots. -/
theorem handleArgChunk_slots (ran : calls.handleArgChunk settings event deltas = .ok (next, more)) :
    calls.slots ≠ [] ∧ next.slots.length = calls.slots.length := by
  rcases bind_eq_ok.mp ran with ⟨slot, found, ran⟩
  refine ⟨slots_of_slot found, ?_⟩
  dsimp only at ran
  split at ran
  · split at ran
    · exact (emitNameDelta_length ran).trans (setSlot_length ..)
    · split at ran
      · exact (emitNameDelta_length ran).trans (setSlot_length ..)
      · cases ran
        exact setSlot_length ..
  · split at ran
    · have kept := computeArgDelta_length settings
        (calls.setSlot event.toolIndex (slot.appendArgs event.value)) event.toolIndex
        (slot.appendArgs event.value) event.value
      rw [setSlot_length] at kept
      split at ran
      case h_1 computed =>
        rw [computed] at kept
        split at ran
        · cases ran
          exact kept
        · cases ran
          exact kept
      case h_2 computed =>
        rw [computed] at kept
        cases ran
        exact kept
    · cases ran
      exact setSlot_length ..

/-- The end of a call does nothing without its slot. -/
theorem handleToolEnd_slots (ran : calls.handleToolEnd settings event deltas = .ok (next, more)) :
    (more = deltas ∨ calls.slots ≠ []) ∧ next.slots.length = calls.slots.length := by
  rw [handleToolEnd] at ran
  dsimp only at ran
  split at ran
  · cases ran
    exact ⟨.inl rfl, rfl⟩
  · rcases bind_eq_ok.mp ran with ⟨slot, found, ran⟩
    refine ⟨.inr (slots_of_slot found), ?_⟩
    generalize { slot with name := settings.cleanName slot.name } = slot at ran
    have kept := flushArgConverter_length settings (calls.setSlot event.toolIndex slot)
      event.toolIndex slot
    rw [setSlot_length] at kept
    generalize (calls.setSlot event.toolIndex slot).flushArgConverter settings event.toolIndex
      slot = result at ran kept
    rcases bind_eq_ok.mp ran with ⟨last, _, ran⟩
    generalize (if last.name ≠ [] then last.name else (tryExtractName last.args).getD []) = name
      at ran
    split at ran
    · cases ran
      exact (setSlot_length ..).trans kept
    · split at ran
      · split at ran
        · cases ran
          exact kept
        · cases ran
          exact kept
      · cases ran
        exact kept

/-- Slots stay, and what is reported has a slot. -/
theorem onToolEvent_slots (ran : calls.onToolEvent settings event deltas = .ok (next, more)) :
    calls.slots.length ≤ next.slots.length ∧ (more = deltas ∨ next.slots ≠ []) := by
  rw [onToolEvent.eq_def] at ran
  split at ran
  · cases ran
    simp [ensureSlot]
  · rcases bind_eq_ok.mp ran with ⟨named, called, ran⟩
    cases ran
    rcases bind_eq_ok.mp called with ⟨slot, _, called⟩
    cases called
    exact ⟨(setSlot_length ..).ge, .inl rfl⟩
  · rcases handleArgChunk_slots ran with ⟨some, same⟩
    exact ⟨same.ge, .inr (List.ne_nil_of_length_pos (by
      rw [same]; exact List.length_pos_of_ne_nil some))⟩
  · rcases handleToolEnd_slots ran with ⟨reports, same⟩
    refine ⟨same.ge, reports.imp_right fun some => List.ne_nil_of_length_pos ?_⟩
    rw [same]
    exact List.length_pos_of_ne_nil some
  · cases ran
    exact ⟨Nat.le_refl _, .inl rfl⟩

end Slots

end ToolCalls

end Vllm.Parser
