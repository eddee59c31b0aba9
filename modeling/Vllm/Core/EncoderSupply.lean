import Vllm.Core.EncoderReferences

/-!
# What a step can count on from the encoder

`_try_schedule_encoder_inputs` shortens a step until every embedding that the
remaining tokens read, those the drafter looks ahead to included, is cached for
the request, about to be encoded or about to be loaded.  The features are sorted
as `get_mm_features_in_window` assumes.  Encoder-decoder models come with a cache
manager of their own and encode everything together with the first token.
-/

namespace Vllm.Core

open Vllm.Library

/-! ## The window -/

/-- The interval that is left of the search: everything before it is below the
target, nothing behind it is. -/
structure Bisecting (keys : List Int) (target : Int) (low high : Nat) : Prop where
  ordered : low ≤ high
  bounded : high ≤ keys.length
  below : ∀ index < low, ∀ key, keys[index]? = some key → key < target
  above : ∀ index, high ≤ index → ∀ key, keys[index]? = some key → target ≤ key

theorem bisectLeftLoop_bisecting {keys : List Int} {target : Int}
    (sorted : keys.Pairwise (· ≤ ·)) {fuel low high : Nat} (fueled : high - low ≤ fuel)
    (bisecting : Bisecting keys target low high) :
    Bisecting keys target (bisectLeftLoop keys target fuel low high)
      (bisectLeftLoop keys target fuel low high) := by
  induction fuel generalizing low high with
  | zero =>
      have closed : high = low := by
        have ordered := bisecting.ordered
        omega
      exact closed ▸ bisecting
  | succ fuel inductionHypothesis =>
      rw [bisectLeftLoop]
      dsimp only
      split
      · rename_i nonempty
        have bounded := bisecting.bounded
        have middleBound : (low + high) / 2 < keys.length := by omega
        have middle : keys.getD ((low + high) / 2) target = keys[(low + high) / 2] := by
          simp [middleBound]
        split
        · rename_i small
          rw [middle] at small
          apply inductionHypothesis (by omega)
          constructor
          · omega
          · exact bounded
          · intro index inside key found
            rcases List.getElem?_eq_some_iff.mp found with ⟨bound, rfl⟩
            rcases Nat.lt_or_eq_of_le (Nat.le_of_lt_succ inside) with before | rfl
            · exact Int.lt_of_le_of_lt
                (List.pairwise_iff_getElem.mp sorted _ _ bound middleBound before) small
            · exact small
          · exact bisecting.above
        · rename_i large
          rw [middle] at large
          apply inductionHypothesis (by omega)
          constructor
          · omega
          · omega
          · exact bisecting.below
          · intro index inside key found
            rcases List.getElem?_eq_some_iff.mp found with ⟨bound, rfl⟩
            rcases Nat.lt_or_eq_of_le inside with after | rfl
            · exact Int.le_trans (Int.not_lt.mp large)
                (List.pairwise_iff_getElem.mp sorted _ _ middleBound bound after)
            · exact Int.not_lt.mp large
      · have closed : high = low := by
          have ordered := bisecting.ordered
          omega
        exact closed ▸ bisecting

/-- `bisect_left` on sorted keys. -/
theorem bisectLeft_bisecting {keys : List Int} (sorted : keys.Pairwise (· ≤ ·)) (target : Int) :
    Bisecting keys target (bisectLeft keys target) (bisectLeft keys target) := by
  apply bisectLeftLoop_bisecting sorted (Nat.le_of_eq (Nat.sub_zero _))
  constructor
  · exact Nat.zero_le _
  · exact Nat.le_refl _
  · exact fun _ before => absurd before (Nat.not_lt_zero _)
  · intro index outside key found
    rw [List.getElem?_eq_none outside] at found
    contradiction

/-- The features are sorted by offset. -/
def FeaturesSorted (features : List MultiModalFeatureSpec) : Prop :=
  features.Pairwise fun feature later => feature.mmPosition.offset ≤ later.mmPosition.offset

/-- The features are sorted by their ends. -/
def EndsSorted (features : List MultiModalFeatureSpec) : Prop :=
  features.Pairwise fun feature later =>
    feature.mmPosition.offset + feature.mmPosition.length ≤
      later.mmPosition.offset + later.mmPosition.length

section Window

variable {features : List MultiModalFeatureSpec}

theorem FeaturesSorted.keys (sorted : FeaturesSorted features) :
    (features.map fun feature => (feature.mmPosition.offset : Int)).Pairwise (· ≤ ·) :=
  List.pairwise_map.mpr (sorted.imp fun ordered => Int.ofNat_le.mpr ordered)

theorem EndsSorted.keys (sorted : EndsSorted features) :
    (features.map fun feature =>
      (feature.mmPosition.offset + feature.mmPosition.length : Int)).Pairwise (· ≤ ·) :=
  List.pairwise_map.mpr (sorted.imp fun ordered => by exact_mod_cast ordered)

/-- The features of the window are those that begin before its end. -/
theorem window_finish (sorted : FeaturesSorted features) (start finish : Int) :
    (getMmFeaturesInWindow features start finish).2 ≤ features.length ∧
      ∀ inputId feature, features[inputId]? = some feature →
        (inputId < (getMmFeaturesInWindow features start finish).2 ↔
          (feature.mmPosition.offset : Int) < finish) := by
  have bisecting := bisectLeft_bisecting sorted.keys finish
  constructor
  · have bounded := bisecting.bounded
    rw [List.length_map] at bounded
    exact bounded
  · intro inputId feature placed
    have key : (features.map fun feature => (feature.mmPosition.offset : Int))[inputId]? =
        some (feature.mmPosition.offset : Int) := by
      rw [List.getElem?_map, placed]
      rfl
    constructor
    · exact fun inside => bisecting.below inputId inside _ key
    · intro begins
      by_contra outside
      exact absurd (bisecting.above inputId (Nat.not_lt.mp outside) _ key) (Int.not_le.mpr begins)

variable {start finish : Int}

/-- The features before the window end before its start. -/
theorem window_start (sorted : EndsSorted features) {inputId : Nat}
    (before : inputId < (getMmFeaturesInWindow features start finish).1)
    {feature : MultiModalFeatureSpec} (placed : features[inputId]? = some feature) :
    (feature.mmPosition.offset + feature.mmPosition.length : Int) ≤ start := by
  have ends := (bisectLeft_bisecting sorted.keys (start + 1)).below inputId before
    (feature.mmPosition.offset + feature.mmPosition.length)
    (by rw [List.getElem?_map, placed]; rfl)
  omega

/-- A window that is not empty is an interval of features. -/
theorem window_le (sorted : FeaturesSorted features) (ends : EndsSorted features)
    (nonempty : start < finish) :
    (getMmFeaturesInWindow features start finish).1 ≤
      (getMmFeaturesInWindow features start finish).2 := by
  by_contra crossed
  have before := Nat.not_le.mp crossed
  have bounded := (bisectLeft_bisecting ends.keys (start + 1)).bounded
  rw [List.length_map] at bounded
  have inside : (getMmFeaturesInWindow features start finish).2 < features.length :=
    Nat.lt_of_lt_of_le before bounded
  have placed := List.getElem?_eq_getElem inside
  have finished := window_start ends before placed
  have begins := ((window_finish sorted start finish).2 _ _ placed).mpr (by omega)
  exact Nat.lt_irrefl _ begins

end Window

/-! ## Embeddings -/

/-- The token at the position is replaced by an embedding of the item. -/
def PlaceholderRange.HasEmbedAt (range : PlaceholderRange) (position : Nat) : Prop :=
  range.offset ≤ position ∧ position < range.offset + range.length ∧
    ∀ mask, range.isEmbed = some mask → mask[position - range.offset]? = some true

variable {start finish : Nat}

theorem count_take_lt {mask : List Bool} {index : Nat} (after : start ≤ index)
    (before : index < finish) (embedded : mask[index]? = some true) :
    (mask.take start).count true < (mask.take finish).count true := by
  rcases List.getElem?_eq_some_iff.mp embedded with ⟨bound, here⟩
  have grown : mask.take (start + (index - start)) ++ [true] <+: mask.take finish := by
    rw [show start + (index - start) = index by omega, ← here, List.take_concat_get']
    exact List.take_prefix_take_left (by omega)
  have smaller : mask.take start <+: mask.take (start + (index - start)) :=
    List.take_prefix_take_left (Nat.le_add_right ..)
  have first := smaller.sublist.count_le true
  have second := grown.sublist.count_le true
  rw [List.count_append] at second
  simp only [List.count_singleton_self] at second
  omega

/-- A range that holds no embedding of the item. -/
theorem PlaceholderRange.HasEmbedAt.indices_ne {range : PlaceholderRange} {position : Nat}
    (embedded : range.HasEmbedAt position) (after : start ≤ position - range.offset)
    (before : position - range.offset < finish) :
    (range.getEmbedsIndicesInRange start finish).1 ≠
      (range.getEmbedsIndicesInRange start finish).2 := by
  unfold PlaceholderRange.getEmbedsIndicesInRange
  cases masked : range.isEmbed with
  | none =>
      dsimp only
      omega
  | some mask => exact Nat.ne_of_lt (count_take_lt after before (embedded.2.2 mask masked))

/-- The embeddings of some inputs of a request. -/
def embedsOf (features : List MultiModalFeatureSpec) (inputIds : List Nat) : Nat :=
  (inputIds.map fun inputId =>
    (features[inputId]?.map fun feature => feature.mmPosition.getNumEmbeds).getD 0).sum

@[simp]
theorem embedsOf_append (features : List MultiModalFeatureSpec) (inputIds more : List Nat) :
    embedsOf features (inputIds ++ more) = embedsOf features inputIds + embedsOf features more := by
  simp [embedsOf]

theorem embedsOf_singleton {features : List MultiModalFeatureSpec} {inputId : Nat}
    {feature : MultiModalFeatureSpec} (placed : features[inputId]? = some feature) :
    embedsOf features [inputId] = feature.mmPosition.getNumEmbeds := by
  simp [embedsOf, placed]

/-! ## Rounds -/

namespace EncoderCacheManager

variable {H : Type} {embeds : String → Nat} {manager next : EncoderCacheManager}
  {request : Request H} {inputId : Nat} {feature : MultiModalFeatureSpec}

/-- Only entries without references are freeable. -/
theorem Accounted.tidy (accounted : Accounted embeds manager) : manager.Tidy :=
  fun mmHash size found => ((accounted.unreferenced mmHash size).mp found).1

/-- A lookup of an input that exists returns. -/
theorem checkAndUpdateCache_returns (accounted : Accounted embeds manager)
    (placed : request.mmFeatures[inputId]? = some feature) :
    ∃ found next, manager.checkAndUpdateCache request inputId = .ok (found, next) := by
  unfold checkAndUpdateCache
  rw [pyIndex_eq_ok.mpr placed]
  dsimp only [bind, Except.bind]
  cases cached : manager.cached.get? feature.identifier with
  | none => exact ⟨_, _, rfl⟩
  | some references =>
      cases references with
      | nil =>
          rw [(accounted.unreferenced _ _).mpr ⟨cached, rfl⟩]
          exact ⟨_, _, rfl⟩
      | cons => exact ⟨_, _, rfl⟩

/-- An input that fits is paid for by the compute budget. -/
theorem canAllocate_affordable {numEmbedsToSchedule : Nat} {encoderComputeBudget : Int}
    (ran : manager.canAllocate request inputId encoderComputeBudget numEmbedsToSchedule =
      .ok (true, next)) (placed : request.mmFeatures[inputId]? = some feature) :
    (feature.mmPosition.getNumEmbeds : Int) ≤ encoderComputeBudget := by
  rcases bind_eq_ok.mp ran with ⟨numEmbeds, counting, ran⟩
  rw [getNumEncoderEmbeds_eq_ok.mpr ⟨feature, placed, rfl⟩] at counting
  cases counting
  split at ran
  · cases ran
  · rename_i affordable
    exact Int.not_lt.mp affordable

end EncoderCacheManager

namespace EncoderPass

variable {H : Type}

/-- The end of a round: whether the input fits is known. -/
def settle (pass : EncoderPass) (window : EncoderWindow) (feature : MultiModalFeatureSpec)
    (inputId : Nat) (fits : Bool) : Bool × EncoderPass :=
  let startPos := feature.mmPosition.offset
  let reached : Int := window.numComputedTokens + window.shiftComputedTokens
  if fits then
    let startIdxRel := window.numComputedTokens - startPos
    let endIdxRel :=
      (min (feature.mmPosition.length : Int) (window.encoderWindowEnd - startPos)).toNat
    let embeds := feature.mmPosition.getEmbedsIndicesInRange startIdxRel endIdxRel
    if embeds.1 = embeds.2 then (false, pass) else (false, pass.take window feature inputId)
  else
    (true, { pass with numNewTokens := if reached < startPos then startPos - reached else 0 })

theorem settle_manager (pass : EncoderPass) (window : EncoderWindow)
    (feature : MultiModalFeatureSpec) (inputId : Nat) (fits : Bool) :
    (pass.settle window feature inputId fits).2.manager = pass.manager := by
  unfold settle
  dsimp only
  split
  · split
    · rfl
    · exact (take_eq ..).1
  · rfl

theorem settle_history (pass : EncoderPass) (window : EncoderWindow)
    (feature : MultiModalFeatureSpec) (inputId : Nat) (fits : Bool) :
    (pass.settle window feature inputId fits).2.reportedCached = pass.reportedCached ∧
      (pass.settle window feature inputId fits).2.repeatedInputs = pass.repeatedInputs := by
  unfold settle
  dsimp only
  split
  · split
    · exact ⟨rfl, rfl⟩
    · exact ⟨(take_eq ..).2.2.2, (take_eq ..).2.2.1⟩
  · exact ⟨rfl, rfl⟩

/-- The item would be cut although chunks are disabled. -/
def Cut (pass : EncoderPass) (window : EncoderWindow) (feature : MultiModalFeatureSpec) : Prop :=
  window.disableChunkedMmInput ∧ window.numComputedTokens < feature.mmPosition.offset ∧
    window.numComputedTokens + pass.numNewTokens <
      (feature.mmPosition.offset + feature.mmPosition.length : Int)

instance (pass : EncoderPass) (window : EncoderWindow) (feature : MultiModalFeatureSpec) :
    Decidable (pass.Cut window feature) :=
  inferInstanceAs (Decidable (_ ∧ _))

/-- The step ends before an item that would be cut. -/
def endBefore (pass : EncoderPass) (window : EncoderWindow) (feature : MultiModalFeatureSpec) :
    EncoderPass :=
  { pass with
    numNewTokens := max 0 (feature.mmPosition.offset -
      (window.numComputedTokens + window.shiftComputedTokens : Int)) }

theorem visitUncached_eq (pass : EncoderPass) (window : EncoderWindow) (request : Request H)
    (feature : MultiModalFeatureSpec) (inputId : Nat) :
    pass.visitUncached window request feature inputId =
      if pass.Cut window feature then .ok (true, pass.endBefore window feature)
      else (pass.manager.canAllocate request inputId pass.encoderComputeBudget
        pass.numEmbedsToSchedule).map fun answer =>
          { pass with manager := answer.2 }.settle window feature inputId answer.1 := by
  unfold visitUncached
  dsimp only
  split
  · rename_i cut
    rw [if_pos (show pass.Cut window feature from cut)]
    rfl
  · rename_i uncut
    rw [if_neg (show ¬pass.Cut window feature from uncut)]
    cases pass.manager.canAllocate request inputId pass.encoderComputeBudget
      pass.numEmbedsToSchedule with
    | error failure => rfl
    | ok answer =>
        change (if answer.1 = true then _ else _) = _
        unfold settle
        dsimp only [Except.map]
        split
        · split
          · rfl
          · rfl
        · rfl

/-- An embedding of the item lies in the window. -/
def Overlaps (window : EncoderWindow) (feature : MultiModalFeatureSpec) : Prop :=
  ∃ position, feature.mmPosition.HasEmbedAt position ∧ window.numComputedTokens ≤ position ∧
    (position : Int) < window.encoderWindowEnd

/-- The inputs from `first` to `reached` are accounted for, and so are the sums; there
are `slots` free ones. -/
structure Served (features : List MultiModalFeatureSpec) (window : EncoderWindow)
    (budget slots : Int) (first reached : Nat) (pass : EncoderPass) : Prop where
  counted : pass.numEmbedsToSchedule = embedsOf features pass.taken
  paid : pass.encoderComputeBudget + embedsOf features pass.encoderInputsToSchedule = budget
  affordable : 0 ≤ pass.encoderComputeBudget
  room : pass.taken = [] ∨ pass.numEmbedsToSchedule ≤ slots
  visited : ∀ inputId feature, first ≤ inputId → inputId < reached →
    features[inputId]? = some feature → Overlaps window feature →
      inputId ∈ pass.taken ∨ inputId ∈ pass.reportedCached ∨ inputId ∈ pass.repeatedInputs

/-- The loop ended before the feature: no token is left, or the window now ends where
the item begins. -/
def Halted (window : EncoderWindow) (feature : MultiModalFeatureSpec) (pass : EncoderPass) : Prop :=
  pass.numNewTokens = 0 ∨
    (0 < pass.numNewTokens ∧
      window.numComputedTokens + pass.numNewTokens + window.shiftComputedTokens =
        feature.mmPosition.offset)

/-- What a round leaves: it ended the loop, or its input is accounted for. -/
def Rounded (features : List MultiModalFeatureSpec) (window : EncoderWindow)
    (budget slots : Int) (first reached : Nat) (feature : MultiModalFeatureSpec)
    (numNewTokens : Int) (answer : Bool × EncoderPass) : Prop :=
  (answer.1 = true ∧ answer.2.Served features window budget slots first reached ∧
      Halted window feature answer.2) ∨
    (answer.1 = false ∧ answer.2.Served features window budget slots first (reached + 1) ∧
      answer.2.numNewTokens = numNewTokens)

section Served

variable {features : List MultiModalFeatureSpec} {window : EncoderWindow} {budget slots : Int}
  {first reached : Nat} {pass : EncoderPass}

theorem halted_endBefore (pass : EncoderPass) (window : EncoderWindow)
    (feature : MultiModalFeatureSpec) : Halted window feature (pass.endBefore window feature) := by
  unfold Halted endBefore
  dsimp only
  omega

/-- Nothing has been visited yet. -/
theorem served_initial (features : List MultiModalFeatureSpec) (window : EncoderWindow)
    (slots : Int) (first : Nat) (manager : EncoderCacheManager) (numNewTokens : Int)
    (encoderComputeBudget : Nat) :
    Served features window encoderComputeBudget slots first first
      { manager := manager
        numNewTokens := numNewTokens
        encoderComputeBudget := encoderComputeBudget } where
  counted := rfl
  paid := Int.add_zero _
  affordable := Int.natCast_nonneg _
  room := .inl rfl
  visited _ _ after before := absurd after (Nat.not_le.mpr before)

/-- More room, another cache. -/
theorem Served.setManager (served : pass.Served features window budget slots first reached)
    (manager : EncoderCacheManager) {more : Int} (grown : slots ≤ more) :
    Served features window budget more first reached { pass with manager := manager } where
  counted := served.counted
  paid := served.paid
  affordable := served.affordable
  room := served.room.imp id fun room => Int.le_trans room grown
  visited := served.visited

/-- The next input needs nothing, or it is taken, reported or repeated. -/
theorem Served.extend {next : EncoderPass}
    (served : pass.Served features window budget slots first reached)
    (taken : next.taken = pass.taken) (scheduled : next.encoderInputsToSchedule =
      pass.encoderInputsToSchedule)
    (sums : next.numEmbedsToSchedule = pass.numEmbedsToSchedule ∧
      next.encoderComputeBudget = pass.encoderComputeBudget)
    (reported : pass.reportedCached ⊆ next.reportedCached)
    (repeated : pass.repeatedInputs ⊆ next.repeatedInputs)
    (here : ∀ feature, features[reached]? = some feature → Overlaps window feature →
      reached ∈ next.reportedCached ∨ reached ∈ next.repeatedInputs) :
    next.Served features window budget slots first (reached + 1) where
  counted := by rw [sums.1, taken]; exact served.counted
  paid := by rw [sums.2, scheduled]; exact served.paid
  affordable := by rw [sums.2]; exact served.affordable
  room := by rw [sums.1, taken]; exact served.room
  visited inputId feature after before placed overlaps := by
    rcases Nat.lt_or_eq_of_le (Nat.le_of_lt_succ before) with earlier | rfl
    · rw [taken]
      exact (served.visited inputId feature after earlier placed overlaps).imp id
        fun others => others.imp (fun member => reported member) fun member => repeated member
    · exact .inr (here feature placed overlaps)

variable {feature : MultiModalFeatureSpec}

/-- The next input is taken. -/
theorem Served.take (served : pass.Served features window budget slots first reached)
    (placed : features[reached]? = some feature)
    (affordable : (feature.mmPosition.getNumEmbeds : Int) ≤ pass.encoderComputeBudget)
    (room : ((feature.mmPosition.getNumEmbeds + pass.numEmbedsToSchedule : Nat) : Int) ≤ slots) :
    (pass.take window feature reached).Served features window budget slots first (reached + 1) := by
  have counted := served.counted
  have paid := served.paid
  have solvent := served.affordable
  have size := embedsOf_singleton placed
  have visited : ∀ inputId feature', first ≤ inputId → inputId < reached + 1 →
      features[inputId]? = some feature' → Overlaps window feature' →
        inputId ∈ (pass.take window feature reached).taken ∨
          inputId ∈ (pass.take window feature reached).reportedCached ∨
            inputId ∈ (pass.take window feature reached).repeatedInputs := by
    intro inputId feature' after before placed' overlaps
    rcases Nat.lt_or_eq_of_le (Nat.le_of_lt_succ before) with earlier | rfl
    · rw [(take_eq ..).2.2.1, (take_eq ..).2.2.2]
      exact (served.visited inputId feature' after earlier placed' overlaps).imp
        (fun member => mem_taken_take.mpr (.inr member)) id
    · exact .inl (mem_taken_take.mpr (.inl rfl))
  unfold EncoderPass.take at visited ⊢
  split
  · rename_i external
    rw [if_pos external] at visited
    constructor
    · simp only [taken, embedsOf_append, size] at counted ⊢
      omega
    · exact paid
    · exact solvent
    · refine .inr ?_
      dsimp only
      omega
    · exact visited
  · rename_i internal
    rw [if_neg internal] at visited
    constructor
    · simp only [taken, embedsOf_append, size] at counted ⊢
      omega
    · simp only [embedsOf_append, size]
      omega
    · dsimp only
      omega
    · refine .inr ?_
      dsimp only
      omega
    · exact visited

/-- The end of a round on a feature that ends behind the window's start. -/
theorem Served.settle (served : pass.Served features window budget slots first reached)
    (placed : features[reached]? = some feature) {fits : Bool} (backed : fits = true →
      (feature.mmPosition.getNumEmbeds : Int) ≤ pass.encoderComputeBudget ∧
        ((feature.mmPosition.getNumEmbeds + pass.numEmbedsToSchedule : Nat) : Int) ≤ slots) :
    Rounded features window budget slots first reached feature pass.numNewTokens
      (pass.settle window feature reached fits) := by
  unfold EncoderPass.settle
  dsimp only
  split
  · rename_i fitting
    rcases backed fitting with ⟨affordable, room⟩
    right
    split
    · rename_i none
      refine ⟨rfl, ?_, rfl⟩
      apply served.extend rfl rfl ⟨rfl, rfl⟩ (List.Subset.refl _) (List.Subset.refl _)
      rintro found located ⟨position, embedded, after, before⟩
      rw [placed] at located
      cases located
      exfalso
      have begins := embedded.1
      have ends := embedded.2.1
      exact embedded.indices_ne (by omega) (by omega) none
    · refine ⟨rfl, served.take placed affordable room, ?_⟩
      unfold EncoderPass.take
      split
      · rfl
      · rfl
  · left
    refine ⟨rfl, ⟨served.counted, served.paid, served.affordable, served.room, served.visited⟩, ?_⟩
    unfold Halted
    dsimp only
    split <;> omega

end Served

/-! ## The loop over the cache -/

section Visits

open EncoderCacheManager

variable {embeds : String → Nat} {request : Request H} {window : EncoderWindow} {budget : Int}
  {first reached : Nat} {pass : EncoderPass} {feature : MultiModalFeatureSpec}

/-- A round of a decoder-only model returns. -/
theorem Served.visit (accounted : Accounted embeds pass.manager)
    (served : pass.Served request.mmFeatures window budget pass.manager.numFreeSlots first reached)
    (placed : request.mmFeatures[reached]? = some feature) :
    ∃ answer, pass.visit window request reached = .ok answer ∧
      Accounted embeds answer.2.manager ∧
      Rounded request.mmFeatures window budget answer.2.manager.numFreeSlots first reached feature
        pass.numNewTokens answer := by
  unfold EncoderPass.visit
  rw [pyIndex_eq_ok.mpr placed]
  by_cases scheduled : feature.identifier ∈ pass.mmHashesToSchedule
  · dsimp only [bind, Except.bind]
    rw [if_pos scheduled]
    refine ⟨_, rfl, accounted, .inr ⟨rfl, ?_, rfl⟩⟩
    refine served.extend rfl rfl ⟨rfl, rfl⟩ ?_ ?_ ?_
    · exact List.Subset.refl _
    · exact List.subset_append_left _ _
    · exact fun _ _ _ => .inr (List.mem_append_right _ (List.mem_singleton_self _))
  · dsimp only [bind, Except.bind]
    rw [if_neg scheduled]
    rcases checkAndUpdateCache_returns accounted placed with ⟨found, manager, checked⟩
    rcases checkAndUpdateCache_spec accounted checked with ⟨accounted', kept⟩
    rw [checked]
    dsimp only
    cases found with
    | true =>
        refine ⟨_, rfl, accounted', .inr ⟨rfl, ?_, rfl⟩⟩
        refine (served.setManager manager kept.room).extend rfl rfl ⟨rfl, rfl⟩ ?_ ?_ ?_
        · exact List.subset_append_left _ _
        · exact List.Subset.refl _
        · exact fun _ _ _ => .inl (List.mem_append_right _ (List.mem_singleton_self _))
    | false =>
        rw [if_neg Bool.false_ne_true, visitUncached_eq]
        have served' := served.setManager manager kept.room
        split
        · refine ⟨_, rfl, accounted', .inl ⟨rfl, ?_, halted_endBefore _ _ _⟩⟩
          exact ⟨served'.counted, served'.paid, served'.affordable, served'.room, served'.visited⟩
        · rcases canAllocate_spec accounted' placed pass.encoderComputeBudget
            pass.numEmbedsToSchedule with ⟨fits, after, asked, accounted'', kept', backed⟩
          rw [asked]
          have settled := (served'.setManager after kept'.room).settle placed
            fun fitting : fits = true =>
              ⟨canAllocate_affordable (fitting ▸ asked) placed, backed fitting⟩
          refine ⟨_, rfl, ?_, ?_⟩
          · dsimp only
            rw [settle_manager]
            exact accounted''
          · dsimp only
            rw [settle_manager]
            exact settled

end Visits

/-- A loop whose rounds tell whether they end it. -/
def untilStop (round : EncoderPass → Nat → Except PyError (Bool × EncoderPass)) :
    List Nat → EncoderPass → Except PyError EncoderPass
  | [], pass => .ok pass
  | inputId :: rest, pass => do
      let (stop, pass) ← round pass inputId
      if stop then pure pass else untilStop round rest pass

theorem visitAll_eq_untilStop (window : EncoderWindow) (request : Request H) (inputIds : List Nat)
    (pass : EncoderPass) :
    visitAll window request inputIds pass =
      untilStop (fun pass inputId => pass.visit window request inputId) inputIds pass := by
  induction inputIds generalizing pass with
  | nil => rfl
  | cons inputId rest inductionHypothesis =>
      simp only [visitAll, untilStop, inductionHypothesis]

/-- The loop has visited all its inputs, or it ended before one of them. -/
def Ended (features : List MultiModalFeatureSpec) (window : EncoderWindow) (budget : Int)
    (slots : EncoderPass → Int) (first finish : Nat) (numNewTokens : Int) (pass : EncoderPass) :
    Prop :=
  (pass.Served features window budget (slots pass) first finish ∧
      pass.numNewTokens = numNewTokens) ∨
    ∃ reached feature, reached < finish ∧ features[reached]? = some feature ∧
      pass.Served features window budget (slots pass) first reached ∧ Halted window feature pass

variable {features : List MultiModalFeatureSpec}

variable {window : EncoderWindow}

/-- Rounds that return and leave what is described make a loop that does. -/
theorem untilStop_ended {round : EncoderPass → Nat → Except PyError (Bool × EncoderPass)}
    {budget : Int} (slots : EncoderPass → Int) (first : Nat) (invariant : EncoderPass → Prop)
    (rounds : ∀ pass reached feature, features[reached]? = some feature → invariant pass →
      pass.Served features window budget (slots pass) first reached →
        ∃ answer, round pass reached = .ok answer ∧ invariant answer.2 ∧
          Rounded features window budget (slots answer.2) first reached feature pass.numNewTokens
            answer) {reached count : Nat} (inside : reached + count ≤ features.length)
    (pass : EncoderPass) (holds : invariant pass)
    (served : pass.Served features window budget (slots pass) first reached) :
    ∃ last, untilStop round (List.range' reached count) pass = .ok last ∧ invariant last ∧
      last.Ended features window budget slots first (reached + count) pass.numNewTokens := by
  induction count generalizing reached pass with
  | zero => exact ⟨pass, rfl, holds, .inl ⟨served, rfl⟩⟩
  | succ count inductionHypothesis =>
      have bound : reached < features.length := by omega
      have placed := List.getElem?_eq_getElem bound
      rcases rounds pass reached _ placed holds served with ⟨⟨stop, next⟩, ran, kept, rounded⟩
      rw [List.range'_succ, untilStop, ran]
      dsimp only [bind, Except.bind]
      rcases rounded with ⟨stopped, served', halted⟩ | ⟨continued, served', same⟩
      · dsimp only at stopped served' halted
        rw [if_pos stopped]
        exact ⟨next, rfl, kept, .inr ⟨reached, _, by omega, placed, served', halted⟩⟩
      · dsimp only at continued served' same
        rw [if_neg (by rw [continued]; exact Bool.false_ne_true)]
        have shifted : reached + 1 + count = reached + (count + 1) := by omega
        have final := inductionHypothesis (by omega) next kept served'
        rw [shifted, same] at final
        exact final

/-- The tokens that are left can count on the encoder, as far as the features from
`first` on are concerned. -/
structure Covers (features : List MultiModalFeatureSpec)
    (numComputedTokens numNewTokens encoderComputeBudget shiftComputedTokens : Nat) (slots : Int)
    (first : Nat) (pass : EncoderPass) : Prop where
  nonneg : 0 ≤ pass.numNewTokens
  shrunk : pass.numNewTokens ≤ numNewTokens
  affordable : embedsOf features pass.encoderInputsToSchedule ≤ encoderComputeBudget
  room : pass.taken = [] ∨ embedsOf features pass.taken ≤ slots
  supplied : ∀ inputId feature position, first ≤ inputId → features[inputId]? = some feature →
    feature.mmPosition.HasEmbedAt position → 0 < pass.numNewTokens →
    numComputedTokens ≤ position →
    position < numComputedTokens + pass.numNewTokens + shiftComputedTokens →
      inputId ∈ pass.taken ∨ inputId ∈ pass.reportedCached ∨ inputId ∈ pass.repeatedInputs

variable {numNewTokens : Nat}

/-- What the end of the loop means for the tokens that are left. -/
theorem Ended.covers {budget finish first : Nat} {slots : EncoderPass → Int} {pass : EncoderPass}
    (ended : pass.Ended features window budget slots first finish numNewTokens)
    (sorted : FeaturesSorted features) (windowEnd : window.encoderWindowEnd =
      window.numComputedTokens + numNewTokens + window.shiftComputedTokens)
    (bounds : ∀ inputId feature, features[inputId]? = some feature →
      (inputId < finish ↔ (feature.mmPosition.offset : Int) < window.encoderWindowEnd)) :
    pass.Covers features window.numComputedTokens numNewTokens budget window.shiftComputedTokens
      (slots pass) first := by
  -- The inputs that matter lie before the one where the loop ended.
  suffices described : ∃ reached, pass.Served features window budget (slots pass) first reached ∧
      0 ≤ pass.numNewTokens ∧ pass.numNewTokens ≤ numNewTokens ∧
      ∀ inputId feature, features[inputId]? = some feature → 0 < pass.numNewTokens →
        (feature.mmPosition.offset : Int) <
          window.numComputedTokens + pass.numNewTokens + window.shiftComputedTokens →
          inputId < reached by
    rcases described with ⟨reached, served, nonneg, shrunk, before⟩
    have paid := served.paid
    have affordable := served.affordable
    constructor
    · exact nonneg
    · exact shrunk
    · omega
    · rw [← served.counted]
      exact served.room
    · intro inputId feature position after placed embedded positive low high
      have begins := embedded.1
      apply served.visited inputId feature after
      · exact before inputId feature placed positive (by omega)
      · exact placed
      · exact ⟨position, embedded, low, by omega⟩
  rcases ended with ⟨served, same⟩ | ⟨reached, feature, inside, placed, served, halted⟩
  · refine ⟨finish, served, by omega, by omega, ?_⟩
    intro inputId feature placed _ begins
    exact (bounds inputId feature placed).mpr (by omega)
  · have begins := (bounds reached feature placed).mp inside
    refine ⟨reached, served, ?_, ?_, ?_⟩
    · rcases halted with zero | ⟨positive, _⟩ <;> omega
    · rcases halted with zero | ⟨_, reaches⟩ <;> omega
    · intro inputId other placed' positive earlier
      by_contra later
      rcases Nat.lt_or_eq_of_le (Nat.not_lt.mp later) with after | rfl
      · rcases List.getElem?_eq_some_iff.mp placed with ⟨bound, rfl⟩
        rcases List.getElem?_eq_some_iff.mp placed' with ⟨bound', rfl⟩
        have ordered := List.pairwise_iff_getElem.mp sorted _ _ bound bound' after
        rcases halted with zero | ⟨_, reaches⟩ <;> omega
      · rw [placed] at placed'
        cases placed'
        rcases halted with zero | ⟨_, reaches⟩ <;> omega

/-- A call that returns at once. -/
theorem covers_initial {request : Request H}
    (nothing : (numNewTokens : Int) = 0 ∨ (!request.hasEncoderInputs) = true)
    (manager : EncoderCacheManager) (numComputedTokens encoderComputeBudget : Nat)
    (shiftComputedTokens : Nat) (slots : Int) :
    Covers request.mmFeatures numComputedTokens numNewTokens encoderComputeBudget
      shiftComputedTokens slots 0
      { manager := manager
        numNewTokens := numNewTokens
        encoderComputeBudget := encoderComputeBudget } where
  nonneg := Int.natCast_nonneg _
  shrunk := Int.le_refl _
  affordable := Nat.zero_le _
  room := .inl rfl
  supplied inputId feature position _ placed _ positive := by
    rcases nothing with none | empty
    · exact absurd positive (by simp [none])
    · simp only [Request.hasEncoderInputs, Bool.not_not, List.isEmpty_iff] at empty
      simp [empty] at placed

end EncoderPass

/-! ## Encoder-decoder models -/

/-- `EncoderDecoderCacheManager`, as far as scheduling reads it: the cache is not
used yet, only its room is counted. -/
structure EncoderDecoderCacheManager where
  numFreeSlots : Int

/-- `EncoderDecoderCacheManager.can_allocate`. -/
def EncoderDecoderCacheManager.canAllocate {H : Type} (request : Request H) (inputId : Nat)
    (encoderComputeBudget : Int) (numEmbedsToSchedule : Nat)
    (manager : EncoderDecoderCacheManager) : Except PyError Bool := do
  let numEncoderEmbeds ← request.getNumEncoderEmbeds inputId
  if numEncoderEmbeds > encoderComputeBudget then
    pure false
  else
    let numEncoderEmbeds := numEncoderEmbeds + numEmbedsToSchedule
    pure (decide (numEncoderEmbeds ≤ manager.numFreeSlots))

namespace EncoderPass

variable {H : Type} {request : Request H} {window : EncoderWindow}
  {cross : EncoderDecoderCacheManager}

/-- A round of the loop under `is_encoder_decoder`: the encoder runs before the first
token and never again. -/
def visitCross (cross : EncoderDecoderCacheManager) (window : EncoderWindow) (request : Request H)
    (pass : EncoderPass) (inputId : Nat) : Except PyError (Bool × EncoderPass) := do
  let feature ← pyIndex request.mmFeatures inputId
  if window.numComputedTokens > 0 then do
    pyAssert (feature.mmPosition.offset = 0)
    pure (false, pass)
  else if pass.Cut window feature then
    pure (true, pass.endBefore window feature)
  else do
    let fits ← cross.canAllocate request inputId pass.encoderComputeBudget
      pass.numEmbedsToSchedule
    pure (pass.settle window feature inputId fits)

variable {feature : MultiModalFeatureSpec}

theorem canAllocate_cross {inputId : Nat} (placed : request.mmFeatures[inputId]? = some feature)
    (encoderComputeBudget : Int) (numEmbedsToSchedule : Nat) :
    ∃ fits, cross.canAllocate request inputId encoderComputeBudget numEmbedsToSchedule =
        .ok fits ∧
      (fits = true → (feature.mmPosition.getNumEmbeds : Int) ≤ encoderComputeBudget ∧
        ((feature.mmPosition.getNumEmbeds + numEmbedsToSchedule : Nat) : Int) ≤
          cross.numFreeSlots) := by
  unfold EncoderDecoderCacheManager.canAllocate
  rw [EncoderCacheManager.getNumEncoderEmbeds_eq_ok.mpr ⟨feature, placed, rfl⟩]
  dsimp only [bind, Except.bind]
  split
  · exact ⟨false, rfl, nofun⟩
  · rename_i affordable
    exact ⟨_, rfl, fun room => ⟨Int.not_lt.mp affordable, of_decide_eq_true room⟩⟩

/-- The rounds of the first step. -/
theorem Served.visitCross {budget : Int} {reached : Nat} {pass : EncoderPass}
    (initial : window.numComputedTokens = 0)
    (served : pass.Served request.mmFeatures window budget cross.numFreeSlots 0 reached)
    (placed : request.mmFeatures[reached]? = some feature) :
    ∃ answer, EncoderPass.visitCross cross window request pass reached = .ok answer ∧
      (answer.2.reportedCached = pass.reportedCached ∧
        answer.2.repeatedInputs = pass.repeatedInputs) ∧
      Rounded request.mmFeatures window budget cross.numFreeSlots 0 reached feature
        pass.numNewTokens answer := by
  unfold EncoderPass.visitCross
  rw [pyIndex_eq_ok.mpr placed]
  dsimp only [bind, Except.bind]
  rw [if_neg (by omega)]
  split
  · refine ⟨_, rfl, ⟨rfl, rfl⟩, .inl ⟨rfl, ?_, halted_endBefore _ _ _⟩⟩
    exact ⟨served.counted, served.paid, served.affordable, served.room, served.visited⟩
  · rcases canAllocate_cross placed pass.encoderComputeBudget pass.numEmbedsToSchedule with
      ⟨fits, asked, backed⟩
    rw [asked]
    exact ⟨_, rfl, settle_history .., served.settle placed backed⟩

/-- Afterwards nothing is scheduled. -/
theorem visitCross_later (later : 0 < window.numComputedTokens) {inputIds : List Nat}
    {pass next : EncoderPass}
    (ran : untilStop (EncoderPass.visitCross cross window request) inputIds pass = .ok next) :
    next = pass := by
  induction inputIds with
  | nil =>
      cases ran
      rfl
  | cons inputId rest inductionHypothesis =>
      rcases bind_eq_ok.mp ran with ⟨⟨stop, after⟩, round, ran⟩
      rcases bind_eq_ok.mp round with ⟨feature, _, round⟩
      rw [if_pos later] at round
      rcases bind_eq_ok.mp round with ⟨_, _, round⟩
      cases round
      exact inductionHypothesis ran

end EncoderPass

/-- `_try_schedule_encoder_inputs` under `is_encoder_decoder`: every input is looked at,
and the encoder cache stays empty. -/
def tryScheduleCrossInputs {H : Type} (cross : EncoderDecoderCacheManager) (request : Request H)
    (numComputedTokens : Nat) (numNewTokens encoderComputeBudget : Int)
    (shiftComputedTokens : Nat) (disableChunkedMmInput : Bool) (hasCacheItem : String → Bool) :
    Except PyError EncoderPass :=
  let pass : EncoderPass :=
    { manager := .init 0
      numNewTokens := numNewTokens
      encoderComputeBudget := encoderComputeBudget }
  if numNewTokens = 0 ∨ !request.hasEncoderInputs then
    .ok pass
  else
    let encoderWindowEnd := numComputedTokens + numNewTokens + shiftComputedTokens
    let bounds := getMmFeaturesInWindow request.mmFeatures numComputedTokens encoderWindowEnd
    EncoderPass.untilStop
      (EncoderPass.visitCross cross
        { numComputedTokens := numComputedTokens
          shiftComputedTokens := shiftComputedTokens
          encoderWindowEnd := encoderWindowEnd
          disableChunkedMmInput := disableChunkedMmInput
          hasCacheItem := hasCacheItem }
        request)
      (List.range' 0 bounds.2) pass

/-- The `encoder_cache_manager` that a scheduler was built with. -/
inductive EncoderManager where
  | multiModal (manager : EncoderCacheManager)
  | encoderDecoder (cross : EncoderDecoderCacheManager)

namespace EncoderManager

/-- `_try_schedule_encoder_inputs`. -/
def trySchedule {H : Type} (request : Request H) (numComputedTokens : Nat)
    (numNewTokens encoderComputeBudget : Int) (shiftComputedTokens : Nat)
    (disableChunkedMmInput : Bool) (hasCacheItem : String → Bool) :
    EncoderManager → Except PyError EncoderPass
  | multiModal manager =>
      tryScheduleEncoderInputs manager request numComputedTokens numNewTokens
        encoderComputeBudget shiftComputedTokens disableChunkedMmInput hasCacheItem
  | encoderDecoder cross =>
      tryScheduleCrossInputs cross request numComputedTokens numNewTokens encoderComputeBudget
        shiftComputedTokens disableChunkedMmInput hasCacheItem

/-- The states that scheduling can find: a reachable encoder cache with nothing left to
allocate, and features sorted as the window assumes.  The inputs of an encoder-decoder
model all begin at the first token, their ends are not looked at. -/
def Prepared {H : Type} (embeds : String → Nat) (request : Request H) : EncoderManager → Prop
  | multiModal manager =>
      Reachable (EncoderCacheManager.system H embeds) ⟨manager, []⟩ ∧
        FeaturesSorted request.mmFeatures ∧ EndsSorted request.mmFeatures
  | encoderDecoder _ => FeaturesSorted request.mmFeatures

/-- The inputs that were taken fit the cache together: after the evictions of the call
there is room for their embeddings, and `allocate` accepts one after the other. -/
def Fits {H : Type} (request : Request H) (encoder : EncoderPass) : EncoderManager → Prop
  | multiModal _ =>
      (encoder.taken = [] ∨
          embedsOf request.mmFeatures encoder.taken ≤ encoder.manager.numFreeSlots) ∧
        ∃ allocated, encoder.taken.foldlM
          (fun (manager : EncoderCacheManager) inputId => manager.allocate request inputId)
          encoder.manager = .ok allocated
  | encoderDecoder cross =>
      encoder.taken = [] ∨ embedsOf request.mmFeatures encoder.taken ≤ cross.numFreeSlots

/-- Why an input that the tokens need is not among those taken: the request refers to
its cached output, or the item is taken through another occurrence; the encoder of an
encoder-decoder model has run with the first token. -/
def Spares {H : Type} (request : Request H) (numComputedTokens : Nat) (encoder : EncoderPass)
    (feature : MultiModalFeatureSpec) : EncoderManager → Prop
  | multiModal _ =>
      encoder.manager.Refers request.requestId feature.identifier ∨
        ∃ inputId ∈ encoder.taken, ∃ other, request.mmFeatures[inputId]? = some other ∧
          other.identifier = feature.identifier
  | encoderDecoder _ => 0 < numComputedTokens ∧ encoder.taken = []

/-- What the answer of `_try_schedule_encoder_inputs` guarantees. -/
structure Supplied {H : Type} (request : Request H)
    (numComputedTokens numNewTokens encoderComputeBudget shiftComputedTokens : Nat)
    (manager : EncoderManager) (encoder : EncoderPass) : Prop where
  nonneg : 0 ≤ encoder.numNewTokens
  shrunk : encoder.numNewTokens ≤ numNewTokens
  affordable : embedsOf request.mmFeatures encoder.encoderInputsToSchedule ≤ encoderComputeBudget
  fits : manager.Fits request encoder
  supplied : ∀ inputId feature position, request.mmFeatures[inputId]? = some feature →
    feature.mmPosition.HasEmbedAt position → 0 < encoder.numNewTokens →
    numComputedTokens ≤ position →
    position < numComputedTokens + encoder.numNewTokens + shiftComputedTokens →
      inputId ∈ encoder.encoderInputsToSchedule ∨ inputId ∈ encoder.externalLoadEncoderInput ∨
        manager.Spares request numComputedTokens encoder feature

end EncoderManager

section Supplying

open EncoderCacheManager

variable {H : Type} {embeds : String → Nat} {manager : EncoderCacheManager}
  {cross : EncoderDecoderCacheManager} {request : Request H}

/-- Inputs for which there is room can be allocated one after the other. -/
theorem allocateAll_returns {inputIds : List Nat}
    (placed : ∀ inputId ∈ inputIds, ∃ feature, request.mmFeatures[inputId]? = some feature)
    (room : embedsOf request.mmFeatures inputIds ≤ manager.numFreeSlots)
    (freeable : manager.numFreeSlots ≤ manager.numFreeableSlots) :
    ∃ allocated, inputIds.foldlM
      (fun (manager : EncoderCacheManager) inputId => manager.allocate request inputId) manager =
        .ok allocated := by
  induction inputIds generalizing manager with
  | nil => exact ⟨manager, rfl⟩
  | cons inputId rest inductionHypothesis =>
      rcases placed inputId List.mem_cons_self with ⟨feature, here⟩
      have size := embedsOf_singleton here
      rw [show inputId :: rest = [inputId] ++ rest from rfl, embedsOf_append, size] at room
      have allocated : manager.allocate request inputId = .ok
          { manager.addReference feature.identifier (manager.cached.getD feature.identifier [])
              request.requestId inputId with
            numFreeSlots := manager.numFreeSlots - feature.mmPosition.getNumEmbeds
            numFreeableSlots := manager.numFreeableSlots - feature.mmPosition.getNumEmbeds } := by
        unfold allocate
        rw [pyIndex_eq_ok.mpr here, getNumEncoderEmbeds_eq_ok.mpr ⟨feature, here, rfl⟩]
        dsimp only [bind, Except.bind]
        rw [show pyAssert (manager.numFreeSlots ≥ feature.mmPosition.getNumEmbeds) = .ok () from
            pyAssert_eq_ok.mpr (by omega),
          show pyAssert (manager.numFreeableSlots ≥ feature.mmPosition.getNumEmbeds) = .ok () from
            pyAssert_eq_ok.mpr (by omega)]
        rfl
      rw [List.foldlM_cons, allocated]
      apply inductionHypothesis
      · exact fun other member => placed other (List.mem_cons_of_mem _ member)
      · dsimp only
        omega
      · dsimp only
        omega

/-- The call of a decoder-only model returns. -/
theorem tryScheduleEncoderInputs_covers (accounted : Accounted embeds manager)
    (sorted : FeaturesSorted request.mmFeatures) (ends : EndsSorted request.mmFeatures)
    (numComputedTokens numNewTokens encoderComputeBudget shiftComputedTokens : Nat)
    (disableChunkedMmInput : Bool) (hasCacheItem : String → Bool) :
    ∃ encoder, tryScheduleEncoderInputs manager request numComputedTokens numNewTokens
        encoderComputeBudget shiftComputedTokens disableChunkedMmInput hasCacheItem =
          .ok encoder ∧
      Accounted embeds encoder.manager ∧
      encoder.Covers request.mmFeatures numComputedTokens numNewTokens encoderComputeBudget
        shiftComputedTokens encoder.manager.numFreeSlots 0 := by
  unfold tryScheduleEncoderInputs
  split
  · rename_i nothing
    exact ⟨_, rfl, accounted, EncoderPass.covers_initial nothing ..⟩
  · rename_i wanted
    have nonempty : (numComputedTokens : Int) <
        numComputedTokens + numNewTokens + shiftComputedTokens := by omega
    rcases window_finish sorted numComputedTokens
      (numComputedTokens + numNewTokens + shiftComputedTokens) with ⟨bounded, finishes⟩
    have opens := window_le sorted ends nonempty
    rw [EncoderPass.visitAll_eq_untilStop]
    generalize windowed : getMmFeaturesInWindow request.mmFeatures (numComputedTokens : Int)
      (numComputedTokens + numNewTokens + shiftComputedTokens) = bounds at *
    have inside : bounds.1 + (bounds.2 - bounds.1) ≤ request.mmFeatures.length := by omega
    rcases EncoderPass.untilStop_ended (fun pass => pass.manager.numFreeSlots) bounds.1
      (fun pass => Accounted embeds pass.manager)
      (fun pass reached feature placed accounted served => served.visit accounted placed)
      inside
      { manager := manager
        numNewTokens := numNewTokens
        encoderComputeBudget := encoderComputeBudget }
      accounted
      (EncoderPass.served_initial request.mmFeatures
        { numComputedTokens := numComputedTokens
          shiftComputedTokens := shiftComputedTokens
          encoderWindowEnd := numComputedTokens + numNewTokens + shiftComputedTokens
          disableChunkedMmInput := disableChunkedMmInput
          hasCacheItem := hasCacheItem } ..) with ⟨last, ran, accounted', ended⟩
    rw [Nat.add_sub_cancel' opens] at ended
    have covers := ended.covers sorted rfl finishes
    refine ⟨last, ran, accounted', covers.nonneg, covers.shrunk, covers.affordable, covers.room, ?_⟩
    -- A feature before the window has no position in it.
    intro inputId feature position _ placed embedded positive low high
    apply covers.supplied inputId feature position ?_ placed embedded positive low high
    by_contra before
    have finished := window_start ends (windowed ▸ Nat.not_le.mp before) placed
    have inside := embedded.2.1
    omega

/-- The first call of an encoder-decoder model. -/
theorem tryScheduleCrossInputs_covers (sorted : FeaturesSorted request.mmFeatures)
    (numNewTokens encoderComputeBudget shiftComputedTokens : Nat)
    (disableChunkedMmInput : Bool) (hasCacheItem : String → Bool) :
    ∃ encoder, tryScheduleCrossInputs cross request 0 numNewTokens encoderComputeBudget
        shiftComputedTokens disableChunkedMmInput hasCacheItem = .ok encoder ∧
      (encoder.reportedCached = [] ∧ encoder.repeatedInputs = []) ∧
      encoder.Covers request.mmFeatures 0 numNewTokens encoderComputeBudget shiftComputedTokens
        cross.numFreeSlots 0 := by
  unfold tryScheduleCrossInputs
  dsimp only
  split
  · rename_i nothing
    exact ⟨_, rfl, ⟨rfl, rfl⟩, EncoderPass.covers_initial nothing ..⟩
  · rcases window_finish sorted (0 : Nat) ((0 : Nat) + numNewTokens + shiftComputedTokens) with
      ⟨bounded, finishes⟩
    generalize getMmFeaturesInWindow request.mmFeatures ((0 : Nat) : Int)
      ((0 : Nat) + numNewTokens + shiftComputedTokens) = bounds at *
    rcases EncoderPass.untilStop_ended (fun _ => cross.numFreeSlots) 0
      (fun pass => pass.reportedCached = [] ∧ pass.repeatedInputs = [])
      (fun pass reached feature placed none served => by
        rcases served.visitCross rfl placed with ⟨answer, ran, same, rounded⟩
        exact ⟨answer, ran, ⟨same.1.trans none.1, same.2.trans none.2⟩, rounded⟩)
      (show 0 + bounds.2 ≤ _ by omega)
      { manager := .init 0
        numNewTokens := numNewTokens
        encoderComputeBudget := encoderComputeBudget }
      ⟨rfl, rfl⟩
      (EncoderPass.served_initial request.mmFeatures
        { numComputedTokens := 0
          shiftComputedTokens := shiftComputedTokens
          encoderWindowEnd := (0 : Nat) + numNewTokens + shiftComputedTokens
          disableChunkedMmInput := disableChunkedMmInput
          hasCacheItem := hasCacheItem } ..) with ⟨last, ran, none, ended⟩
    rw [Nat.zero_add] at ended
    exact ⟨last, ran, none, ended.covers sorted rfl finishes⟩

/-- The later calls of an encoder-decoder model schedule nothing. -/
theorem tryScheduleCrossInputs_later {numComputedTokens shiftComputedTokens : Nat}
    {numNewTokens encoderComputeBudget : Int} {disableChunkedMmInput : Bool}
    {hasCacheItem : String → Bool} {encoder : EncoderPass} (later : 0 < numComputedTokens)
    (ran : tryScheduleCrossInputs cross request numComputedTokens numNewTokens
      encoderComputeBudget shiftComputedTokens disableChunkedMmInput hasCacheItem = .ok encoder) :
    encoder =
      { manager := .init 0
        numNewTokens := numNewTokens
        encoderComputeBudget := encoderComputeBudget } := by
  unfold tryScheduleCrossInputs at ran
  split at ran
  · cases ran
    rfl
  · exact EncoderPass.visitCross_later later ran

/-- The returned count is between zero and the requested one, the inputs to encode are
within the budget, all inputs taken fit the cache together, and every feature that has
an embedding among the positions of the remaining tokens and of the look-ahead is to be
encoded, to be loaded, or spared for one of the reasons above.  In a decoder-only model
the call does return. -/
theorem EncoderManager.trySchedule_supplied {manager : EncoderManager} {request : Request H}
    (prepared : manager.Prepared embeds request)
    (numComputedTokens numNewTokens encoderComputeBudget shiftComputedTokens : Nat)
    (disableChunkedMmInput : Bool) (hasCacheItem : String → Bool) :
    (∀ encoder, manager.trySchedule request numComputedTokens numNewTokens encoderComputeBudget
        shiftComputedTokens disableChunkedMmInput hasCacheItem = .ok encoder →
      manager.Supplied request numComputedTokens numNewTokens encoderComputeBudget
        shiftComputedTokens encoder) ∧
    ((∃ cache, manager = .multiModal cache) →
      ∃ encoder, manager.trySchedule request numComputedTokens numNewTokens encoderComputeBudget
        shiftComputedTokens disableChunkedMmInput hasCacheItem = .ok encoder) := by
  cases manager with
  | multiModal cache =>
      rcases prepared with ⟨reached, sorted, ends⟩
      have accounted := (reachable_sound reached).accounted
      rcases tryScheduleEncoderInputs_covers accounted sorted ends numComputedTokens numNewTokens
        encoderComputeBudget shiftComputedTokens disableChunkedMmInput hasCacheItem with
        ⟨encoder, ran, accounted', covers⟩
      refine ⟨fun other ran' => ?_, fun _ => ⟨encoder, ran⟩⟩
      cases ran.symm.trans ran'
      rcases tryScheduleEncoderInputs_collects ran with ⟨collected, _, _⟩
      rcases tryScheduleEncoderInputs_keeps accounted.tidy ran with ⟨_, reported⟩
      refine ⟨covers.nonneg, covers.shrunk, covers.affordable, ⟨covers.room, ?_⟩, ?_⟩
      · rcases covers.room with none | room
        · rw [none]
          exact ⟨_, rfl⟩
        · apply allocateAll_returns ?_ room
          · rw [accounted'.freeable]
            omega
          · intro inputId member
            rcases collected.taken inputId member with ⟨feature, placed, _⟩
            exact ⟨feature, placed⟩
      · intro inputId feature position placed embedded positive low high
        rcases covers.supplied inputId feature position (Nat.zero_le _) placed embedded positive
          low high with taken | cached | repeated
        · rcases List.mem_append.mp taken with scheduled | external
          · exact .inl scheduled
          · exact .inr (.inl external)
        · rcases reported inputId cached with ⟨found, placed', refers⟩
          rw [placed] at placed'
          cases placed'
          exact .inr (.inr (.inl refers))
        · rcases collected.repeated inputId repeated with ⟨found, placed', member⟩
          rw [placed] at placed'
          cases placed'
          exact .inr (.inr (.inr (collected.listed _ member)))
  | encoderDecoder cross =>
      refine ⟨fun encoder ran => ?_, nofun⟩
      rcases Nat.eq_zero_or_pos numComputedTokens with rfl | later
      · rcases tryScheduleCrossInputs_covers prepared numNewTokens encoderComputeBudget
          shiftComputedTokens disableChunkedMmInput hasCacheItem with
          ⟨other, ran', ⟨reported, repeated⟩, covers⟩
        cases ran.symm.trans ran'
        refine ⟨covers.nonneg, covers.shrunk, covers.affordable, covers.room, ?_⟩
        intro inputId feature position placed embedded positive low high
        have taken := covers.supplied inputId feature position (Nat.zero_le _) placed embedded
          positive low high
        rw [reported, repeated] at taken
        rcases taken with taken | none | none
        · rcases List.mem_append.mp taken with scheduled | external
          · exact .inl scheduled
          · exact .inr (.inl external)
        · contradiction
        · contradiction
      · cases tryScheduleCrossInputs_later later ran
        refine ⟨Int.natCast_nonneg _, Int.le_refl _, Nat.zero_le _, .inl rfl, ?_⟩
        intro inputId feature position placed embedded positive low high
        exact .inr (.inr ⟨later, rfl⟩)

end Supplying

/-- A request that shows one image twice. -/
def sameImageTwice : Request Unit :=
  { requestId := "r"
    mmFeatures :=
      [⟨"cat", { offset := 0, length := 3 }⟩, ⟨"cat", { offset := 4, length := 3 }⟩] }

theorem sameImageTwice_prepared :
    (EncoderManager.multiModal (.init 10)).Prepared (fun _ => 3) sameImageTwice := by
  refine ⟨.start ⟨10, rfl⟩, ?_, ?_⟩
  · simp [FeaturesSorted, sameImageTwice]
  · simp [EndsSorted, sameImageTwice]

/-- Both occurrences are read by the step, one is encoded. -/
theorem EncoderManager.trySchedule_supplied_twice :
    (EncoderManager.multiModal (.init 10)).Prepared (fun _ => 3) sameImageTwice ∧
      ∀ encoder, (EncoderManager.multiModal (.init 10)).trySchedule sameImageTwice 0 8 10 0 false
          (fun _ => false) = .ok encoder →
        (EncoderManager.multiModal (.init 10)).Supplied sameImageTwice 0 8 10 0 encoder :=
  ⟨sameImageTwice_prepared,
    (EncoderManager.trySchedule_supplied sameImageTwice_prepared 0 8 10 0 false fun _ => false).1⟩

/-- The second occurrence is read by the step and is in no list, and nothing is cached.
A later step of an encoder-decoder model reads its input and lists nothing either. -/
theorem trySchedule_unlisted :
    (∃ encoder feature, (EncoderManager.multiModal (.init 10)).trySchedule sameImageTwice 0 8 10 0
        false (fun _ => false) = .ok encoder ∧
      encoder.numNewTokens = 8 ∧ sameImageTwice.mmFeatures[1]? = some feature ∧
      feature.mmPosition.HasEmbedAt 4 ∧ 1 ∉ encoder.encoderInputsToSchedule ∧
      1 ∉ encoder.externalLoadEncoderInput ∧
      ¬encoder.manager.Refers sameImageTwice.requestId feature.identifier) ∧
    ∃ encoder, (EncoderManager.encoderDecoder ⟨10⟩).trySchedule
        (EncoderCacheManager.oneImage "r" "sound") 1 1 10 0 false (fun _ => false) = .ok encoder ∧
      encoder.numNewTokens = 1 ∧ encoder.taken = [] := by
  refine ⟨⟨_, _, rfl, rfl, rfl, ⟨by decide, by decide, nofun⟩, by decide, by decide, ?_⟩,
    _, rfl, rfl, rfl⟩
  rintro ⟨references, cached, _⟩
  contradiction

end Vllm.Core
