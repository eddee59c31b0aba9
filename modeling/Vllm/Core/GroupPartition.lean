import Vllm.Core.GroupStrategies
import Vllm.Core.TensorLanes

/-!
# Groups share out the layers

Whichever strategy makes them, the groups of a model hold each of its layers exactly once,
and the layers of a group go together.
-/

namespace Vllm.Core.CachePlan

open Vllm.Library

/-! ## Dictionaries of layers -/

variable {κ ν α : Type} {group : KVCacheGroupSpec} {spec : LayerSpec} {buckets : List KVCacheSpecs}

variable {dict : Dict κ ν} {key : κ} {names : List String} {groupSpec : GroupSpec} {name : String}
  {anchorBytes : Nat}

theorem keys_insert_of_mem [DecidableEq κ] (known : key ∈ dict.keys) (value : ν) :
    (dict.insert key value).keys = dict.keys := by
  rcases dict with ⟨entries, nodupKeys⟩
  change key ∈ entries.map Prod.fst at known
  change (Dict.insertEntries key value entries).map Prod.fst = entries.map Prod.fst
  clear nodupKeys
  induction entries with
  | nil => cases known
  | cons entry rest inductionHypothesis =>
      rw [Dict.insertEntries]
      split
      · rename_i same
        rw [List.map_cons, List.map_cons, same]
      · rename_i other
        rcases List.mem_cons.mp known with here | later
        · exact absurd here.symm other
        · rw [List.map_cons, List.map_cons, inductionHypothesis later]

theorem entries_insert_of_notMem [DecidableEq κ] (fresh : key ∉ dict.keys) (value : ν) :
    (dict.insert key value).entries = dict.entries ++ [(key, value)] := by
  rcases dict with ⟨entries, nodupKeys⟩
  change key ∉ entries.map Prod.fst at fresh
  change Dict.insertEntries key value entries = entries ++ [(key, value)]
  clear nodupKeys
  induction entries with
  | nil => rfl
  | cons entry rest inductionHypothesis =>
      rw [List.map_cons, List.mem_cons, not_or] at fresh
      rw [Dict.insertEntries, if_neg (Ne.symm fresh.1), inductionHypothesis fresh.2]
      rfl

/-- A column that takes an element in holds it besides its own. -/
theorem flatMap_insertEntries_perm [DecidableEq κ] (key : κ) (item : α)
    (entries : List (κ × List α)) :
    ((Dict.insertEntries key ((Dict.lookupEntries key entries).getD [] ++ [item])
      entries).flatMap Prod.snd).Perm (entries.flatMap Prod.snd ++ [item]) := by
  induction entries with
  | nil => exact .refl _
  | cons entry rest inductionHypothesis =>
      rw [Dict.insertEntries, Dict.lookupEntries]
      split
      · simp only [List.flatMap_cons, Option.getD_some, List.append_assoc]
        exact List.perm_append_comm.append_left _
      · simp only [List.flatMap_cons, List.append_assoc]
        exact inductionHypothesis.append_left _

variable {specs unified : KVCacheSpecs} {groups single : List KVCacheGroupSpec} {bucket : Bucket}
  {repeatsPerGroup : Option Nat} {cacheConfig : CacheConfig}

theorem updateSpecs_spec {updated : KVCacheSpecs} {change : LayerSpec → Except PyError LayerSpec}
    (ran : updateSpecs specs change = .ok updated) :
    updated.keys = specs.keys ∧ ∀ name spec, specs.get? name = some spec →
      ∃ unified, updated.get? name = some unified ∧ change spec = .ok unified := by
  have rule := foldlM_rule
    (fun (rest : List (String × LayerSpec)) (updated : KVCacheSpecs) =>
      ∃ done, done ++ rest = specs.entries ∧ updated.keys = specs.keys ∧
        ∀ entry ∈ done, ∃ unified, updated.get? entry.1 = some unified ∧
          change entry.2 = .ok unified) ?_
    ⟨[], rfl, rfl, fun _ member => absurd member List.not_mem_nil⟩ ran
  · rcases rule with ⟨done, all, keys, changed⟩
    rw [List.append_nil] at all
    refine ⟨keys, fun name spec found => ?_⟩
    exact changed (name, spec) (all ▸ (Dict.get?_eq_some_iff specs name spec).mp found)
  · rintro entry rest state next ⟨done, all, keys, changed⟩ round
    rcases bind_eq_ok.mp round with ⟨unified, changes, inserted⟩
    cases inserted
    have distinct := specs.nodupKeys
    rw [← all, List.map_append, List.map_cons] at distinct
    refine ⟨done ++ [entry], by rw [List.append_assoc]; exact all, ?_, ?_⟩
    · rw [keys_insert_of_mem _ unified, keys]
      rw [keys, Dict.keys, ← all, List.map_append, List.map_cons]
      exact List.mem_append_right _ List.mem_cons_self
    · intro other member
      rcases List.mem_append.mp member with earlier | here
      · rcases changed other earlier with ⟨before, found, same⟩
        refine ⟨before, ?_, same⟩
        rw [Dict.get?_insert_of_ne, found]
        intro clash
        exact (List.nodup_append.mp distinct).2.2 other.1 (List.mem_map_of_mem earlier) entry.1
          List.mem_cons_self clash.symm
      · rw [List.mem_singleton.mp here]
        exact ⟨unified, Dict.get?_insert_self .., changes⟩

/-- Layers that are selected in order stand in that order. -/
theorem selectSpecs_spec {selected : KVCacheSpecs} (distinct : names.Nodup)
    (ran : selectSpecs specs names = .ok selected) :
    selected.keys = names ∧ ∀ name ∈ names, selected.get? name = specs.get? name := by
  have rule := foldlM_rule
    (fun (rest : List String) (selected : KVCacheSpecs) =>
      selected.keys ++ rest = names ∧
        ∀ name ∈ selected.keys, selected.get? name = specs.get? name) ?_
    ⟨rfl, fun _ member => absurd member List.not_mem_nil⟩ ran
  · rcases rule with ⟨keys, same⟩
    rw [List.append_nil] at keys
    exact ⟨keys, keys ▸ same⟩
  · rintro name rest state next ⟨keys, same⟩ round
    split at round
    · rename_i spec found
      cases round
      have fresh : name ∉ state.keys := by
        intro member
        rw [← keys] at distinct
        exact (List.nodup_append.mp distinct).2.2 name member name List.mem_cons_self rfl
      have grown : (state.insert name spec).keys = state.keys ++ [name] := by
        rw [Dict.keys, entries_insert_of_notMem fresh, List.map_append]
        rfl
      constructor
      · rw [grown, List.append_assoc]
        exact keys
      · intro other member
        rw [grown] at member
        rcases List.mem_append.mp member with earlier | here
        · rw [Dict.get?_insert_of_ne, same other earlier]
          rintro rfl
          exact fresh earlier
        · rw [List.mem_singleton.mp here, Dict.get?_insert_self, found]
    · cases round

/-! ## Groups -/

/-- The layers of a group go together: their specifications merge into that of the group,
or they are of one uniform type, or the group is one hidden-state layer. -/
inductive KVCacheGroupSpec.Alike (unified : String → Option LayerSpec) :
    KVCacheGroupSpec → Prop
  | merged {layerNames : List String} {layerSpecs : List LayerSpec} {spec : LayerSpec}
      (named : List.Forall₂ (fun name layerSpec => unified name = some layerSpec) layerNames
        layerSpecs)
      (merges : mergeSpecs layerSpecs = .ok spec) : Alike unified ⟨layerNames, .layer spec⟩
  | uniform {own : KVCacheSpecs} {blockSize : Nat}
      (named : ∀ name ∈ own.keys, own.get? name = unified name)
      (typed : isUniformType own = .ok true) : Alike unified ⟨own.keys, .uniformType blockSize own⟩
  | hidden {name : String} {layerSpec spec : LayerSpec} (named : unified name = some layerSpec)
      (hides : layerSpec.isHiddenState = true) : Alike unified ⟨[name], .layer spec⟩

theorem KVCacheGroupSpec.Alike.mono {unified other : String → Option LayerSpec}
    (alike : group.Alike unified)
    (known : ∀ name ∈ group.layerNames, ∀ spec, unified name = some spec →
      other name = some spec) : group.Alike other := by
  cases alike with
  | @merged layerNames layerSpecs spec named merges =>
      refine .merged ?_ merges
      clear merges
      induction named with
      | nil => exact .nil
      | cons first _ inductionHypothesis =>
          exact .cons (known _ List.mem_cons_self _ first)
            (inductionHypothesis fun name member => known name (.tail _ member))
  | @uniform own blockSize named typed =>
      refine .uniform (fun name member => ?_) typed
      rcases List.mem_map.mp member with ⟨⟨_, spec⟩, here, rfl⟩
      have found := (Dict.get?_eq_some_iff own _ spec).mpr here
      rw [found, known _ member spec (by rw [← named _ member, found])]
  | hidden named hides =>
      exact .hidden (known _ List.mem_cons_self _ named) hides

/-- The names of all layers of some groups. -/
def layerNamesOf (groups : List KVCacheGroupSpec) : List String :=
  groups.flatMap (·.layerNames)

theorem layerNamesOf_mapM {make : α → Except PyError KVCacheGroupSpec} {names : α → List String}
    {items : List α} (ran : items.mapM make = .ok groups)
    (made : ∀ item ∈ items, ∀ group, make item = .ok group → group.layerNames = names item) :
    layerNamesOf groups = items.flatMap names := by
  have each := mapM_eq_ok ran
  clear ran
  induction each with
  | nil => rfl
  | cons first _ inductionHypothesis =>
      rw [List.forall_mem_cons] at made
      rw [layerNamesOf, List.flatMap_cons, List.flatMap_cons, made.1 _ first]
      congr 1
      exact inductionHypothesis made.2

theorem createKvCacheGroupSpecs_spec {grouped : List (List String)}
    (ran : createKvCacheGroupSpecs specs grouped = .ok groups) :
    groups.map (·.layerNames) = grouped ∧ ∀ group ∈ groups, group.Alike specs.get? := by
  have each := mapM_eq_ok ran
  clear ran
  induction each with
  | nil => exact ⟨rfl, fun _ member => absurd member List.not_mem_nil⟩
  | cons first _ inductionHypothesis =>
      rcases bind_eq_ok.mp first with ⟨layerSpecs, named, rest⟩
      rcases bind_eq_ok.mp rest with ⟨spec, merges, same⟩
      cases same
      rw [List.map_cons, inductionHypothesis.1, List.forall_mem_cons]
      refine ⟨rfl, .merged ?_ merges, inductionHypothesis.2⟩
      apply (mapM_eq_ok named).imp
      intro name layerSpec found
      split at found
      · rename_i spec known
        cases found
        exact known
      · cases found

/-- A uniform type is that of all its layers. -/
theorem fromSpecs_spec (ran : fromSpecs specs = .ok (some groupSpec)) :
    isUniformType specs = .ok true ∧ specs.entries ≠ [] ∧
      ∃ blockSize, groupSpec = .uniformType blockSize specs := by
  rcases bind_eq_ok.mp ran with ⟨typed, uniform, rest⟩
  cases typed with
  | false => cases rest
  | true =>
      simp only [if_true] at rest
      split at rest
      · cases rest
      · rename_i first others listed
        cases rest
        refine ⟨uniform, ?_, _, rfl⟩
        intro empty
        rw [specsOf, empty] at listed
        cases listed

/-- One group of a uniform type. -/
theorem uniformTypeGroups_spec (ran : fromSpecs specs = .ok (some groupSpec)) :
    layerNamesOf (uniformTypeGroups specs groupSpec) = specs.keys ∧
      ∀ group ∈ uniformTypeGroups specs groupSpec, group.Alike specs.get? := by
  rcases fromSpecs_spec ran with ⟨typed, -, blockSize, rfl⟩
  constructor
  · exact List.append_nil _
  · intro group member
    rw [List.mem_singleton.mp member]
    exact .uniform (fun _ _ => rfl) typed

/-! ## Packed groups -/

theorem addToBuckets_perm {after : List KVCacheSpecs}
    (fresh : ∀ bucket ∈ buckets, name ∉ bucket.keys)
    (ran : addToBuckets name spec buckets = .ok after) :
    (after.flatMap (·.entries)).Perm (buckets.flatMap (·.entries) ++ [(name, spec)]) := by
  induction buckets generalizing after with
  | nil =>
      cases ran
      exact .refl _
  | cons bucket rest inductionHypothesis =>
      rw [List.forall_mem_cons] at fresh
      rcases bind_eq_ok.mp ran with ⟨typed, -, ran⟩
      cases typed with
      | true =>
          cases ran
          simp only [List.flatMap_cons, entries_insert_of_notMem fresh.1, List.append_assoc]
          exact List.perm_append_comm.append_left _
      | false =>
          rcases bind_eq_ok.mp ran with ⟨rest', added, same⟩
          cases same
          simp only [List.flatMap_cons, List.append_assoc]
          exact (inductionHypothesis fresh.2 added).append_left _

/-- The buckets hold the layers. -/
theorem buckets_perm
    (ran : specs.entries.foldlM (fun buckets entry => addToBuckets entry.1 entry.2 buckets) [] =
      .ok buckets) : (buckets.flatMap (·.entries)).Perm specs.entries := by
  have rule := foldlM_rule
    (fun (rest : List (String × LayerSpec)) (buckets : List KVCacheSpecs) =>
      (buckets.flatMap (·.entries) ++ rest).Perm specs.entries) ?_ (.refl _) ran
  · rwa [List.append_nil] at rule
  · intro entry rest buckets next held round
    have distinct := (held.map Prod.fst).nodup_iff.mpr specs.nodupKeys
    rw [List.map_append, List.map_cons] at distinct
    have added := addToBuckets_perm (fun bucket member known => ?_) round
    · exact (added.append_right rest).trans (by rw [List.append_assoc]; exact held)
    · apply (List.nodup_append.mp distinct).2.2 entry.1 ?_ entry.1 List.mem_cons_self rfl
      rcases List.mem_map.mp known with ⟨other, inside, same⟩
      rw [← same]
      exact List.mem_map_of_mem (List.mem_flatMap.mpr ⟨bucket, member, inside⟩)

/-- A bucket holds the names of its layers by page size, under one page where all layers
have the same. -/
theorem bucketOf_spec (ran : bucketOf specs = .ok bucket) :
    bucket.specs = specs ∧ fromSpecs specs = .ok (some bucket.groupSpec) ∧
      bucket.columns.flatten.Perm specs.keys ∧
      ∀ page, (∀ spec ∈ specsOf specs, spec.pageSizeBytes = .ok page) →
        bucket.columns.length ≤ 1 := by
  rcases bind_eq_ok.mp ran with ⟨groupSpec, uniform, ran⟩
  cases groupSpec with
  | none => cases ran
  | some groupSpec =>
      rcases bind_eq_ok.mp ran with ⟨layers, paged, same⟩
      cases same
      have rule := foldlM_rule
        (fun (rest : List (String × LayerSpec)) (layers : Dict Nat (List String)) =>
          (layers.entries.flatMap Prod.snd ++ rest.map Prod.fst).Perm specs.keys ∧
            (∀ entry ∈ rest, entry ∈ specs.entries) ∧
            ∀ page, (∀ spec ∈ specsOf specs, spec.pageSizeBytes = .ok page) →
              ∀ key ∈ layers.keys, key = page) ?_
        ⟨.refl _, fun _ member => member, fun _ _ _ member => absurd member List.not_mem_nil⟩ paged
      · rcases rule with ⟨names, -, pages⟩
        refine ⟨rfl, uniform, ?_, ?_⟩
        · rw [List.map_nil, List.append_nil] at names
          rwa [Bucket.columns, ← List.flatMap_def]
        · intro page alike
          have single := pages page alike
          have distinct := layers.nodupKeys
          rcases layers with ⟨entries, nodupKeys⟩
          rcases entries with _ | ⟨first, _ | ⟨second, rest⟩⟩
          · exact Nat.zero_le _
          · exact Nat.le_refl _
          · have clash := (single first.1 List.mem_cons_self).trans
              (single second.1 (.tail _ List.mem_cons_self)).symm
            rw [List.map_cons, List.map_cons, clash] at distinct
            exact absurd List.mem_cons_self (List.nodup_cons.mp distinct).1
      · rintro entry rest layers next ⟨names, inside, pages⟩ round
        rcases bind_eq_ok.mp round with ⟨page, paged, inserted⟩
        cases inserted
        rw [List.forall_mem_cons] at inside
        refine ⟨?_, inside.2, ?_⟩
        · apply ((flatMap_insertEntries_perm page entry.1 layers.entries).append_right _).trans
          rw [List.append_assoc]
          exact names
        · intro common alike key member
          rcases Dict.mem_keys_insert.mp member with rfl | earlier
          · have own := alike entry.2 (List.mem_map_of_mem inside.1)
            rw [own] at paged
            exact (Except.ok.inj paged).symm
          · exact pages common alike key earlier

/-- The layers of a bucket that begins with Mamba layers have one page size. -/
theorem mambaPage_spec {page : Nat} (ran : bucketOf specs = .ok bucket)
    (found : bucket.mambaPage? = .ok (some page)) : bucket.columns.length ≤ 1 := by
  rcases bucketOf_spec ran with ⟨own, uniform, -, single⟩
  rcases fromSpecs_spec uniform with ⟨typed, -, -⟩
  rw [Bucket.mambaPage?, own] at found
  unfold isUniformType at typed
  split at typed
  · cases typed
  · cases listed : specsOf specs with
    | nil =>
        rw [listed] at found
        cases found
    | cons first rest =>
        rw [listed] at found typed
        cases first with
        | attention fields kind => cases found
        | mamba fields =>
            have all (f : LayerSpec → Except PyError Bool) (items : List LayerSpec)
                (held : items.allM f = .ok true) : ∀ item ∈ items, f item = .ok true := by
              induction items with
              | nil => exact fun _ member => absurd member List.not_mem_nil
              | cons item items inductionHypothesis =>
                  rcases bind_eq_ok.mp held with ⟨first, here, held⟩
                  cases first with
                  | false => cases held
                  | true =>
                      rw [List.forall_mem_cons]
                      exact ⟨here, inductionHypothesis held⟩
            have each := all _ _ typed
            rcases map_eq_ok.mp found with ⟨firstPage, paged, -⟩
            apply single firstPage
            intro spec member
            rw [listed] at member
            have here := each spec member
            cases spec with
            | attention fields kind => cases here
            | mamba other =>
                simp only at here
                split at here
                · rcases bind_eq_ok.mp here with ⟨page, otherPage, here⟩
                  rcases bind_eq_ok.mp here with ⟨ownPage, ownPaged, here⟩
                  have same := Except.ok.inj here
                  rw [Bool.and_eq_true, decide_eq_true_eq] at same
                  rw [otherPage, same.1, ← paged, ownPaged]
                · cases here

theorem pyCdiv_spec {numerator denominator quotient : Nat}
    (ran : pyCdiv numerator denominator = .ok quotient) :
    0 < denominator ∧ quotient = cdiv numerator denominator := by
  unfold pyCdiv at ran
  split at ran
  · cases ran
  · rename_i nonzero
    exact ⟨Nat.pos_of_ne_zero nonzero, (Except.ok.inj ran).symm⟩

/-- A bucket is split only where its columns are of one length. -/
theorem numGroupsFor_spec {numGroups : Nat} (ran : bucketOf specs = .ok bucket)
    (counted : bucket.numGroupsFor repeatsPerGroup = .ok numGroups) :
    0 < numGroups ∧ (numGroups = 1 ∨ bucket.balanced = true) := by
  rcases bucketOf_spec ran with ⟨-, uniform, names, -⟩
  rcases fromSpecs_spec uniform with ⟨-, some_, -⟩
  unfold Bucket.numGroupsFor at counted
  split at counted
  · split at counted
    · rename_i even
      refine ⟨?_, .inr even⟩
      rcases pyCdiv_spec counted with ⟨positive, rfl⟩
      rw [lt_cdiv_iff positive, Nat.zero_mul]
      have inhabited : bucket.columns.flatten ≠ [] := by
        intro empty
        rw [empty] at names
        exact some_ (List.map_eq_nil_iff.mp names.symm.eq_nil)
      rcases List.exists_mem_of_ne_nil _ inhabited with ⟨name, member⟩
      rcases List.mem_flatten.mp member with ⟨column, listed, inside⟩
      apply Nat.lt_of_lt_of_le (List.length_pos_of_mem inside)
      exact (foldl_max_spec 0 _).2 _ (List.mem_map_of_mem listed)
    · cases counted
      exact ⟨Nat.one_pos, .inl rfl⟩
  · cases counted
    exact ⟨Nat.one_pos, .inl rfl⟩

theorem even_of_balanced (balanced : bucket.balanced = true) :
    ∃ length, ∀ column ∈ bucket.columns, column.length = length := by
  rw [Bucket.balanced, oneValue, decide_eq_true_eq, List.length_eq_one_iff] at balanced
  rcases balanced with ⟨length, single⟩
  refine ⟨length, fun column member => ?_⟩
  have listed : column.length ∈ (bucket.columns.map List.length).dedup :=
    List.mem_dedup.mpr (List.mem_map_of_mem member)
  rw [single] at listed
  exact List.mem_singleton.mp listed

theorem even_of_single {columns : List (List String)} (single : columns.length ≤ 1) :
    ∃ length, ∀ column ∈ columns, column.length = length := by
  rcases columns with _ | ⟨first, _ | ⟨second, rest⟩⟩
  · exact ⟨0, fun _ member => absurd member List.not_mem_nil⟩
  · exact ⟨first.length, fun column member => by rw [List.mem_singleton.mp member]⟩
  · exact absurd single (by simp)

/-- A group that is made of its share of the layers. -/
theorem dealtGroup_spec (distinct : names.Nodup) (ran : (do
      let groupLayerSpecs ← selectSpecs specs names
      match ← fromSpecs groupLayerSpecs with
      | some groupSpec => pure (⟨names, groupSpec⟩ : KVCacheGroupSpec)
      | none => .error .assertionError) = .ok group) :
    group.layerNames = names ∧ group.Alike specs.get? := by
  rcases bind_eq_ok.mp ran with ⟨selected, chosen, ran⟩
  rcases bind_eq_ok.mp ran with ⟨groupSpec, typed, ran⟩
  cases groupSpec with
  | none => cases ran
  | some groupSpec =>
      cases ran
      rcases fromSpecs_spec typed with ⟨uniformOwn, -, blockSize, rfl⟩
      rcases selectSpecs_spec distinct chosen with ⟨keys, same⟩
      rw [← keys] at same
      refine ⟨rfl, ?_⟩
      have alike : KVCacheGroupSpec.Alike specs.get? ⟨selected.keys, .uniformType blockSize
        selected⟩ := .uniform same uniformOwn
      rwa [keys] at alike

/-- The groups of a bucket hold its layers. -/
theorem bucketGroups_spec (ran : bucketOf specs = .ok bucket)
    (grouped : bucketGroups repeatsPerGroup anchorBytes bucket = .ok groups) :
    (layerNamesOf groups).Perm specs.keys ∧ ∀ group ∈ groups, group.Alike specs.get? := by
  rcases bucketOf_spec ran with ⟨own, uniform, names, -⟩
  rcases bind_eq_ok.mp grouped with ⟨planned, counted, grouped⟩
  rcases bind_eq_ok.mp grouped with ⟨numGroups, capped, grouped⟩
  rcases numGroupsFor_spec ran counted with ⟨positive, whole⟩
  have shares : 0 < numGroups ∧ (numGroups = 1 ∨
      ∃ length, ∀ column ∈ bucket.columns, column.length = length) := by
    rcases bind_eq_ok.mp capped with ⟨mamba, paged, capped⟩
    cases mamba with
    | none =>
        cases capped
        exact ⟨positive, whole.imp_right even_of_balanced⟩
    | some page =>
        refine ⟨?_, .inr (even_of_single (mambaPage_spec ran paged))⟩
        dsimp only at capped
        split at capped
        · cases capped
          exact positive
        · rcases bind_eq_ok.mp capped with ⟨states, -, capped⟩
          rcases bind_eq_ok.mp capped with ⟨parts, -, same⟩
          cases same
          exact Nat.lt_of_lt_of_le positive (Nat.le_max_left _ _)
  rw [own] at grouped
  by_cases single : numGroups = 1
  · rw [if_pos single] at grouped
    cases grouped
    have alone := uniformTypeGroups_spec uniform
    exact ⟨.of_eq alone.1, alone.2⟩
  · rw [if_neg single] at grouped
    rcases shares.2.resolve_left single with ⟨length, even⟩
    have dealt : ((List.range numGroups).flatMap fun i =>
        (stridedSlice i numGroups (zipRows bucket.columns)).flatten).Perm specs.keys := by
      have joined : (List.range numGroups).flatMap (fun i =>
          (stridedSlice i numGroups (zipRows bucket.columns)).flatten) =
          ((List.range numGroups).flatMap fun i =>
            stridedSlice i numGroups (zipRows bucket.columns)).flatten := by
        rw [List.flatMap_def, List.flatMap_def, List.flatten_flatten, List.map_map]
        rfl
      rw [joined]
      exact ((stridedSlices_perm shares.1 _).flatten.trans (zipRows_perm even)).trans names
    have distinct := dealt.nodup_iff.mpr specs.nodupKeys
    rw [List.nodup_flatMap] at distinct
    constructor
    · rw [layerNamesOf_mapM grouped fun i member group ran =>
        (dealtGroup_spec (distinct.1 i member) ran).1]
      exact dealt
    · intro group member
      rcases (forall₂_mem (mapM_eq_ok grouped)).2 group member with ⟨i, inside, ran⟩
      exact (dealtGroup_spec (distinct.1 i inside) ran).2

/-- The groups of all buckets hold their layers. -/
theorem groups_of_buckets {bucketed : List Bucket} {parts : List (List KVCacheGroupSpec)}
    (paged : List.Forall₂ (fun specs bucket => bucketOf specs = .ok bucket) buckets bucketed)
    (grouped : List.Forall₂ (fun bucket groups =>
      bucketGroups repeatsPerGroup anchorBytes bucket = .ok groups) bucketed parts) :
    (layerNamesOf parts.flatten).Perm (buckets.flatMap (·.keys)) ∧
      ∀ group ∈ parts.flatten, ∃ bucket ∈ buckets, group.Alike bucket.get? ∧
        ∀ name ∈ group.layerNames, name ∈ bucket.keys := by
  induction paged generalizing parts with
  | nil =>
      cases grouped
      exact ⟨.refl _, fun _ member => absurd member List.not_mem_nil⟩
  | cons first _ inductionHypothesis =>
      cases grouped with
      | cons made rest =>
          rcases inductionHypothesis rest with ⟨names, alike⟩
          rcases bucketGroups_spec first made with ⟨own, ownAlike⟩
          constructor
          · rw [List.flatten_cons, layerNamesOf, List.flatMap_append, List.flatMap_cons]
            exact own.append names
          · intro group member
            rcases List.mem_append.mp member with here | later
            · refine ⟨_, List.mem_cons_self, ownAlike group here, fun name listed => ?_⟩
              exact own.subset (List.mem_flatMap.mpr ⟨group, here, listed⟩)
            · rcases alike group later with ⟨bucket, inside, fits⟩
              exact ⟨bucket, .tail _ inside, fits⟩

/-- The packed groups hold the layers. -/
theorem getPackedKvCacheGroups_spec
    (ran : getPackedKvCacheGroups cacheConfig specs = .ok (some groups)) :
    (layerNamesOf groups).Perm specs.keys ∧ ∀ group ∈ groups, group.Alike specs.get? := by
  rcases bind_eq_ok.mp ran with ⟨layout, -, ran⟩
  rcases bind_eq_ok.mp ran with ⟨pageSizes, -, ran⟩
  split at ran
  · cases ran
  rcases bind_eq_ok.mp ran with ⟨buckets, filled, ran⟩
  rcases bind_eq_ok.mp ran with ⟨bucketed, paged, ran⟩
  rcases bind_eq_ok.mp ran with ⟨repeatsPerGroup, -, ran⟩
  rcases bind_eq_ok.mp ran with ⟨widest, -, ran⟩
  rcases bind_eq_ok.mp ran with ⟨parts, grouped, ran⟩
  cases ran
  have held := buckets_perm filled
  have known : ∀ bucket ∈ buckets, ∀ name ∈ bucket.keys, bucket.get? name = specs.get? name := by
    intro bucket member name listed
    rcases List.mem_map.mp listed with ⟨⟨_, spec⟩, here, rfl⟩
    rw [(Dict.get?_eq_some_iff bucket _ spec).mpr here]
    symm
    apply (Dict.get?_eq_some_iff specs _ spec).mpr
    exact held.subset (List.mem_flatMap.mpr ⟨bucket, member, here⟩)
  have parted := groups_of_buckets (mapM_eq_ok paged) (mapM_eq_ok grouped)
  constructor
  · apply parted.1.trans
    have names := held.map Prod.fst
    rwa [List.map_flatMap] at names
  · intro group member
    rcases parted.2 group member with ⟨bucket, inside, alike, listed⟩
    exact alike.mono fun name here spec found => by
      rw [← known bucket inside name (listed name here)]
      exact found

/-! ## Groups of one page size -/

/-- Layers of one page size. -/
def OnePage (specs : KVCacheSpecs) : Prop :=
  ∃ page, ∀ name spec, specs.get? name = some spec → spec.pageSizeBytes = .ok page

/-- `unify_kv_cache_spec_page_size` keeps the layers and leaves one page size. -/
theorem unifyKvCacheSpecPageSize_spec (ran : unifyKvCacheSpecPageSize specs = .ok unified) :
    unified.keys = specs.keys ∧ OnePage unified ∧ ∀ name spec, specs.get? name = some spec →
      ∃ adapted, unified.get? name = some adapted ∧
        (adapted = spec ∨ ∃ page, unifyPage page spec = .ok adapted) := by
  rcases bind_eq_ok.mp ran with ⟨pages, paged, ran⟩
  split at ran
  · rename_i single
    cases ran
    refine ⟨rfl, ?_, fun name spec found => ⟨spec, found, .inl rfl⟩⟩
    have each := forall₂_mem (mapM_eq_ok paged)
    have same : ∀ first ∈ pages, ∀ second ∈ pages, first = second := by
      intro first member second member'
      have listed := List.mem_dedup.mpr member
      have listed' := List.mem_dedup.mpr member'
      generalize pages.dedup = distinct at single listed listed'
      rcases distinct with _ | ⟨only, _ | ⟨other, rest⟩⟩
      · cases listed
      · rw [List.mem_singleton.mp listed, List.mem_singleton.mp listed']
      · exact absurd single (by simp)
    refine ⟨pages.headD 0, fun name spec found => ?_⟩
    rcases each.1 spec (List.mem_map_of_mem ((Dict.get?_eq_some_iff specs name spec).mp found))
      with ⟨page, member, own⟩
    rw [own]
    cases pages with
    | nil => cases member
    | cons first rest => rw [same page member first List.mem_cons_self]; rfl
  · rcases updateSpecs_spec ran with ⟨keys, changed⟩
    refine ⟨keys, ⟨pages.foldl max 0, fun name spec found => ?_⟩, fun name spec found => ?_⟩
    · have listed : name ∈ specs.keys := by
        rw [← keys]
        exact List.mem_map_of_mem ((Dict.get?_eq_some_iff unified name spec).mp found)
      rcases List.mem_map.mp listed with ⟨⟨_, before⟩, here, rfl⟩
      rcases changed _ before ((Dict.get?_eq_some_iff specs _ before).mpr here) with
        ⟨adapted, found', change⟩
      rw [found] at found'
      cases found'
      rcases bind_eq_ok.mp change with ⟨page, own, change⟩
      split at change
      · rename_i largest
        cases change
        rw [own, largest]
      · rcases bind_eq_ok.mp change with ⟨enlarged, -, change⟩
        rcases bind_eq_ok.mp change with ⟨page, paged, change⟩
        rcases bind_eq_ok.mp change with ⟨_, same, change⟩
        cases change
        rw [paged, pyAssert_eq_ok.mp same]
    · rcases changed name spec found with ⟨adapted, found', change⟩
      exact ⟨adapted, found', .inr ⟨_, change⟩⟩

theorem addToLayerBuckets_perm {layerNames : List String}
    {buckets after : List (List String × List LayerSpec)}
    (ran : addToLayerBuckets spec layerNames buckets = .ok after) :
    (after.flatMap Prod.fst).Perm (buckets.flatMap Prod.fst ++ layerNames) := by
  induction buckets generalizing after with
  | nil =>
      cases ran
      exact .of_eq (List.append_nil _)
  | cons bucket rest inductionHypothesis =>
      rw [addToLayerBuckets] at ran
      split at ran
      · cases ran
        simp only [List.flatMap_cons, List.append_assoc]
        exact List.perm_append_comm.append_left _
      · split at ran
        · rcases bind_eq_ok.mp ran with ⟨rest', added, same⟩
          cases same
          simp only [List.flatMap_cons, List.append_assoc]
          exact (inductionHypothesis added).append_left _
        · rcases bind_eq_ok.mp ran with ⟨rest', added, same⟩
          cases same
          simp only [List.flatMap_cons, List.append_assoc]
          exact (inductionHypothesis added).append_left _
        · cases ran

theorem layerBucketsOf_perm {buckets : List (List String × List LayerSpec)}
    (ran : layerBucketsOf specs = .ok buckets) : (buckets.flatMap Prod.fst).Perm specs.keys := by
  have same := (flatEntries_foldl specs.entries Dict.empty).map Prod.fst
  have rule := foldlM_rule
    (fun (rest : List (LayerSpec × List String)) (buckets : List (List String × List LayerSpec)) =>
      (buckets.flatMap Prod.fst ++ rest.flatMap Prod.snd).Perm specs.keys) ?_ ?_ ran
  · rwa [List.flatMap_nil, List.append_nil] at rule
  · intro entry rest buckets next held round
    apply ((addToLayerBuckets_perm round).append_right _).trans
    rw [List.append_assoc]
    exact held
  · rw [List.flatMap_nil, List.nil_append]
    simpa [flatEntries, List.map_flatMap, Function.comp_def, Dict.empty, Dict.keys] using same

/-- The buckets are dealt out into groups of at most the common size. -/
theorem dealtBuckets_spec {buckets : List (List String × List LayerSpec)} {groupSize : Nat}
    {grouped : List (List (List String))}
    (dealt : List.Forall₂ (fun (bucket : List String × List LayerSpec) parts => (do
      let numGroups ← pyCdiv bucket.1.length groupSize
      pure ((List.range numGroups).map fun i => stridedSlice i numGroups bucket.1)) =
        Except.ok parts) buckets grouped) :
    (grouped.flatten.flatten).Perm (buckets.flatMap Prod.fst) ∧
      ∀ names ∈ grouped.flatten, names.length ≤ groupSize := by
  induction dealt with
  | nil => exact ⟨.refl _, fun _ member => absurd member List.not_mem_nil⟩
  | @cons bucket _ _ _ first _ inductionHypothesis =>
      rcases bind_eq_ok.mp first with ⟨numGroups, counted, same⟩
      cases same
      rcases pyCdiv_spec counted with ⟨positive, rfl⟩
      rw [List.flatten_cons, List.flatten_append, List.flatMap_cons, List.forall_mem_append]
      refine ⟨List.Perm.append ?_ inductionHypothesis.1, ?_, inductionHypothesis.2⟩
      · rw [← List.flatMap_def]
        rcases eq_or_ne bucket.1 [] with empty | some_
        · rw [empty]
          simp [cdiv, stridedSlice]
        · apply stridedSlices_perm
          rw [lt_cdiv_iff positive, Nat.zero_mul]
          exact List.length_pos_iff.mpr some_
      · intro names member
        rcases List.mem_map.mp member with ⟨start, inside, rfl⟩
        exact length_stridedSlice_le (List.mem_range.mp inside) (le_cdiv_mul positive _)

/-- The groups hold the layers, each at most as many as the common size. -/
theorem getKvCacheGroupsUniformPageSize_spec
    (ran : getKvCacheGroupsUniformPageSize specs = .ok groups) :
    (layerNamesOf groups).Perm specs.keys ∧ (∀ group ∈ groups, group.Alike specs.get?) ∧
      ∃ buckets groupSize, layerBucketsOf specs = .ok buckets ∧
        commonGroupSize (buckets.map (·.1.length)) = .ok groupSize ∧
        ∀ group ∈ groups, group.layerNames.length ≤ groupSize := by
  rcases bind_eq_ok.mp ran with ⟨buckets, bucketed, ran⟩
  rcases bind_eq_ok.mp ran with ⟨groupSize, sized, ran⟩
  rcases bind_eq_ok.mp ran with ⟨grouped, dealt, ran⟩
  rcases createKvCacheGroupSpecs_spec ran with ⟨names, alike⟩
  have shares := dealtBuckets_spec (mapM_eq_ok dealt)
  refine ⟨?_, alike, buckets, groupSize, bucketed, sized, ?_⟩
  · rw [layerNamesOf, List.flatMap_def, names]
    exact shares.1.trans (layerBucketsOf_perm bucketed)
  · intro group member
    apply shares.2
    rw [← names]
    exact List.mem_map_of_mem member

/-! ## All strategies -/

/-- A specification is promoted, or gets a larger page. -/
def Adapts (spec adapted : LayerSpec) : Prop :=
  (∃ blockSize, promoteSpec blockSize spec = .ok adapted) ∨
    ∃ page, unifyPage page spec = .ok adapted

/-- The layers with specifications that come from their own. -/
def Adaptation (specs : KVCacheSpecs) (unified : String → Option LayerSpec) : Prop :=
  ∀ name spec, specs.get? name = some spec →
    ∃ adapted, unified name = some adapted ∧ Relation.ReflTransGen Adapts spec adapted

theorem Adaptation.refl (specs : KVCacheSpecs) : Adaptation specs specs.get? :=
  fun _ spec found => ⟨spec, found, .refl⟩

theorem Adaptation.trans {middle : KVCacheSpecs} {unified : String → Option LayerSpec}
    (first : Adaptation specs middle.get?) (second : Adaptation middle unified) :
    Adaptation specs unified := by
  intro name spec found
  rcases first name spec found with ⟨between, found, before⟩
  rcases second name between found with ⟨adapted, found, after⟩
  exact ⟨adapted, found, before.trans after⟩

/-- Each layer is in exactly one of the groups, and the layers of a group go together. -/
structure Partitioned (specs : KVCacheSpecs) (groups : List KVCacheGroupSpec) : Prop where
  layers : (layerNamesOf groups).Perm specs.keys
  alike : ∃ unified, Adaptation specs unified ∧ ∀ group ∈ groups, group.Alike unified

theorem Partitioned.adapt (partitioned : Partitioned unified groups)
    (keys : unified.keys = specs.keys) (adapted : Adaptation specs unified.get?) :
    Partitioned specs groups where
  layers := keys ▸ partitioned.layers
  alike := by
    rcases partitioned.alike with ⟨lookup, further, alike⟩
    exact ⟨lookup, adapted.trans further, alike⟩

theorem promoteLocalKvCacheSpecs_spec {promoted : KVCacheSpecs}
    (ran : promoteLocalKvCacheSpecs specs = .ok promoted) :
    promoted.keys = specs.keys ∧ Adaptation specs promoted.get? := by
  rcases bind_eq_ok.mp ran with ⟨already, -, ran⟩
  cases already with
  | true =>
      cases ran
      exact ⟨rfl, .refl specs⟩
  | false =>
      rcases bind_eq_ok.mp ran with ⟨changed, updated, ran⟩
      rcases bind_eq_ok.mp ran with ⟨whole, -, ran⟩
      cases whole with
      | false => cases ran
      | true =>
          cases ran
          unfold promotedSpecs at updated
          dsimp only at updated
          split at updated
          · rcases updateSpecs_spec updated with ⟨keys, each⟩
            refine ⟨keys, fun name spec found => ?_⟩
            rcases each name spec found with ⟨adapted, found, change⟩
            exact ⟨adapted, found, .single (.inl ⟨_, change⟩)⟩
          · cases updated
            exact ⟨rfl, .refl specs⟩

theorem unifyHybridKvCacheSpecs_spec (ran : unifyHybridKvCacheSpecs specs = .ok unified) :
    unified.keys = specs.keys ∧ Adaptation specs unified.get? := by
  rcases bind_eq_ok.mp ran with ⟨already, -, ran⟩
  cases already with
  | true =>
      cases ran
      exact ⟨rfl, .refl specs⟩
  | false => exact promoteLocalKvCacheSpecs_spec ran

theorem tryGetFullAllocationFallbackGroups_spec
    (ran : tryGetFullAllocationFallbackGroups specs = .ok (some groups)) :
    Partitioned specs groups := by
  unfold tryGetFullAllocationFallbackGroups at ran
  dsimp only at ran
  split at ran
  · cases ran
  split at ran
  · cases ran
  split at ran
  · cases ran
  split at ran
  · cases ran
  · cases ran
  · rename_i promoted promotes
    rcases bind_eq_ok.mp ran with ⟨groupSpec, uniform, ran⟩
    cases groupSpec with
    | none => cases ran
    | some groupSpec =>
        cases ran
        rcases promoteLocalKvCacheSpecs_spec promotes with ⟨keys, adapted⟩
        rcases uniformTypeGroups_spec uniform with ⟨names, alike⟩
        have partitioned : Partitioned promoted _ :=
          ⟨.of_eq names, promoted.get?, .refl promoted, alike⟩
        exact partitioned.adapt keys adapted

theorem filterSpecs_get? {keep : LayerSpec → Bool} :
    (filterSpecs specs keep).get? name = some spec ↔
      specs.get? name = some spec ∧ keep spec = true := by
  rw [Dict.get?_eq_some_iff, Dict.get?_eq_some_iff]
  exact List.mem_filter

/-- The hidden-state layers and the other ones are all layers. -/
theorem filterSpecs_perm (specs : KVCacheSpecs) (keep : LayerSpec → Bool) :
    ((filterSpecs specs (!keep ·)).keys ++ (filterSpecs specs keep).keys).Perm specs.keys := by
  have parts := (List.filter_append_perm (fun entry : String × LayerSpec => keep entry.2)
    specs.entries).map Prod.fst
  rw [List.map_append] at parts
  exact List.perm_append_comm.trans parts

/-- The other layers in their groups, and each hidden-state layer alone. -/
theorem partitioned_hidden (keys : unified.keys = (filterSpecs specs (!·.isHiddenState)).keys)
    (adapted : Adaptation (filterSpecs specs (!·.isHiddenState)) unified.get?)
    (names : (layerNamesOf groups).Perm unified.keys)
    (alike : ∀ group ∈ groups, group.Alike unified.get?)
    (alone : layerNamesOf single = (filterSpecs specs (·.isHiddenState)).keys)
    (hidden : ∀ group ∈ single, ∃ name spec, group = ⟨[name], .layer spec⟩) :
    Partitioned specs (groups ++ single) := by
  have absent : ∀ name spec, specs.get? name = some spec → spec.isHiddenState = true →
      unified.get? name = none := by
    intro name spec found hides
    rw [Dict.get?_eq_none_iff, keys]
    intro listed
    rcases List.mem_map.mp listed with ⟨⟨_, other⟩, member, rfl⟩
    rcases filterSpecs_get?.mp ((Dict.get?_eq_some_iff _ _ _).mpr member) with ⟨same, shows⟩
    rw [found] at same
    cases same
    rw [hides] at shows
    cases shows
  constructor
  · rw [layerNamesOf, List.flatMap_append]
    apply (names.append (.of_eq alone)).trans
    rw [keys]
    exact filterSpecs_perm specs _
  · refine ⟨fun name => (unified.get? name).or ((filterSpecs specs (·.isHiddenState)).get? name),
      ?_, ?_⟩
    · intro name spec found
      dsimp only
      by_cases hides : spec.isHiddenState = true
      · refine ⟨spec, ?_, .refl⟩
        rw [absent name spec found hides, Option.none_or, filterSpecs_get?.mpr ⟨found, hides⟩]
      · rcases adapted name spec (filterSpecs_get?.mpr ⟨found, by simp [hides]⟩) with
          ⟨other, found, steps⟩
        exact ⟨other, by rw [found, Option.some_or], steps⟩
    · intro group member
      rcases List.mem_append.mp member with here | there
      · exact (alike group here).mono fun name _ spec found => by rw [found, Option.some_or]
      · rcases hidden group there with ⟨name, spec, rfl⟩
        have listed : name ∈ layerNamesOf single :=
          List.mem_flatMap.mpr ⟨_, there, List.mem_singleton_self name⟩
        rw [alone] at listed
        rcases List.mem_map.mp listed with ⟨⟨_, own⟩, inside, rfl⟩
        have found := (Dict.get?_eq_some_iff _ _ own).mpr inside
        rcases filterSpecs_get?.mp found with ⟨known, hides⟩
        refine .hidden ?_ hides
        rw [absent _ own known hides, Option.none_or, found]

/-- The hidden-state layers get groups of their own. -/
theorem hiddenGroups_spec {hidden : KVCacheSpecs} (ran : hiddenGroups hidden groups = .ok single) :
    layerNamesOf single = hidden.keys ∧
      ∀ group ∈ single, ∃ name spec, group = ⟨[name], .layer spec⟩ := by
  unfold hiddenGroups at ran
  split at ran
  · rename_i empty
    cases ran
    rw [Dict.keys, empty]
    exact ⟨rfl, fun _ member => absurd member List.not_mem_nil⟩
  · rcases bind_eq_ok.mp ran with ⟨pages, -, ran⟩
    rcases bind_eq_ok.mp ran with ⟨_, -, ran⟩
    rcases bind_eq_ok.mp ran with ⟨commonPage, -, ran⟩
    have made : ∀ entry ∈ hidden.entries, ∀ group, hiddenGroup
        (((groups.filterMap (·.kvCacheSpec.layer?)).map (·.blockSize)).foldl Nat.gcd 0) commonPage
          entry = .ok group → ∃ spec, group = ⟨[entry.1], .layer spec⟩ := by
      intro entry _ group ran
      unfold hiddenGroup at ran
      split at ran
      · rcases bind_eq_ok.mp ran with ⟨_, -, ran⟩
        rcases bind_eq_ok.mp ran with ⟨_, -, ran⟩
        cases ran
        exact ⟨_, rfl⟩
      · cases ran
    constructor
    · have single := layerNamesOf_mapM ran fun entry member group ran => by
        rcases made entry member group ran with ⟨spec, rfl⟩
        exact (rfl : [entry.1] = (fun entry : String × LayerSpec => [entry.1]) entry)
      rw [single, ← List.map_eq_flatMap]
      rfl
    · intro group member
      rcases (forall₂_mem (mapM_eq_ok ran)).2 group member with ⟨entry, inside, ran⟩
      rcases made entry inside group ran with ⟨spec, same⟩
      exact ⟨entry.1, spec, same⟩

theorem mixedKvCacheGroups_partitioned (ran : mixedKvCacheGroups cacheConfig specs = .ok groups) :
    Partitioned specs groups := by
  rcases bind_eq_ok.mp ran with ⟨packed, packs, ran⟩
  split at ran
  · rename_i group others
    cases ran
    rcases getPackedKvCacheGroups_spec packs with ⟨names, alike⟩
    refine partitioned_hidden rfl (.refl _) names alike ?_ ?_
    · rw [layerNamesOf, List.flatMap_map, ← List.map_eq_flatMap]
      rfl
    · intro group member
      rcases List.mem_map.mp member with ⟨entry, -, rfl⟩
      exact ⟨entry.1, entry.2, rfl⟩
  · split at ran
    · rcases bind_eq_ok.mp ran with ⟨fallback, falls, ran⟩
      cases fallback with
      | none => cases ran
      | some fallback =>
          cases ran
          exact tryGetFullAllocationFallbackGroups_spec falls
    · cases ran
    · rename_i unified unifies
      rcases bind_eq_ok.mp ran with ⟨paged, pages, ran⟩
      rcases bind_eq_ok.mp ran with ⟨aligned, aligns, ran⟩
      cases ran
      rcases unifyKvCacheSpecPageSize_spec unifies with ⟨keys, -, adapted⟩
      rcases getKvCacheGroupsUniformPageSize_spec pages with ⟨names, alike, -⟩
      rcases hiddenGroups_spec aligns with ⟨alone, hidden⟩
      refine partitioned_hidden keys ?_ names alike alone hidden
      intro name spec found
      rcases adapted name spec found with ⟨other, found, same | larger⟩
      · exact ⟨other, found, same ▸ .refl⟩
      · exact ⟨other, found, .single (.inr larger)⟩

theorem groupKvCacheSpecs_partitioned (ran : groupKvCacheSpecs cacheConfig specs = .ok groups) :
    Partitioned specs groups := by
  unfold groupKvCacheSpecs at ran
  split at ran
  · rename_i empty
    cases ran
    refine ⟨?_, specs.get?, .refl specs, fun _ member => absurd member List.not_mem_nil⟩
    rw [Dict.keys, empty]
    exact .refl _
  · rcases bind_eq_ok.mp ran with ⟨uniform, -, ran⟩
    cases uniform with
    | true =>
        rcases createKvCacheGroupSpecs_spec ran with ⟨names, alike⟩
        refine ⟨?_, specs.get?, .refl specs, alike⟩
        rw [layerNamesOf, List.flatMap_def, names]
        exact .of_eq (List.append_nil _)
    | false =>
        rcases bind_eq_ok.mp ran with ⟨groupSpec, typed, ran⟩
        cases groupSpec with
        | some groupSpec =>
            cases ran
            rcases uniformTypeGroups_spec typed with ⟨names, alike⟩
            exact ⟨.of_eq names, specs.get?, .refl specs, alike⟩
        | none => exact mixedKvCacheGroups_partitioned ran

/-- Whatever strategy makes the groups, each layer is in exactly one of them and the layers
of a group go together; groups of one page size have at most the common number of
layers. -/
theorem getKvCacheGroups_partitioned (disableHybridKvCacheManager : Bool)
    (cacheConfig : CacheConfig) (specs : KVCacheSpecs) :
    (∀ groups, getKvCacheGroups disableHybridKvCacheManager cacheConfig specs = .ok groups →
      Partitioned specs groups) ∧
    ∀ unified groups, unifyKvCacheSpecPageSize specs = .ok unified →
      getKvCacheGroupsUniformPageSize unified = .ok groups → OnePage unified ∧
        ∃ buckets groupSize, layerBucketsOf unified = .ok buckets ∧
          commonGroupSize (buckets.map (·.1.length)) = .ok groupSize ∧
          ∀ group ∈ groups, group.layerNames.length ≤ groupSize := by
  constructor
  · intro groups ran
    unfold getKvCacheGroups at ran
    split at ran
    · rcases bind_eq_ok.mp ran with ⟨unified, unifies, ran⟩
      rcases unifyHybridKvCacheSpecs_spec unifies with ⟨keys, adapted⟩
      exact (groupKvCacheSpecs_partitioned ran).adapt keys adapted
    · exact groupKvCacheSpecs_partitioned ran
  · intro unified groups unifies paged
    exact ⟨(unifyKvCacheSpecPageSize_spec unifies).2.1,
      (getKvCacheGroupsUniformPageSize_spec paged).2.2⟩

/-- Three layers with full attention, two with a window, and all pages alike. -/
def hybridSpecs : KVCacheSpecs where
  entries :=
    let heads : AttentionSpec :=
      { blockSize := 16, numKvHeads := 8, headSize := 64, dtype := ⟨"bfloat16", 2⟩
        headSizeV := 64 }
    [("full.0", .attention heads (.full {})), ("window.0", .attention heads (.slidingWindow 32 0)),
      ("full.1", .attention heads (.full {})), ("full.2", .attention heads (.full {})),
      ("window.1", .attention heads (.slidingWindow 32 0))]
  nodupKeys := by decide

theorem getKvCacheGroups_partitioned_hybrid :
    (∃ groups, Partitioned hybridSpecs groups ∧
      groups.map (·.layerNames) =
        [["full.0", "full.2"], ["full.1"], ["window.0", "window.1"]]) ∧
    OnePage hybridSpecs := by
  have grouped : (getKvCacheGroups false ⟨some .bhlnc, none, none⟩ hybridSpecs).map
      (fun groups => groups.map (·.layerNames)) =
        .ok [["full.0", "full.2"], ["full.1"], ["window.0", "window.1"]] := by
    decide +kernel
  have paged : ((unifyKvCacheSpecPageSize hybridSpecs).bind fun unified =>
      (getKvCacheGroupsUniformPageSize unified).map fun _ => unified.entries) =
        .ok hybridSpecs.entries := by
    decide +kernel
  rcases map_eq_ok.mp grouped with ⟨groups, ran, names⟩
  rcases bind_eq_ok.mp paged with ⟨unified, unifies, paged⟩
  rcases map_eq_ok.mp paged with ⟨pageGroups, pages, same⟩
  have unchanged : unified = hybridSpecs := by
    cases unified
    cases same
    rfl
  constructor
  · exact ⟨groups, (getKvCacheGroups_partitioned false _ hybridSpecs).1 groups ran, names⟩
  · rw [← unchanged]
    exact ((getKvCacheGroups_partitioned false ⟨some .bhlnc, none, none⟩ hybridSpecs).2
      unified pageGroups unifies pages).1

/-- Two layers with full attention and heads of different sizes. -/
def unevenSpecs : KVCacheSpecs where
  entries :=
    let heads (headSize : Nat) : AttentionSpec :=
      { blockSize := 16, numKvHeads := 8, headSize := headSize, dtype := ⟨"bfloat16", 2⟩
        headSizeV := headSize }
    [("full.0", .attention (heads 64) (.full {})), ("full.1", .attention (heads 128) (.full {}))]
  nodupKeys := by decide

/-- The layers of one type are one group also where their specifications do not merge. -/
theorem getKvCacheGroups_unmerged :
    (getKvCacheGroups false ⟨some .bhlnc, none, none⟩ unevenSpecs).map
      (fun groups => groups.map (·.layerNames)) = .ok [["full.0", "full.1"]] ∧
    errorOf (mergeSpecs (specsOf unevenSpecs)) = some .assertionError := by
  decide +kernel

end Vllm.Core.CachePlan
