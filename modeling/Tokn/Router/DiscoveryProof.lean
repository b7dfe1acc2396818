import Tokn.Lib.Insertion
import Tokn.Router.Discovery
import Tokn.Router.ResolveProof

/-!
# Discovered models

**Theorem (`run_spec`).** After any answers of the accounts, the models of an account are those of its
last list, and a cache has the models of all accounts of its provider. In which order accounts
answer, and which answers fail, makes no difference.

**Theorem (`listModels_spec`).** A list names each model once, and the models that are known of the
providers which the key allows, under all their names and no others.

**Theorem (`listed_requestable`).** What is listed for a managed route can be asked for: the name
stands for the model, and an account of the profile may serve it.
-/

namespace Tokn.Router.Discovery

open Tokn.Access (ProviderAccess)
open Tokn.Accounts (LinkedAccountPool ProviderBinding ProviderBindingKey)
open Tokn.Accounts.Link
open Tokn.Config.Resources
open Tokn.Policy
open Tokn.Router.Runtimes
open Tokn.Except (bind_eq_ok)
open OrderedMap (get_insert)

/-! ## Caches -/

theorem mem_ids_foldl (models : List Value) (cached : CachedModels) (id : String) :
    id ∈ (models.foldl addModel cached).ids ↔
      id ∈ cached.ids ∨ ∃ model ∈ models, modelId model = some id := by
  induction models generalizing cached with
  | nil => simp
  | cons model models ih =>
    rw [List.foldl_cons, ih, addModel]
    cases hid : modelId model with
    | none => simp [hid]
    | some id' =>
      simp only [Finset.mem_insert, List.exists_mem_cons_iff, hid, Option.some.injEq]
      grind

theorem mem_ids_cachedModels (models : List Value) (id : String) :
    id ∈ (cachedModels models).ids ↔ ∃ model ∈ models, modelId model = some id := by
  rw [cachedModels, mem_ids_foldl]
  simp

/-- What an account has answered: models that all have ids. -/
def Records (models : List Value) : Prop :=
  models ≠ [] ∧ ∀ model ∈ models, (modelId model).isSome = true

theorem records_of_answerOf {response : Except String Value} {models : List Value}
    (h : answerOf response = .ok models) : Records models := by
  cases response with
  | error e => cases h
  | ok response =>
    rw [answerOf] at h
    split_ifs at h with hempty
    cases h
    refine ⟨hempty, fun model hmem => ?_⟩
    exact (List.mem_filter.mp hmem).2

theorem setModels_of_records {models : List Value} (cache : ModelCache) (hne : models ≠ [])
    (h : ∀ model ∈ models, (modelId model).isSome = true) :
    cache.setModels models = { cache with inner := some (cachedModels models) } := by
  have hids : (cachedModels models).ids ≠ ∅ := by
    obtain ⟨model, hmem⟩ := List.exists_mem_of_ne_nil models hne
    obtain ⟨id, hid⟩ := Option.isSome_iff_exists.mp (h model hmem)
    exact Finset.ne_empty_of_mem ((mem_ids_cachedModels models id).mpr ⟨model, hmem, hid⟩)
  rw [ModelCache.setModels, if_neg hids]

theorem mem_providerModels {upstream : OrderedMap ProviderBindingKey (List Value)}
    {providerId : String} {model : Value} :
    model ∈ providerModels upstream providerId ↔ ∃ key models, key.providerId = providerId ∧
      upstream.get key = some models ∧ model ∈ models := by
  simp only [providerModels, List.mem_flatMap, List.mem_filter, decide_eq_true_eq, Prod.exists,
    OrderedMap.mem_entries]
  grind

/-! ## Runs -/

/-- The last list that an account gave. -/
def lastModels (steps : List DiscoveryRuntime.Step) (key : ProviderBindingKey) :
    Option (List Value) :=
  steps.reverse.findSome? fun
    | .answered other response => if other = key then (answerOf response).toOption else none
    | .catalogue _ => none

def lastCatalogue (catalogueModels : String → String → List CatalogueModel)
    (steps : List DiscoveryRuntime.Step) : String → String → List CatalogueModel :=
  (steps.reverse.findSome? fun
    | .answered _ _ => none
    | .catalogue catalogueModels => some catalogueModels).getD catalogueModels

section

variable (runtime : DiscoveryRuntime)

/-- The models of the accounts are published. -/
structure Published (st : DiscoveryState) : Prop where
  records : ∀ key models, st.upstream.get key = some models → Records models
  inner : ∀ p, (st.caches p).inner =
    if (runtime.metadata.get p).isSome = true ∧ providerModels st.upstream p ≠ [] then
      some (cachedModels (providerModels st.upstream p))
    else none

variable {runtime}

/-- A new list leaves no provider without models. -/
theorem providerModels_insert_ne_nil {upstream : OrderedMap ProviderBindingKey (List Value)}
    {key : ProviderBindingKey} {models : List Value} (hmodels : models ≠ []) {p : String}
    (h : providerModels upstream p ≠ []) :
    providerModels (upstream.insert key models) p ≠ [] := by
  obtain ⟨model, hmem⟩ := List.exists_mem_of_ne_nil _ h
  obtain ⟨other, found, hp, hget, hmodel⟩ := mem_providerModels.mp hmem
  by_cases hother : other = key
  · obtain ⟨model', hmem'⟩ := List.exists_mem_of_ne_nil _ hmodels
    refine List.ne_nil_of_mem (mem_providerModels.mpr ⟨key, models, hother ▸ hp, ?_, hmem'⟩)
    rw [get_insert, if_pos rfl]
  · refine List.ne_nil_of_mem (mem_providerModels.mpr ⟨other, found, hp, ?_, hmodel⟩)
    rw [get_insert, if_neg hother, hget]

theorem Published.answered {st : DiscoveryState} (h : Published runtime st)
    (key : ProviderBindingKey) {models : List Value} (hmodels : Records models) :
    Published runtime
      (runtime.publishUpstream { st with upstream := st.upstream.insert key models }) := by
  have hrecords : ∀ other found, (st.upstream.insert key models).get other = some found →
      Records found := by
    intro other found hget
    rw [get_insert] at hget
    split_ifs at hget
    · cases hget
      exact hmodels
    · exact h.records other found hget
  refine ⟨hrecords, fun p => ?_⟩
  simp only [DiscoveryRuntime.publishUpstream]
  by_cases hp : (runtime.metadata.get p).isSome = true ∧
      providerModels (st.upstream.insert key models) p ≠ []
  · rw [if_pos hp, if_pos hp, setModels_of_records _ hp.2]
    intro model hmem
    obtain ⟨other, found, -, hget, hmodel⟩ := mem_providerModels.mp hmem
    exact (hrecords other found hget).2 model hmodel
  · rw [if_neg hp, if_neg hp, h.inner, if_neg]
    exact fun hold => hp ⟨hold.1, providerModels_insert_ne_nil hmodels.1 hold.2⟩

end

/-- What a run leads to. -/
structure RunOf (runtime : DiscoveryRuntime)
    (catalogueModels : String → String → List CatalogueModel) (steps : List DiscoveryRuntime.Step)
    (st : DiscoveryState) : Prop where
  published : Published runtime st
  upstream : ∀ key, st.upstream.get key = lastModels steps key
  catalogue : ∀ p, (st.caches p).catalogue = (runtime.metadata.get p).map fun metadata =>
    lastCatalogue catalogueModels steps p metadata.driverId

section

variable {runtime : DiscoveryRuntime} {catalogueModels : String → String → List CatalogueModel}
  {steps : List DiscoveryRuntime.Step} {st : DiscoveryState}

theorem catalogue_applyCatalogue (p : String) :
    ((runtime.applyCatalogue catalogueModels st).caches p).catalogue =
      match runtime.metadata.get p with
      | some metadata => some (catalogueModels p metadata.driverId)
      | none => (st.caches p).catalogue := by
  rw [DiscoveryRuntime.applyCatalogue]
  dsimp only
  cases runtime.metadata.get p <;> rfl

theorem Published.applyCatalogue (h : Published runtime st) :
    Published runtime (runtime.applyCatalogue catalogueModels st) := by
  refine ⟨h.records, fun p => ?_⟩
  have hinner : ((runtime.applyCatalogue catalogueModels st).caches p).inner =
      (st.caches p).inner := by
    rw [DiscoveryRuntime.applyCatalogue]
    dsimp only
    cases runtime.metadata.get p <;> rfl
  rw [hinner]
  exact h.inner p

theorem catalogue_setModels (cache : ModelCache) (models : List Value) :
    (cache.setModels models).catalogue = cache.catalogue := by
  rw [ModelCache.setModels]
  split_ifs <;> rfl

theorem runOf_init : RunOf runtime catalogueModels [] (runtime.init catalogueModels) := by
  refine ⟨Published.applyCatalogue ⟨fun key models hget => ?_, fun p => ?_⟩, fun key => rfl,
    fun p => ?_⟩
  · cases hget
  · rw [if_neg]
    exact fun h => h.2 rfl
  · rw [DiscoveryRuntime.init, catalogue_applyCatalogue]
    cases runtime.metadata.get p <;> rfl

/-- **One step.** -/
theorem RunOf.step (h : RunOf runtime catalogueModels steps st) (step : DiscoveryRuntime.Step) :
    RunOf runtime catalogueModels (steps ++ [step]) (runtime.step st step) := by
  cases step with
  | answered key response =>
    have hlast : ∀ other, lastModels (steps ++ [.answered key response]) other =
        (if key = other then (answerOf response).toOption else none).or (lastModels steps other) := by
      intro other
      simp only [lastModels, List.reverse_append, List.reverse_singleton, List.singleton_append,
        List.findSome?_cons]
      cases (if key = other then (answerOf response).toOption else none) <;> rfl
    have hcatalogue : lastCatalogue catalogueModels (steps ++ [.answered key response]) =
        lastCatalogue catalogueModels steps := by
      simp [lastCatalogue]
    rw [DiscoveryRuntime.step]
    cases hanswer : answerOf response with
    | error e =>
      refine ⟨h.published, fun other => ?_, fun p => ?_⟩
      · rw [hlast, hanswer, h.upstream]
        simp [Except.toOption]
      · rw [hcatalogue]
        exact h.catalogue p
    | ok models =>
      refine ⟨h.published.answered key (records_of_answerOf hanswer), fun other => ?_, fun p => ?_⟩
      · rw [hlast, hanswer, ← h.upstream]
        simp only [DiscoveryRuntime.publishUpstream, get_insert, Except.toOption]
        by_cases hother : other = key
        · rw [if_pos hother, if_pos hother.symm]
          rfl
        · rw [if_neg hother, if_neg (Ne.symm hother)]
          rfl
      · rw [hcatalogue, ← h.catalogue]
        simp only [DiscoveryRuntime.publishUpstream]
        split_ifs
        · exact catalogue_setModels _ _
        · rfl
  | catalogue newModels =>
    have hlast : ∀ other, lastModels (steps ++ [.catalogue newModels]) other =
        lastModels steps other := by
      intro other
      simp [lastModels]
    refine ⟨h.published.applyCatalogue, fun key => ?_, fun p => ?_⟩
    · rw [hlast, ← h.upstream]
      rfl
    · rw [DiscoveryRuntime.step, catalogue_applyCatalogue]
      cases hp : runtime.metadata.get p with
      | some metadata => simp [lastCatalogue]
      | none =>
        have hnone := h.catalogue p
        rw [hp] at hnone
        exact hnone

theorem runOf_run (runtime : DiscoveryRuntime)
    (catalogueModels : String → String → List CatalogueModel)
    (steps : List DiscoveryRuntime.Step) :
    RunOf runtime catalogueModels steps (runtime.run catalogueModels steps) := by
  induction steps using List.reverseRecOn with
  | nil => exact runOf_init
  | append_singleton steps step ih =>
    rw [DiscoveryRuntime.run, List.foldl_concat]
    exact ih.step step

/-- A state is what the lists and the catalogue make it. -/
theorem RunOf.ext {steps' : List DiscoveryRuntime.Step} {st' : DiscoveryState}
    (h : RunOf runtime catalogueModels steps st) (h' : RunOf runtime catalogueModels steps' st')
    (hmodels : ∀ key, lastModels steps key = lastModels steps' key)
    (hcatalogue : lastCatalogue catalogueModels steps = lastCatalogue catalogueModels steps') :
    st = st' := by
  have hupstream : st.upstream = st'.upstream := by
    refine OrderedMap.ext fun key => ?_
    rw [h.upstream, h'.upstream, hmodels]
  have hcaches : st.caches = st'.caches := by
    funext p
    apply ModelCache.ext
    · rw [h.published.inner, h'.published.inner, hupstream]
    · rw [h.catalogue, h'.catalogue, hcatalogue]
  exact DiscoveryState.ext hupstream hcaches

end

/-- **What the models are after any answers**, and that their order makes no difference. -/
theorem run_spec (runtime : DiscoveryRuntime)
    (catalogueModels : String → String → List CatalogueModel)
    (steps : List DiscoveryRuntime.Step) :
    let st := runtime.run catalogueModels steps
    (∀ key, st.upstream.get key = lastModels steps key) ∧
      (∀ p, (st.caches p).inner =
        if (runtime.metadata.get p).isSome = true ∧ providerModels st.upstream p ≠ [] then
          some (cachedModels (providerModels st.upstream p))
        else none) ∧
      (∀ p, (st.caches p).catalogue = (runtime.metadata.get p).map fun metadata =>
        lastCatalogue catalogueModels steps p metadata.driverId) ∧
      ∀ steps', (∀ key, lastModels steps key = lastModels steps' key) →
        lastCatalogue catalogueModels steps = lastCatalogue catalogueModels steps' →
          runtime.run catalogueModels steps' = st := by
  intro st
  have h := runOf_run runtime catalogueModels steps
  refine ⟨h.upstream, h.published.inner, h.catalogue, fun steps' hmodels hcatalogue => ?_⟩
  exact (h.ext (runOf_run runtime catalogueModels steps') hmodels hcatalogue).symm

/-! ## Lists -/

section

variable (runtime : DiscoveryRuntime) (st : DiscoveryState)

/-- A record of a model that is known of a provider, under one of its names. -/
structure Names (p : String) (provider : ProfileProvider) (upstreamId name : String)
    (record : Value) : Prop where
  named : ∃ metadata, runtime.metadata.get p = some metadata ∧
    name ∈ renderedIds p metadata provider upstreamId ∧
    ∃ model ∈ knownModels metadata st p provider, modelId model = some upstreamId ∧
      record = renderModel model upstreamId name p metadata (st.caches p)

/-- The records of a model, by name. -/
def modelEntries (p : String) (metadata : ProviderMetadata) (provider : ProfileProvider)
    (model : Value) : List (String × Value) :=
  match modelId model with
  | none => []
  | some upstreamId =>
    (renderedIds p metadata provider upstreamId).map fun name =>
      (name, renderModel model upstreamId name p metadata (st.caches p))

/-- The records of a provider, by name. -/
def providerEntries (entry : String × ProfileProvider) : List (String × Value) :=
  match runtime.metadata.get entry.1 with
  | none => []
  | some metadata =>
    (knownModels metadata st entry.1 entry.2).flatMap (modelEntries st entry.1 metadata entry.2)

variable {runtime st}

theorem mem_providerEntries {p name : String} {provider : ProfileProvider} {record : Value} :
    (name, record) ∈ providerEntries runtime st (p, provider) ↔
      ∃ upstreamId, Names runtime st p provider upstreamId name record := by
  rw [providerEntries]
  cases hmetadata : runtime.metadata.get p with
  | none =>
    simp only [List.not_mem_nil, false_iff, not_exists]
    rintro upstreamId ⟨metadata, hget, -⟩
    rw [hmetadata] at hget
    cases hget
  | some metadata =>
    simp only [List.mem_flatMap]
    constructor
    · rintro ⟨model, hknown, hmem⟩
      rw [modelEntries] at hmem
      cases hid : modelId model with
      | none =>
        rw [hid] at hmem
        cases hmem
      | some upstreamId =>
        simp only [hid] at hmem
        obtain ⟨name', hname, heq⟩ := List.mem_map.mp hmem
        cases heq
        exact ⟨upstreamId, metadata, hmetadata, hname, model, hknown, hid, rfl⟩
    · rintro ⟨upstreamId, metadata', hget, hname, model, hknown, hid, rfl⟩
      cases hmetadata.symm.trans hget
      refine ⟨model, hknown, ?_⟩
      simp only [modelEntries, hid]
      exact List.mem_map.mpr ⟨name, hname, rfl⟩

/-- What has been merged are the first records of their names. -/
structure MergedAs (kept : List (String × Value)) (merged : Merged) : Prop where
  output : merged.output = kept.map Prod.snd
  seen : ∀ name, name ∈ merged.seen ↔ name ∈ kept.map Prod.fst

variable {kept : List (String × Value)}

theorem MergedAs.foldl {α : Type} {f : Merged → α → Merged} {entries : α → List (String × Value)}
    (hstep : ∀ kept merged a, MergedAs kept merged →
      MergedAs ((entries a).foldl keepFirst kept) (f merged a)) (l : List α) {merged : Merged}
    (h : MergedAs kept merged) :
    MergedAs ((l.flatMap entries).foldl keepFirst kept) (l.foldl f merged) := by
  induction l generalizing kept merged with
  | nil => exact h
  | cons a l ih =>
    rw [List.flatMap_cons, List.foldl_append, List.foldl_cons]
    exact ih (hstep kept merged a h)

theorem mergedAs_addRendered {merged : Merged} (h : MergedAs kept merged) (model : Value)
    (upstreamId p name : String) (metadata : ProviderMetadata) (cache : ModelCache) :
    MergedAs (keepFirst kept (name, renderModel model upstreamId name p metadata cache))
      (addRendered model upstreamId p metadata cache merged name) := by
  rw [keepFirst, addRendered]
  by_cases hseen : name ∈ merged.seen
  · rw [if_pos hseen, if_pos ((h.seen name).mp hseen)]
    exact h
  · rw [if_neg hseen, if_neg fun hmem => hseen ((h.seen name).mpr hmem)]
    refine ⟨by simp [h.output], fun other => ?_⟩
    simp [h.seen, or_comm]

theorem mergedAs_mergeModels {merged : Merged} (h : MergedAs kept merged) (p : String)
    (metadata : ProviderMetadata) (provider : ProfileProvider) (models : List Value) :
    MergedAs ((models.flatMap (modelEntries st p metadata provider)).foldl keepFirst kept)
      (mergeModels p metadata (st.caches p) provider merged models) := by
  rw [mergeModels]
  refine MergedAs.foldl (fun kept merged model h => ?_) models h
  rw [modelEntries]
  cases modelId model with
  | none => exact h
  | some upstreamId =>
    dsimp only
    rw [List.map_eq_flatMap]
    refine MergedAs.foldl (fun kept merged name h => ?_) _ h
    exact mergedAs_addRendered h model upstreamId p name metadata (st.caches p)

/-- The list has the first records of their names. -/
theorem listModels_eq (profile : ProfileDiscovery) (access : ProviderAccess) :
    runtime.listModels st profile access =
      (firstEntries ((allowedProviders access profile).flatMap (providerEntries runtime st))).map
        Prod.snd := by
  have h : MergedAs
      (((allowedProviders access profile).flatMap (providerEntries runtime st)).foldl keepFirst [])
      ((allowedProviders access profile).foldl (runtime.mergeProvider st) {}) := by
    refine MergedAs.foldl (fun kept merged entry h => ?_) _ ⟨rfl, fun name => by simp⟩
    rw [DiscoveryRuntime.mergeProvider, providerEntries]
    cases runtime.metadata.get entry.1 with
    | none => exact h
    | some metadata => exact mergedAs_mergeModels h entry.1 metadata entry.2 _
  exact h.output

/-- A record has its name for its id. -/
theorem str_renderModel {model : Value} {upstreamId name p : String} {metadata : ProviderMetadata}
    {cache : ModelCache} (h : modelId model = some upstreamId) :
    (renderModel model upstreamId name p metadata cache).str "id" = some name := by
  cases model with
  | object fields =>
    rw [renderModel, enrich, Value.str, Value.get]
    rw [BTreeMap.get_insert_of_ne _ (by decide), BTreeMap.get_insert, if_pos rfl]
    rfl
  | _ => cases h

section

variable {profile : ProfileDiscovery} {access : ProviderAccess}

/-- The records of the providers that a key allows, by name. -/
def allowedEntries (runtime : DiscoveryRuntime) (st : DiscoveryState) (profile : ProfileDiscovery)
    (access : ProviderAccess) : List (String × Value) :=
  (allowedProviders access profile).flatMap (providerEntries runtime st)

variable {record : Value}

theorem mem_allowedEntries {name : String} :
    (name, record) ∈ allowedEntries runtime st profile access ↔
      ∃ p provider, (p, provider) ∈ profile.providers ∧ access.allows p = true ∧
        ∃ upstreamId, Names runtime st p provider upstreamId name record := by
  simp only [allowedEntries, allowedProviders, List.mem_flatMap, List.mem_filter, Prod.exists,
    mem_providerEntries]
  grind

theorem str_of_mem_allowedEntries {name : String}
    (h : (name, record) ∈ allowedEntries runtime st profile access) :
    record.str "id" = some name := by
  obtain ⟨p, provider, -, -, upstreamId, metadata, -, -, model, -, hid, rfl⟩ := mem_allowedEntries.mp h
  exact str_renderModel hid

/-- What is listed is the first record of a name. -/
theorem mem_listModels :
    record ∈ runtime.listModels st profile access ↔
      ∃ name, BTreeMap.get (allowedEntries runtime st profile access) name = some record := by
  rw [listModels_eq, List.mem_map, Prod.exists]
  simp only [mem_firstEntries, allowedEntries]
  grind

theorem names_of_mem_listModels (h : record ∈ runtime.listModels st profile access) :
    ∃ p provider upstreamId name, (p, provider) ∈ profile.providers ∧ access.allows p = true ∧
      Names runtime st p provider upstreamId name record ∧ record.str "id" = some name := by
  obtain ⟨name, hget⟩ := mem_listModels.mp h
  have hentry := BTreeMap.mem_of_get hget
  obtain ⟨p, provider, hprovider, hallowed, upstreamId, hnames⟩ := mem_allowedEntries.mp hentry
  exact ⟨p, provider, upstreamId, name, hprovider, hallowed, hnames, str_of_mem_allowedEntries hentry⟩

end

/-- **What a list says.** -/
theorem listModels_spec (runtime : DiscoveryRuntime) (st : DiscoveryState)
    (profile : ProfileDiscovery) (access : ProviderAccess) :
    let list := runtime.listModels st profile access
    (list.map fun record => record.str "id").Nodup ∧
      (∀ record ∈ list, ∃ p provider upstreamId name, (p, provider) ∈ profile.providers ∧
        access.allows p = true ∧ Names runtime st p provider upstreamId name record ∧
          record.str "id" = some name) ∧
      ∀ p provider upstreamId name record, (p, provider) ∈ profile.providers →
        access.allows p = true → Names runtime st p provider upstreamId name record →
          ∃ first ∈ list, first.str "id" = some name := by
  intro list
  refine ⟨?_, fun record hrecord => names_of_mem_listModels hrecord,
    fun p provider upstreamId name record hprovider hallowed h => ?_⟩
  · have hids : (list.map fun record => record.str "id") =
        ((firstEntries (allowedEntries runtime st profile access)).map Prod.fst).map some := by
      simp only [list, listModels_eq]
      rw [List.map_map, List.map_map]
      refine List.map_congr_left fun entry hentry => ?_
      exact str_of_mem_allowedEntries (BTreeMap.mem_of_get (mem_firstEntries.mp hentry))
    rw [hids]
    exact (nodup_firstEntries _).map (Option.some_injective _)
  · have hentry : (name, record) ∈ allowedEntries runtime st profile access :=
      mem_allowedEntries.mpr ⟨p, provider, hprovider, hallowed, upstreamId, h⟩
    have hsome : (BTreeMap.get (allowedEntries runtime st profile access) name).isSome = true := by
      rw [Option.isSome_iff_ne_none, ne_eq, BTreeMap.get_eq_none_iff, not_not]
      exact List.mem_map.mpr ⟨_, hentry, rfl⟩
    obtain ⟨first, hfirst⟩ := Option.isSome_iff_exists.mp hsome
    exact ⟨first, mem_listModels.mpr ⟨name, hfirst⟩,
      str_of_mem_allowedEntries (BTreeMap.mem_of_get hfirst)⟩

end

/-! ## Names of requests -/

/-- An identifier has no slash. -/
theorem slash_notMem_of_validIdentifier {separated : Bool} {text : List Char}
    (h : validIdentifier separated text = true) : '/' ∉ text := by
  induction text generalizing separated with
  | nil => simp
  | cons c text ih =>
    rw [validIdentifier] at h
    have hc : '/' ≠ c := by
      rintro rfl
      cases separated <;> simp [Char.isLower, Char.isDigit] at h
    split_ifs at h with hletter hseparator
    · simp [hc, ih h]
    · simp [hc, ih h]

/-- What a qualifier asks of a binding. -/
def constraintOf (qualifier : String) : QualificationNamespace → ProviderConstraint
  | .driver => .driver qualifier
  | .provider => .provider qualifier

theorem qualifiedConstraint_ok (ns : QualificationNamespace) {qualifier : String}
    (h : IsIdentifier qualifier) :
    qualifiedConstraint ns qualifier = .ok (constraintOf qualifier ns) := by
  have hparse : parseIdentifier (qualificationName ns) qualifier = .ok qualifier := if_pos h
  rw [qualifiedConstraint, hparse]
  cases ns <;> rfl

/-- A model may be asked for by its name: with a qualifier if it has no white space around it, and where
there are families, if it is none of them. -/
def Askable (upstreamId : String) : ModelSelector → Prop
  | .capability => True
  | .qualified _ => Str.trimChars upstreamId.toList = upstreamId.toList
  | .family families => ∀ family ∈ families, family.name ≠ upstreamId

section

variable {route : ManagedRoute} {upstreamId : String}

/-- What a name with a qualifier stands for. -/
theorem modelCandidates_qualified {ns : QualificationNamespace} {qualifier : String}
    (hmodel : route.target.model = .qualified ns) (hqualifier : IsIdentifier qualifier)
    (hne : upstreamId ≠ "") (htrim : Str.trimChars upstreamId.toList = upstreamId.toList) :
    modelCandidates route (qualifier ++ "/" ++ upstreamId) =
      .ok [⟨upstreamId, constraintOf qualifier ns, .ignored⟩] := by
  have hsplit : Ascii.splitOnce '/' (qualifier ++ "/" ++ upstreamId).toList =
      some (qualifier.toList, upstreamId.toList) := by
    refine Ascii.splitOnce_eq_some.mpr ⟨?_, slash_notMem_of_validIdentifier hqualifier⟩
    simp [String.toList_append]
  have hnonempty : upstreamId.toList ≠ [] := fun h => hne (String.toList_injective h)
  rw [modelCandidates, hmodel]
  dsimp only
  rw [hsplit]
  dsimp only
  rw [if_neg (by simp [hnonempty, htrim]), String.ofList_toList, String.ofList_toList,
    qualifiedConstraint_ok ns hqualifier]
  rfl

theorem modelCandidates_plain (hmodel : qualifiedModelIds route = none)
    (h : Askable upstreamId route.target.model) :
    modelCandidates route upstreamId = .ok [concreteCandidate route upstreamId] := by
  rw [qualifiedModelIds] at hmodel
  rw [modelCandidates]
  cases htarget : route.target.model with
  | capability => rfl
  | qualified ns =>
    rw [htarget] at hmodel
    cases hmodel
  | family families =>
    rw [htarget] at h
    have hfind : (families.find? fun family => family.name = upstreamId) = none := by
      rw [List.find?_eq_none]
      intro family hfamily
      simpa using h family hfamily
    dsimp only
    rw [hfind]

end

/-! ## Profiles -/

/-- The name that a route gives a model. -/
def routeName (route : RoutePlan) (p : String) (metadata : ProviderMetadata) (upstreamId : String) :
    String :=
  match route with
  | .managed managed =>
    match qualifiedModelIds managed with
    | some ns => qualifierOf p metadata ns ++ "/" ++ upstreamId
    | none => upstreamId
  | .relay _ => upstreamId

/-- A provider of a profile, as its accounts are entered. -/
structure Entered (plain : Bool) (qualified : Option QualificationNamespace)
    (bindings : List ProviderBinding) (p : String) (provider : ProfileProvider) : Prop where
  plain : provider.plainModelIds = plain
  qualified : provider.qualifiedModelIds = qualified
  nonempty : ∃ binding ∈ bindings, binding.providerId = p
  bindings : ∀ key binding, provider.bindings.get key = some binding →
    binding ∈ bindings ∧ binding.key = key ∧ key.providerId = p

/-- **One account more.** -/
theorem entered_addBinding {plain : Bool} {qualified : Option QualificationNamespace}
    {bindings : List ProviderBinding} {providers : BTreeMap String ProfileProvider}
    (hproviders : ∀ p provider, (p, provider) ∈ providers → Entered plain qualified bindings p provider)
    (binding : ProviderBinding) :
    ∀ p provider, (p, provider) ∈ addBinding plain qualified providers binding →
      Entered plain qualified (bindings ++ [binding]) p provider := by
  intro p provider hmem
  rcases BTreeMap.mem_insert hmem with heq | hold
  · obtain ⟨rfl, rfl⟩ := Prod.mk.inj heq
    cases hget : providers.get binding.providerId with
    | none =>
      refine ⟨by simp, rfl, ⟨binding, by simp, rfl⟩, fun key other hother => ?_⟩
      rw [get_insert] at hother
      split_ifs at hother with hkey
      · cases hother
        exact ⟨by simp, hkey.symm, by rw [hkey]; rfl⟩
      · cases hother
    | some old =>
      have hentered := hproviders _ _ (BTreeMap.mem_of_get hget)
      refine ⟨by simp [hentered.plain], rfl, ⟨binding, by simp, rfl⟩, fun key other hother => ?_⟩
      rw [get_insert] at hother
      split_ifs at hother with hkey
      · cases hother
        exact ⟨by simp, hkey.symm, by rw [hkey]; rfl⟩
      · obtain ⟨hin, hsame, hprovider⟩ := hentered.bindings key other hother
        exact ⟨List.mem_append_left _ hin, hsame, hprovider⟩
  · obtain ⟨hplain, hqualified, ⟨other, hother, hp⟩, hbindings⟩ := hproviders p provider hold
    refine ⟨hplain, hqualified, ⟨other, List.mem_append_left _ hother, hp⟩, fun key found hfound => ?_⟩
    obtain ⟨hin, hsame, hprovider⟩ := hbindings key found hfound
    exact ⟨List.mem_append_left _ hin, hsame, hprovider⟩

theorem entered_foldl (plain : Bool) (qualified : Option QualificationNamespace)
    (bindings : List ProviderBinding) :
    ∀ p provider, (p, provider) ∈ bindings.foldl (addBinding plain qualified) [] →
      Entered plain qualified bindings p provider := by
  induction bindings using List.reverseRecOn with
  | nil =>
    intro p provider hmem
    cases hmem
  | append_singleton bindings binding ih =>
    rw [List.foldl_concat]
    exact entered_addBinding ih binding

section

variable {ρ τ ε : Type} {resources : CompiledResources} {registry : Registry ρ τ ε}
  {parse : TargetSyntax τ} {accounts : List (AccountConfig ρ)} {graph : ProviderGraph ρ τ ε}
  {pools : BTreeMap String LinkedAccountPool} {descriptions : Descriptions ρ τ ε}
  {reachable : Finset String} {runtime : DiscoveryRuntime}

variable {metadata : ProviderMetadata} {plan : Config.Profiles.ProfilePlan WireIdentity}
  {profileId : String} {managed : ManagedRoute} {binding : ProviderBinding}

/-- The metadata of a provider has its driver. -/
theorem driverId_of_new
    (hnew : DiscoveryRuntime.new resources graph pools registry descriptions reachable = .ok runtime)
    {p : String} (h : runtime.metadata.get p = some metadata) :
    ∃ plan, resources.providers.get p = some plan ∧ metadata.driverId = plan.driver := by
  obtain ⟨found, hfound, hnew⟩ := bind_eq_ok.mp hnew
  obtain ⟨profiles, -, hnew⟩ := bind_eq_ok.mp hnew
  cases hnew
  obtain ⟨⟨id, destination⟩, -, hone⟩ :=
    Except.mem_of_mapM_eq_ok hfound (BTreeMap.mem_of_get h)
  obtain ⟨plan, hplan, hone⟩ := bind_eq_ok.mp hone
  obtain ⟨descriptor, -, hone⟩ := bind_eq_ok.mp hone
  cases hone
  exact ⟨plan, expect_eq_ok.mp hplan, rfl⟩

/-- The providers of a profile are those of its route. -/
theorem profileProviders_of_new
    (hnew : DiscoveryRuntime.new resources graph pools registry descriptions reachable = .ok runtime)
    {profile : ProfileDiscovery} (hprofile : runtime.profiles.get profileId = some profile)
    (hplan : resources.profiles.get profileId = some plan) {route : CompiledRoute}
    (hroute : resources.routes.get plan.route = some route) :
    profileProviders (ε := ε) pools profileId plan route.plan = .ok profile.providers := by
  obtain ⟨found, -, hnew⟩ := bind_eq_ok.mp hnew
  obtain ⟨profiles, hprofiles, hnew⟩ := bind_eq_ok.mp hnew
  cases hnew
  obtain ⟨id, -, hone⟩ := Except.mem_of_mapM_eq_ok hprofiles (BTreeMap.mem_of_get hprofile)
  obtain ⟨plan', hplan', hone⟩ := bind_eq_ok.mp hone
  obtain ⟨route', hroute', hone⟩ := bind_eq_ok.mp hone
  obtain ⟨providers, hproviders, hone⟩ := bind_eq_ok.mp hone
  cases hone
  rw [expect_eq_ok] at hplan' hroute'
  cases hplan.symm.trans hplan'
  cases hroute.symm.trans hroute'
  exact hproviders

/-- **A list has the names that the route gives its models.** -/
theorem renderedIds_of_new
    (hnew : DiscoveryRuntime.new resources graph pools registry descriptions reachable = .ok runtime)
    {profile : ProfileDiscovery} (hprofile : runtime.profiles.get profileId = some profile)
    (hplan : resources.profiles.get profileId = some plan) {route : CompiledRoute}
    (hroute : resources.routes.get plan.route = some route) {p : String}
    {provider : ProfileProvider} (hprovider : (p, provider) ∈ profile.providers)
    (metadata : ProviderMetadata) (upstreamId : String) :
    renderedIds p metadata provider upstreamId = [routeName route.plan p metadata upstreamId] := by
  have hproviders := profileProviders_of_new hnew hprofile hplan hroute
  cases hrouteOf : route.plan with
  | managed managed =>
    rw [hrouteOf, profileProviders] at hproviders
    obtain ⟨pool, -, hproviders⟩ := bind_eq_ok.mp hproviders
    have hentered := entered_foldl _ _ _ p provider (Except.ok.inj hproviders ▸ hprovider)
    rw [renderedIds, hentered.plain, hentered.qualified]
    simp only [routeName]
    cases qualifiedModelIds managed <;> rfl
  | relay relay =>
    obtain ⟨destination, credentials, providers⟩ := relay
    rw [hrouteOf] at hproviders
    cases destination with
    | original =>
      rw [← Except.ok.inj hproviders] at hprovider
      cases hprovider
    | fixedProvider fixed =>
      cases credentials with
      | client =>
        rw [← Except.ok.inj hproviders, List.mem_singleton] at hprovider
        obtain ⟨rfl, rfl⟩ := Prod.mk.inj hprovider
        rfl
      | accountPool =>
        obtain ⟨pool, -, hproviders⟩ := bind_eq_ok.mp hproviders
        have hentered := entered_foldl _ _ _ p provider (Except.ok.inj hproviders ▸ hprovider)
        rw [renderedIds, hentered.plain, hentered.qualified]
        rfl

/-- The providers of a managed profile are those of its accounts. -/
theorem entered_of_new
    (hnew : DiscoveryRuntime.new resources graph pools registry descriptions reachable = .ok runtime)
    (hwell : WellFormed resources) {profile : ProfileDiscovery}
    (hprofile : runtime.profiles.get profileId = some profile)
    (hplan : resources.profiles.get profileId = some plan) {route : CompiledRoute}
    (hroute : resources.routes.get plan.route = some route)
    (hmanaged : route.plan = .managed managed) :
    ∃ pool, pools.get ("profile." ++ profileId) = some pool ∧
      ∀ p provider, (p, provider) ∈ profile.providers →
        Entered (qualifiedModelIds managed).isNone (qualifiedModelIds managed)
          ((pool.active ++ pool.fallback).filter (managedBinding managed)) p provider := by
  have hproviders := profileProviders_of_new hnew hprofile hplan hroute
  rw [hmanaged, profileProviders] at hproviders
  obtain ⟨pool, hpool, hproviders⟩ := bind_eq_ok.mp hproviders
  obtain ⟨-, route', hprofileWell⟩ := hwell.profiles profileId plan hplan
  cases hroute.symm.trans hprofileWell.found
  obtain ⟨hsome, -, -⟩ := hprofileWell.account (by rw [hmanaged]; rfl)
  rw [profilePool, expect_bind _ hsome, expect_eq_ok] at hpool
  refine ⟨pool, hpool, ?_⟩
  rw [← Except.ok.inj hproviders]
  exact entered_foldl _ _ _

/-- The qualifier of a provider is that of its accounts. -/
theorem admits_constraintOf {pool : LinkedAccountPool}
    (hpool : PoolFor resources registry accounts graph profileId pool)
    (hbinding : binding ∈ pool.active ++ pool.fallback) {plan : ProviderPlan}
    (hplan : resources.providers.get binding.providerId = some plan)
    (hdriver : metadata.driverId = plan.driver) (ns : QualificationNamespace) :
    (constraintOf (qualifierOf binding.providerId metadata ns) ns).admits binding = true := by
  cases ns with
  | provider => exact decide_eq_true rfl
  | driver =>
    obtain ⟨_, _, config, -, hin⟩ := inPool_of_mem hpool hbinding
    obtain ⟨plan', -, hplan', -, hdriverId, -⟩ := hin.built
    rw [ProviderBinding.providerId, hin.key] at hplan
    cases hplan.symm.trans hplan'
    rw [qualifierOf, hdriver]
    exact decide_eq_true hdriverId

/-- A binding of a managed route serves a model that it has an endpoint for. -/
theorem fits_of_hasEndpoint (hmanaged : managedBinding managed binding = true)
    {candidate : ModelCandidate} (hadmits : candidate.constraint.admits binding = true)
    (hevidence : .ignored ∈ candidate.evidence.order) {operation : Convert.Endpoint}
    (hendpoint : binding.driver.hasEndpoint candidate.model operation = true) :
    ∃ pass ∈ passes [candidate] [operation], pass.fits managed binding = true := by
  obtain ⟨hallowed, hfixed⟩ := Bool.and_eq_true_iff.mp hmanaged
  refine ⟨⟨candidate, .ignored, operation⟩, ?_, ?_⟩
  · simp only [passes, List.flatMap_singleton, List.map_singleton, List.mem_flatMap]
    exact ⟨.ignored, hevidence, List.mem_singleton_self _⟩
  · rw [Pass.fits, hallowed, Bool.true_and]
    simp only [managedBindingMatches, hadmits, hendpoint, Bool.and_true]
    cases hprovider : managed.target.provider with
    | any => rfl
    | fixed provider =>
      rw [hprovider] at hfixed
      exact decide_eq_true (of_decide_eq_true hfixed).symm

/-- A name stands for a model of a provider that has accounts in the pool, and for each of them some pass
of the selection fits. -/
structure Requestable (route : ManagedRoute) (pool : LinkedAccountPool) (p upstreamId name : String) :
    Prop where
  account : ∃ binding ∈ pool.active ++ pool.fallback, binding.providerId = p
  asked : Askable upstreamId route.target.model → ∃ candidate,
    modelCandidates route name = .ok [candidate] ∧ candidate.model = upstreamId ∧
      ∀ binding ∈ pool.active ++ pool.fallback, binding.providerId = p → ∀ operation,
        binding.driver.hasEndpoint upstreamId operation = true →
          ∃ pass ∈ passes [candidate] [operation], pass.fits route binding = true

/-- Which bindings a managed route may use depends on their providers. -/
theorem managedBinding_congr (route : ManagedRoute) {other : ProviderBinding}
    (h : binding.providerId = other.providerId) :
    managedBinding route binding = managedBinding route other := by
  rw [managedBinding, managedBinding, h]

/-- The name that a route gives a model stands for it. -/
theorem modelCandidates_routeName (hwell : WellFormed resources) {pool : LinkedAccountPool}
    (hpool : PoolFor resources registry accounts graph profileId pool) {p upstreamId : String}
    {plan : ProviderPlan} (hplan : resources.providers.get p = some plan)
    (hdriver : metadata.driverId = plan.driver) (hne : upstreamId ≠ "")
    (haskable : Askable upstreamId managed.target.model) :
    ∃ candidate,
      modelCandidates managed (routeName (.managed managed) p metadata upstreamId) =
          .ok [candidate] ∧
        candidate.model = upstreamId ∧ .ignored ∈ candidate.evidence.order ∧
          ∀ binding ∈ pool.active ++ pool.fallback, binding.providerId = p →
            candidate.constraint.admits binding = true := by
  cases hns : qualifiedModelIds managed with
  | none =>
    simp only [routeName, hns]
    refine ⟨_, modelCandidates_plain hns haskable, rfl, ?_, fun _ _ _ => rfl⟩
    rw [concreteCandidate]
    cases managed.target.provider <;> simp [DiscoveryEvidence.order]
  | some ns =>
    have hmodel : managed.target.model = .qualified ns := by
      rw [qualifiedModelIds] at hns
      cases hmodel : managed.target.model with
      | capability => simp [hmodel] at hns
      | qualified other =>
        simp only [hmodel, Option.some.injEq] at hns
        rw [hns]
      | family families => simp [hmodel] at hns
    rw [hmodel] at haskable
    have hidentifier : IsIdentifier (qualifierOf p metadata ns) := by
      obtain ⟨hid, hplanWell⟩ := hwell.provider p plan hplan
      cases ns with
      | provider => exact hid
      | driver =>
        rw [qualifierOf, hdriver]
        exact hplanWell.driver
    simp only [routeName, hns]
    refine ⟨_, modelCandidates_qualified hmodel hidentifier hne haskable, rfl,
      by simp [DiscoveryEvidence.order], fun binding hbinding hp => ?_⟩
    subst hp
    exact admits_constraintOf hpool hbinding hplan hdriver ns

/-- **What is listed for a managed route can be asked for**, by the accounts of the profile. -/
theorem listed_requestable {url : UpstreamSyntax} {raw : RawResources}
    (h : compileResources url raw = .ok resources)
    (hlink : linkAccounts registry parse resources.providers resources.accountPools accounts =
      .ok (graph, pools))
    (hnew : DiscoveryRuntime.new resources graph pools registry descriptions reachable = .ok runtime)
    {profileId : String} {profile : ProfileDiscovery}
    (hprofile : runtime.profiles.get profileId = some profile)
    {plan : Config.Profiles.ProfilePlan WireIdentity}
    (hplan : resources.profiles.get profileId = some plan) {route : CompiledRoute}
    (hroute : resources.routes.get plan.route = some route) {managed : ManagedRoute}
    (hmanaged : route.plan = .managed managed) (st : DiscoveryState) (access : ProviderAccess) :
    ∃ pool, pools.get ("profile." ++ profileId) = some pool ∧
      ∀ record ∈ runtime.listModels st profile access, ∃ p provider metadata upstreamId,
        (p, provider) ∈ profile.providers ∧ access.allows p = true ∧
          runtime.metadata.get p = some metadata ∧
          let name := routeName (.managed managed) p metadata upstreamId
          record.str "id" = some name ∧ Names runtime st p provider upstreamId name record ∧
            (∀ key binding, provider.bindings.get key = some binding →
              binding ∈ pool.active ++ pool.fallback ∧ binding.key = key ∧ key.providerId = p) ∧
            Requestable managed pool p upstreamId name := by
  have hwell := compileResources_wellFormed h
  have hlinked := linkedResources_of_ok hwell hlink
  obtain ⟨pool, hpool, hentered⟩ := entered_of_new hnew hwell hprofile hplan hroute hmanaged
  have hpoolFor : PoolFor resources registry accounts graph profileId pool := by
    obtain ⟨-, route', hprofileWell⟩ := hwell.profiles profileId plan hplan
    cases hroute.symm.trans hprofileWell.found
    exact poolFor_of_get hlinked (hprofileWell.account (by rw [hmanaged]; rfl)).2.1 hpool
  refine ⟨pool, hpool, fun record hrecord => ?_⟩
  obtain ⟨p, provider, upstreamId, name, hprovider, hallowed, hnames, hid⟩ :=
    names_of_mem_listModels hrecord
  obtain ⟨-, -, ⟨binding, hbinding, hp⟩, hbindings⟩ := hentered p provider hprovider
  obtain ⟨hbinding, hmanagedBinding⟩ := List.mem_filter.mp hbinding
  obtain ⟨metadata, hmetadata, hname, model, -, hmodelId, -⟩ := hnames.named
  rw [renderedIds_of_new hnew hprofile hplan hroute hprovider, List.mem_singleton, hmanaged] at hname
  subst hname
  refine ⟨p, provider, metadata, upstreamId, hprovider, hallowed, hmetadata, hid, hnames,
    fun key found hfound => ?_, ⟨binding, hbinding, hp⟩, fun haskable => ?_⟩
  · obtain ⟨hin, hkey, hkeyProvider⟩ := hbindings key found hfound
    exact ⟨List.mem_of_mem_filter hin, hkey, hkeyProvider⟩
  · obtain ⟨providerPlan, hproviderPlan, hdriver⟩ := driverId_of_new hnew hmetadata
    have hne : upstreamId ≠ "" := by
      have hfilter := (Option.filter_eq_some_iff.mp hmodelId).2
      simpa using hfilter
    obtain ⟨candidate, hcandidates, hmodel, hevidence, hadmits⟩ :=
      modelCandidates_routeName hwell hpoolFor hproviderPlan hdriver hne haskable
    refine ⟨candidate, hcandidates, hmodel, fun other hother hsame operation hendpoint => ?_⟩
    refine fits_of_hasEndpoint ?_ (hadmits other hother hsame) hevidence (by rwa [hmodel])
    rw [managedBinding_congr managed (hsame.trans hp.symm)]
    exact hmanagedBinding

end

/-- What the account of `sampleRaw` links to. -/
def sampleLinked (resources : CompiledResources) :
    Except (LinkError Unit ⊕ PoolLinkError)
      (ProviderGraph Unit String Unit × BTreeMap String LinkedAccountPool) :=
  linkAccounts sampleRegistry (fun url _ => .ok url) resources.providers resources.accountPools
    [sampleAccount]

/-- The profile of a managed route. -/
def sampleDiscovery (resources : CompiledResources)
    (linked : ProviderGraph Unit String Unit × BTreeMap String LinkedAccountPool) :
    Except (BuildError Unit) DiscoveryRuntime :=
  DiscoveryRuntime.new resources linked.1 linked.2 sampleRegistry sampleDescriptions {"default"}

/-- The account has answered with one model. -/
def sampleState (runtime : DiscoveryRuntime) : DiscoveryState :=
  runtime.run (fun _ _ => []) [.answered ⟨"local", "a"⟩
    (.ok (Value.obj [("data", .array [Value.obj [("id", .string "qwen")]])]))]

theorem listed_requestable_sampleRaw :
    ∃ resources linked runtime profile, compileResources sampleUrl sampleRaw = .ok resources ∧
      sampleLinked resources = .ok linked ∧ sampleDiscovery resources linked = .ok runtime ∧
        runtime.profiles.get "default" = some profile ∧
          ∃ record ∈ runtime.listModels (sampleState runtime) profile .all, ∃ provider candidate pool,
            Names runtime (sampleState runtime) "local" provider "qwen" "qwen" record ∧
              modelCandidates sampleManaged "qwen" = .ok [candidate] ∧ candidate.model = "qwen" ∧
                linked.2.get "profile.default" = some pool ∧
                  ∃ binding ∈ pool.active ++ pool.fallback, binding.key = ⟨"local", "a"⟩ ∧
                    ∃ pass ∈ passes [candidate] [.chatCompletions],
                      pass.fits sampleManaged binding = true := by
  have hok : (compileResources sampleUrl sampleRaw).map (fun r => (sampleLinked r).map fun l =>
      (sampleDiscovery r l).map fun runtime =>
        (decide (((r.profiles.get "default").bind fun plan => (r.routes.get plan.route).map (·.plan)) =
            some (.managed sampleManaged)),
          decide (((runtime.profiles.get "default").map fun profile => (profile.providers.map Prod.fst,
            (runtime.listModels (sampleState runtime) profile .all).map (·.str "id"))) =
              some (["local"], [some "qwen"])),
          decide (((l.2.get "profile.default").map fun pool =>
            (pool.active ++ pool.fallback).map fun binding =>
              (binding.key, binding.driver.hasEndpoint "qwen" .chatCompletions)) =
                some [(⟨"local", "a"⟩, true)]))) = .ok (.ok (.ok (true, true, true))) := by
    decide +kernel
  obtain ⟨resources, h, hok⟩ := Except.map_eq_ok.mp hok
  obtain ⟨⟨graph, pools⟩, hlink, hok⟩ := Except.map_eq_ok.mp hok
  obtain ⟨runtime, hnew, hok⟩ := Except.map_eq_ok.mp hok
  obtain ⟨hplan, hok⟩ := Prod.mk.inj hok
  obtain ⟨hlisted, hbindings⟩ := Prod.mk.inj hok
  rw [decide_eq_true_eq] at hplan hlisted hbindings
  obtain ⟨plan, hplan, hroute⟩ := Option.bind_eq_some_iff.mp hplan
  obtain ⟨route, hroute, hmanaged⟩ := Option.map_eq_some_iff.mp hroute
  obtain ⟨profile, hprofile, hlisted⟩ := Option.map_eq_some_iff.mp hlisted
  obtain ⟨hproviders, hlisted⟩ := Prod.mk.inj hlisted
  obtain ⟨pool, hpool, hrequestable⟩ :=
    listed_requestable h hlink hnew hprofile hplan hroute hmanaged (sampleState runtime) .all
  obtain ⟨record, hrecord, hid⟩ := List.mem_map.mp
    (hlisted ▸ List.mem_singleton_self (some "qwen"))
  obtain ⟨p, provider, metadata, upstreamId, hprovider, -, -, hname, hnames, -, haccount, hasked⟩ :=
    hrequestable record hrecord
  obtain rfl : p = "local" :=
    List.mem_singleton.mp (hproviders ▸ List.mem_map_of_mem (f := Prod.fst) hprovider)
  obtain rfl : "qwen" = upstreamId := Option.some.inj (hid.symm.trans hname)
  obtain ⟨candidate, hcandidates, hmodel, hpass⟩ := hasked (by simp [Askable, sampleManaged])
  obtain ⟨binding, hbinding, hp⟩ := haccount
  obtain ⟨pool', hpool', hbindings⟩ := Option.map_eq_some_iff.mp hbindings
  obtain rfl : pool = pool' := Option.some.inj (hpool.symm.trans hpool')
  have hsingle : (binding.key, binding.driver.hasEndpoint "qwen" .chatCompletions) ∈
      [((⟨"local", "a"⟩ : ProviderBindingKey), true)] := hbindings ▸ List.mem_map_of_mem hbinding
  obtain ⟨hkey, hendpoint⟩ := Prod.mk.inj (List.mem_singleton.mp hsingle)
  exact ⟨resources, _, runtime, profile, h, hlink, hnew, hprofile, record, hrecord, provider,
    candidate, pool, hnames, hcandidates, hmodel, hpool, binding, hbinding, hkey,
    hpass binding hbinding hp _ hendpoint⟩

end Tokn.Router.Discovery
