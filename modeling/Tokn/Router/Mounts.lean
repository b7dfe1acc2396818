import Tokn.Config.Profiles
import Tokn.Router.ApiListener

/-!
# The mounts of the API

`crates/router/src/v2/mounts.rs`. Each operation of a profile is mounted at the path of the profile's
binding followed by a suffix of the operation, which may have a slash in it.

**Theorem (`mounts_spec`).** The profiles of a configuration that compiles can be mounted, and a
request path is served by the operation of the profile that owns it, up to the letter case of the
digits of its escapes, and by nothing else. The last segments of the suffixes differ, so an operation
can be read off a path (`mountPath_inj`), and then the rest is the path of a binding.
-/

namespace Tokn.Router.Api

open Tokn.Config
open Tokn.Config.Profiles
open Tokn.Escapes
open Tokn.Policy (Text)

/-! ## Mounting -/

/-- The operations of a profile, after the suffixes of their paths. -/
def apiOperations : List (String × ApiOperation) :=
  [("chat/completions", .generate .chatCompletions), ("responses", .generate .responses),
    ("messages", .generate .messages), ("models", .models), ("providers", .providers)]

def mountPath (binding : ApiBindingPlan) (suffix : String) : Text :=
  binding.path ++ '/' :: suffix.toList

/-- The binding allows the operation. -/
def mountEnabled (binding : ApiBindingPlan) : ApiOperation → Bool
  | .generate endpoint => binding.endpoints.any fun id => id = operationName endpoint
  | _ => true

/-- One path in the loop of `ApiMounts::new`. -/
def insertMount (mounts : ApiMounts) (mount : Text × MountedEndpoint) : Except String ApiMounts :=
  match BTreeMap.get mounts mount.1 with
  | some previous =>
    .error ("API path '" ++ String.ofList mount.1 ++ "' is owned by both '" ++ previous.profile ++
      "' and '" ++ mount.2.profile ++ "'")
  | none => .ok (BTreeMap.insert mounts mount.1 mount.2)

def mountOf (id : String) (binding : ApiBindingPlan) (operation : String × ApiOperation) :
    Text × MountedEndpoint :=
  (mountPath binding operation.1, ⟨id, operation.2, mountEnabled binding operation.2⟩)

variable {Wire : Type}

/-- One profile in the loop of `ApiMounts::new`. -/
def mountProfile (mounts : ApiMounts) (profile : String × ProfilePlan Wire) :
    Except String ApiMounts :=
  match profile.2.apiBinding with
  | none => .ok mounts
  | some binding =>
    apiOperations.foldlM (fun mounts operation =>
      insertMount mounts (mountOf profile.1 binding operation)) mounts

def ApiMounts.new (profiles : BTreeMap String (ProfilePlan Wire)) : Except String ApiMounts :=
  profiles.foldlM mountProfile []

/-- The entry serves the path: it is an operation of a profile whose binding the path begins with. -/
def Serves (profiles : BTreeMap String (ProfilePlan Wire)) (path : Text) (entry : MountedEndpoint) :
    Prop :=
  ∃ plan binding suffix, profiles.get entry.profile = some plan ∧ plan.apiBinding = some binding ∧
    (suffix, entry.operation) ∈ apiOperations ∧
    entry.enabled = mountEnabled binding entry.operation ∧
    SameButHexCase path (mountPath binding suffix)

/-! ## Paths -/

/-- What follows the last slash, backwards. -/
def lastSegment (path : Text) : Text := path.reverse.takeWhile (· ≠ '/')

theorem lastSegment_append (text suffix : Text) :
    lastSegment (text ++ '/' :: suffix) = lastSegment ('/' :: suffix) := by
  have hlen : (('/' :: suffix).reverse.takeWhile (· ≠ '/')).length ≠
      ('/' :: suffix).reverse.length := by
    intro hlen
    have hall := List.takeWhile_eq_self_iff.mp
      ((List.takeWhile_prefix _).eq_of_length hlen) '/' (by simp)
    simp at hall
  rw [lastSegment, List.reverse_append, List.takeWhile_append, if_neg hlen, lastSegment]

/-- The operations are told apart by the last segments of their suffixes. -/
theorem apiOperations_inj : ∀ operation ∈ apiOperations, ∀ operation' ∈ apiOperations,
    lastSegment ('/' :: operation.1.toList) = lastSegment ('/' :: operation'.1.toList) →
      operation = operation' := by
  decide

/-- **A path has one operation and one binding.** -/
theorem mountPath_inj {binding binding' : ApiBindingPlan} {operation operation' : String × ApiOperation}
    (hmem : operation ∈ apiOperations) (hmem' : operation' ∈ apiOperations)
    (h : mountPath binding operation.1 = mountPath binding' operation'.1) :
    operation = operation' ∧ binding.path = binding'.path := by
  have hlast := congrArg lastSegment h
  rw [mountPath, mountPath, lastSegment_append, lastSegment_append] at hlast
  have hsame := apiOperations_inj operation hmem operation' hmem' hlast
  subst hsame
  exact ⟨rfl, List.append_cancel_right h⟩

/-- The canonical form of a path is a canonical path where the two are spellings of one another. -/
theorem canonicalPath_eq_iff {path path' : Text} (h : Escaped isUpperHexDigit path') :
    canonicalPath path = path' ↔ SameButHexCase path path' := by
  rw [canonicalPath_eq, canonicalForm]
  constructor
  · intro heq
    rw [← heq] at h ⊢
    exact sameButHexCase_upper
      (escaped_of_mapEscapes (fun _ => isHexDigit_of_isUpperHexDigit) (by decide) h)
  · intro hsame
    rw [hsame.mapEscapes_eq]
    exact canonicalForm_eq_self h

theorem escaped_mountPath {binding : ApiBindingPlan} (h : Escaped isUpperHexDigit binding.path)
    {operation : String × ApiOperation} (hmem : operation ∈ apiOperations) :
    Escaped isUpperHexDigit (mountPath binding operation.1) := by
  have hsuffix : ∀ operation ∈ apiOperations, '%' ∉ '/' :: operation.1.toList := by decide
  exact (escaped_append_iff h).mpr (escaped_of_not_mem (hsuffix operation hmem))

/-! ## The mounts of all profiles -/

def mountsOf (profile : String × ProfilePlan Wire) : List (Text × MountedEndpoint) :=
  match profile.2.apiBinding with
  | none => []
  | some binding => apiOperations.map (mountOf profile.1 binding)

theorem mountProfile_eq (mounts : ApiMounts) (profile : String × ProfilePlan Wire) :
    mountProfile mounts profile = (mountsOf profile).foldlM insertMount mounts := by
  rw [mountProfile, mountsOf]
  cases profile.2.apiBinding with
  | none => rfl
  | some binding => exact (List.foldlM_map ..).symm

theorem apiMounts_new_eq (profiles : BTreeMap String (ProfilePlan Wire)) :
    ApiMounts.new profiles = (profiles.flatMap mountsOf).foldlM insertMount [] := by
  suffices h : ∀ mounts, profiles.foldlM mountProfile mounts =
      (profiles.flatMap mountsOf).foldlM insertMount mounts from h []
  induction profiles with
  | nil => exact fun _ => rfl
  | cons profile profiles ih =>
    intro mounts
    rw [List.foldlM_cons, List.flatMap_cons, List.foldlM_append, mountProfile_eq]
    congr 1
    funext mounts
    exact ih mounts

/-- Mounts at different paths can all be inserted, and are what is then found. -/
theorem foldlM_insertMount {claims : List (Text × MountedEndpoint)}
    (hnodup : (claims.map Prod.fst).Nodup) (mounts : ApiMounts)
    (hfree : ∀ claim ∈ claims, BTreeMap.get mounts claim.1 = none) :
    ∃ mounts', claims.foldlM insertMount mounts = .ok mounts' ∧
      ∀ path, BTreeMap.get mounts' path = (BTreeMap.get claims path).or (BTreeMap.get mounts path) := by
  induction claims generalizing mounts with
  | nil => exact ⟨mounts, rfl, fun path => rfl⟩
  | cons claim claims ih =>
    obtain ⟨hnew, hrest⟩ := List.nodup_cons.mp hnodup
    have hinsert : insertMount mounts claim = .ok (BTreeMap.insert mounts claim.1 claim.2) := by
      rw [insertMount, hfree claim List.mem_cons_self]
    have hfree' : ∀ other ∈ claims,
        BTreeMap.get (BTreeMap.insert mounts claim.1 claim.2) other.1 = none := by
      intro other hother
      have hne : other.1 ≠ claim.1 := fun heq => hnew (heq ▸ List.mem_map_of_mem hother)
      rw [BTreeMap.get_insert_of_ne _ hne]
      exact hfree other (List.mem_cons_of_mem _ hother)
    obtain ⟨mounts', hok, hget⟩ := ih hrest _ hfree'
    refine ⟨mounts', ?_, fun path => ?_⟩
    · rw [List.foldlM_cons, hinsert]
      exact hok
    · rw [hget, BTreeMap.get_insert, BTreeMap.get_cons]
      by_cases hpath : path = claim.1
      · have hnone : BTreeMap.get claims path = none := by
          rw [BTreeMap.get_eq_none_iff, hpath]
          exact hnew
        rw [if_pos hpath, if_pos hpath, hnone]
        rfl
      · rw [if_neg hpath, if_neg hpath]

section

variable {PoolPlan : Type} {st : ProfileState Wire PoolPlan}

theorem mem_mounts (h : BTreeMap.Sorted st.profiles) {path : Text} {entry : MountedEndpoint} :
    (path, entry) ∈ st.profiles.flatMap mountsOf ↔
      ∃ plan binding suffix, st.profiles.get entry.profile = some plan ∧
        plan.apiBinding = some binding ∧ (suffix, entry.operation) ∈ apiOperations ∧
        entry.enabled = mountEnabled binding entry.operation ∧ path = mountPath binding suffix := by
  rw [List.mem_flatMap]
  constructor
  · rintro ⟨⟨id, plan⟩, hmem, hmount⟩
    rw [mountsOf] at hmount
    cases hbinding : plan.apiBinding with
    | none =>
      rw [hbinding] at hmount
      cases hmount
    | some binding =>
      rw [hbinding] at hmount
      obtain ⟨⟨suffix, operation⟩, hoperation, heq⟩ := List.mem_map.mp hmount
      obtain ⟨rfl, rfl⟩ := Prod.mk.inj heq
      exact ⟨plan, binding, suffix, (BTreeMap.get_eq_some_iff h.nodup).mpr hmem, hbinding,
        hoperation, rfl, rfl⟩
  · rintro ⟨plan, binding, suffix, hget, hbinding, hoperation, henabled, rfl⟩
    refine ⟨(entry.profile, plan), (BTreeMap.get_eq_some_iff h.nodup).mp hget, ?_⟩
    rw [mountsOf, hbinding]
    refine List.mem_map.mpr ⟨(suffix, entry.operation), hoperation, ?_⟩
    obtain ⟨profile, operation, enabled⟩ := entry
    dsimp only at henabled
    rw [henabled]
    rfl

theorem mem_paths {profile : String × ProfilePlan Wire} {path : Text}
    (h : path ∈ (mountsOf profile).map Prod.fst) :
    ∃ binding operation, profile.2.apiBinding = some binding ∧ operation ∈ apiOperations ∧
      path = mountPath binding operation.1 := by
  obtain ⟨mount, hmount, rfl⟩ := List.mem_map.mp h
  rw [mountsOf] at hmount
  cases hbinding : profile.2.apiBinding with
  | none =>
    rw [hbinding] at hmount
    cases hmount
  | some binding =>
    rw [hbinding] at hmount
    obtain ⟨operation, hoperation, rfl⟩ := List.mem_map.mp hmount
    exact ⟨binding, operation, rfl, hoperation, rfl⟩

/-- **No path is mounted twice.** -/
theorem nodup_mounts (h : Owned st) : ((st.profiles.flatMap mountsOf).map Prod.fst).Nodup := by
  rw [List.map_flatMap, List.nodup_flatMap]
  constructor
  · intro profile _
    rw [mountsOf]
    cases profile.2.apiBinding with
    | none => exact List.nodup_nil
    | some binding =>
      rw [List.map_map]
      refine List.Nodup.map_on (fun operation hmem operation' hmem' heq => ?_) (by decide)
      exact (mountPath_inj hmem hmem' heq).1
  · have hkeys : List.Pairwise (fun profile profile' => profile.1 ≠ profile'.1) st.profiles :=
      List.pairwise_map.mp h.sorted.nodup
    refine hkeys.imp_of_mem fun {profile profile'} hprofile hprofile' hne => ?_
    intro path hpath hpath'
    obtain ⟨binding, operation, hbinding, hmem, rfl⟩ := mem_paths hpath
    obtain ⟨binding', operation', hbinding', hmem', heq⟩ := mem_paths hpath'
    exact hne (h.binding_unique ((BTreeMap.get_eq_some_iff h.sorted.nodup).mpr hprofile)
      ((BTreeMap.get_eq_some_iff h.sorted.nodup).mpr hprofile') hbinding hbinding'
      (mountPath_inj hmem hmem' heq).2)

end

/-- **The profiles of a configuration that compiles can be mounted**, and a path is served by the
entry that `Serves` it, which is the only one. -/
theorem mounts_spec {ε Identity Pool PoolPlan : Type}
    (checks : ProfileChecks ε Identity Pool Wire PoolPlan) (routes : BTreeMap String Policy.RoutePlan)
    (pools : BTreeMap String PoolPlan) (raw : BTreeMap String (RawProfile Identity Pool))
    (st : ProfileState Wire PoolPlan) (h : compileProfiles checks routes pools raw = .ok st) :
    ∃ mounts, ApiMounts.new st.profiles = .ok mounts ∧
      (∀ path entry, mounts.get path = some entry ↔ Serves st.profiles path entry) ∧
      ∀ path entry entry', Serves st.profiles path entry → Serves st.profiles path entry' →
        entry = entry' := by
  have howned := compileProfiles_ok h
  obtain ⟨mounts, hok, hget⟩ := foldlM_insertMount (nodup_mounts howned) []
    fun claim _ => BTreeMap.get_nil claim.1
  have hserves : ∀ path entry, mounts.get path = some entry ↔ Serves st.profiles path entry := by
    intro path entry
    rw [ApiMounts.get, hget, BTreeMap.get_nil, Option.or_none,
      BTreeMap.get_eq_some_iff (nodup_mounts howned), mem_mounts howned.sorted]
    refine exists₃_congr fun plan binding suffix => and_congr_right fun hplan =>
      and_congr_right fun hbinding => and_congr_right fun hoperation => and_congr_right fun _ => ?_
    exact canonicalPath_eq_iff (escaped_mountPath
      (howned.escaped entry.profile plan binding hplan hbinding) hoperation)
  refine ⟨mounts, (apiMounts_new_eq st.profiles).trans hok, hserves, ?_⟩
  intro path entry entry' hentry hentry'
  have hsame := (hserves path entry).mpr hentry
  rw [(hserves path entry').mpr hentry'] at hsame
  exact (Option.some.inj hsame).symm

/-! ## Two profiles -/

/-- Checks that every profile passes. -/
def sampleChecks : ProfileChecks ProfileError Unit Unit Unit Unit where
  error := id
  wireIdentity _ _ _ := .ok ()
  accountPool _ _ := .ok ()
  profileProviders _ _ := .ok ()

def sampleRoutes : BTreeMap String Policy.RoutePlan :=
  [("any", .managed ⟨⟨.any, .capability⟩, .preserve, none, [], []⟩)]

/-- The default profile, and one below its path. -/
def sampleProfiles : BTreeMap String (RawProfile Unit Unit) :=
  [("default", ⟨"any", (), none, none⟩),
    ("nested", ⟨"any", (), none, some ⟨some "/v1/chat%2fnested/", some ["responses"]⟩⟩)]

theorem mounts_sampleProfiles :
    ∃ st mounts, compileProfiles sampleChecks sampleRoutes [] sampleProfiles = .ok st ∧
      ApiMounts.new st.profiles = .ok mounts ∧
      ∀ path entry, mounts.get path = some entry ↔ Serves st.profiles path entry := by
  have hok : (compileProfiles sampleChecks sampleRoutes [] sampleProfiles).isOk = true := by
    decide +kernel
  obtain ⟨st, hst⟩ := Except.exists_eq_ok hok
  obtain ⟨mounts, hmounts, hserves, -⟩ :=
    mounts_spec sampleChecks sampleRoutes [] sampleProfiles st hst
  exact ⟨st, mounts, hst, hmounts, hserves⟩

end Tokn.Router.Api
