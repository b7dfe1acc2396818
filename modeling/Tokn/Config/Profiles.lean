import Mathlib.Data.List.DropRight
import Tokn.Config.Matchers
import Tokn.Policy.RoutePlan

/-!
# Compiling profiles

`crates/config/src/v2/compile/resources/profiles.rs`. A profile that is not a relay to the original
destination owns a path of the API, its own by default, and no other profile may own the same one
(`binding_unique`).

The wire identity, the account pool and the providers of a profile are checked elsewhere; those checks
are parameters, which reject a profile or let it pass.
-/

namespace Tokn.Config.Profiles

open Tokn.Policy
open Tokn.Except (rejectIf bind_eq_ok)
open Tokn.Escapes

/-! ## Raw profiles -/

structure RawProfileBinding where
  path : Option String
  endpoints : Option (List String)
  deriving DecidableEq

/-- A raw profile; `Identity` and `Pool` are the types of its raw wire identity and account pool. -/
structure RawProfile (Identity Pool : Type) where
  route : String
  wireIdentity : Identity
  accountPool : Option Pool
  binding : Option RawProfileBinding

/-! ## Plans -/

/-- The endpoints are a set; nothing asks for their order. -/
structure ApiBindingPlan where
  path : Text
  endpoints : List String
  deriving DecidableEq

structure ProfilePlan (Wire : Type) where
  route : String
  wireIdentity : Wire
  accountPool : Option String := none
  apiBinding : Option ApiBindingPlan := none

/-! ## Errors -/

/-- Why a value of a profile is invalid. -/
inductive InvalidProfileValue where
  | poolOfClientRelay
  | bindingOfOriginalRelay
  | pathOwned (path : Text) (first : String)
  | pathNotLiteral
  | pathReserved
  | unknownEndpoint (endpoint : String)
  | duplicateEndpoint (endpoint : String)
  deriving DecidableEq

inductive ProfileError where
  | compile (error : CompileError)
  | invalidValue (location : String) (reason : InvalidProfileValue)
  deriving DecidableEq

/-- A result of the shared parts of the compiler. -/
def shared {α : Type} : Except CompileError α → Except ProfileError α
  | .ok a => .ok a
  | .error error => .error (.compile error)

theorem shared_eq_ok {α : Type} {x : Except CompileError α} {a : α} :
    shared x = .ok a ↔ x = .ok a := by
  cases x with
  | error error => exact iff_of_false nofun nofun
  | ok b => exact ⟨fun h => (by cases h; rfl), fun h => (by cases h; rfl)⟩

/-! ## Bindings -/

def GENERATION_ENDPOINTS : List String := ["chat_completions", "responses", "messages"]

/-- `trim_end_matches('/')`. -/
def trimSlashes (path : Text) : Text := path.rdropWhile (· = '/')

/-- A path that the API may not be bound to, because it is empty or not literal. -/
def notLiteral (path : Text) : Bool :=
  path.isEmpty || decide (['/', '/'] <:+: path) ||
    (path.splitOn '/').any fun segment => segment.any "{}*".toList.contains

def reserved (path : Text) : Bool :=
  path = "/healthz".toList || "/healthz/".toList.isPrefixOf path ||
    path = "/admin".toList || "/admin/".toList.isPrefixOf path

/-- One endpoint in the loop of `compile_binding`. -/
def compileEndpoint (location : String) (endpoints : List String) (endpoint : String) :
    Except ProfileError (List String) := do
  rejectIf (!GENERATION_ENDPOINTS.contains endpoint)
    (.invalidValue location (.unknownEndpoint endpoint))
  let id ← shared (parseId "operation" "generation endpoint" endpoint)
  rejectIf (endpoints.contains id) (.invalidValue location (.duplicateEndpoint endpoint))
  return endpoints ++ [id]

def defaultPath (name : String) : String :=
  if name = "default" then "/v1" else s!"/{name}/v1"

def compileBinding (name : String) (raw : Option RawProfileBinding) :
    Except ProfileError ApiBindingPlan := do
  let path := (raw.bind RawProfileBinding.path).getD (defaultPath name)
  let location := s!"profiles.{name}.binding.path"
  let path ← shared (located location (canonicalPathPrefix path.toList))
  let path := trimSlashes path
  rejectIf (notLiteral path) (.invalidValue location .pathNotLiteral)
  rejectIf (reserved path) (.invalidValue location .pathReserved)
  let values := (raw.bind RawProfileBinding.endpoints).getD GENERATION_ENDPOINTS
  let endpoints ← values.foldlM (compileEndpoint s!"profiles.{name}.binding.endpoints") []
  return ⟨path, endpoints⟩

/-! ## Profiles -/

section

variable {ε Identity Pool Wire PoolPlan : Type}

/-- The checks of the parts of a profile that are compiled elsewhere. -/
structure ProfileChecks (ε Identity Pool Wire PoolPlan : Type) where
  /-- An error that is found here, as an error of the compiler. -/
  error : ProfileError → ε
  wireIdentity : String → Identity → RoutePlan → Except ε Wire
  /-- `compile_account_pool`, of the default pool if there is none. -/
  accountPool : String → Option Pool → Except ε PoolPlan
  profileProviders : String → RoutePlan → Except ε Unit

/-- What the loop of `compile_profiles` has made so far. -/
structure ProfileState (Wire PoolPlan : Type) where
  profiles : BTreeMap String (ProfilePlan Wire) := []
  pools : BTreeMap String PoolPlan := []
  mounts : BTreeMap Text String := []

variable (checks : ProfileChecks ε Identity Pool Wire PoolPlan)

/-- A result found here, as one of the compiler. -/
def ProfileChecks.lift {α : Type} (x : Except ProfileError α) : Except ε α := x.mapError checks.error

/-- The account pool of a profile. -/
def compileProfilePool (name : String) (profile : RawProfile Identity Pool) (route : RoutePlan)
    (plan : ProfilePlan Wire) (pools : BTreeMap String PoolPlan) :
    Except ε (ProfilePlan Wire × BTreeMap String PoolPlan) :=
  if route.credentialPolicy = .account then do
    let poolId ← checks.lift (shared (parseId "account pool" "profile account pool"
      ("profile." ++ name)))
    let pool ← checks.accountPool name profile.accountPool
    checks.profileProviders name route
    return ({ plan with accountPool := some poolId }, pools.insert poolId pool)
  else if profile.accountPool.isSome then
    .error (checks.error (.invalidValue s!"profiles.{name}.account_pool" .poolOfClientRelay))
  else .ok (plan, pools)

/-- The API binding of a profile. -/
def compileProfileBinding (name : String) (profile : RawProfile Identity Pool) (route : RoutePlan)
    (plan : ProfilePlan Wire) (mounts : BTreeMap Text String) :
    Except ProfileError (ProfilePlan Wire × BTreeMap Text String) :=
  if route.destinationPolicy = .original then
    if profile.binding.isSome then
      .error (.invalidValue s!"profiles.{name}.binding" .bindingOfOriginalRelay)
    else .ok (plan, mounts)
  else do
    let binding ← compileBinding name profile.binding
    match mounts.get binding.path with
    | some first =>
      .error (.invalidValue s!"profiles.{name}.binding.path" (.pathOwned binding.path first))
    | none => .ok ({ plan with apiBinding := some binding }, mounts.insert binding.path name)

/-- One profile in the loop of `compile_profiles`. -/
def compileProfile (routes : BTreeMap String RoutePlan) (st : ProfileState Wire PoolPlan)
    (entry : String × RawProfile Identity Pool) : Except ε (ProfileState Wire PoolPlan) := do
  let (name, profile) := entry
  let id ← checks.lift (shared (parseId "profile" "profile id" name))
  let routeId ← checks.lift (shared (parseId "route" "profile route reference" profile.route))
  match routes.get routeId with
  | none =>
    .error (checks.error
      (.compile (.unresolvedReference "profile" name "route" "route" profile.route)))
  | some route =>
    let identity ← checks.wireIdentity name profile.wireIdentity route
    let plan : ProfilePlan Wire := { route := routeId, wireIdentity := identity }
    let (plan, pools) ← compileProfilePool checks name profile route plan st.pools
    let (plan, mounts) ← checks.lift (compileProfileBinding name profile route plan st.mounts)
    return { profiles := st.profiles.insert id plan, pools := pools, mounts := mounts }

def compileProfiles (routes : BTreeMap String RoutePlan) (pools : BTreeMap String PoolPlan)
    (raw : BTreeMap String (RawProfile Identity Pool)) :
    Except ε (ProfileState Wire PoolPlan) :=
  raw.foldlM (compileProfile checks routes) { pools := pools }

end

/-! ## The paths of bindings -/

/-- Trimming leaves the escapes of a path complete. -/
theorem escaped_trimSlashes {path : Text} (h : Escaped isUpperHexDigit path) :
    Escaped isUpperHexDigit (trimSlashes path) := by
  induction path using List.reverseRecOn with
  | nil => exact h
  | append_singleton path c ih =>
    rw [trimSlashes]
    by_cases hc : c = '/'
    · subst hc
      rw [List.rdropWhile_concat_pos _ _ _ (by decide)]
      exact ih (h.of_append (by decide) (by decide))
    · rw [List.rdropWhile_concat_neg _ _ _ (by simpa using hc)]
      exact h

theorem compileBinding_ok {name : String} {raw : Option RawProfileBinding} {binding : ApiBindingPlan}
    (h : compileBinding name raw = .ok binding) : Escaped isUpperHexDigit binding.path := by
  obtain ⟨path, hpath, h⟩ := bind_eq_ok.mp h
  obtain ⟨-, -, h⟩ := bind_eq_ok.mp h
  obtain ⟨-, -, h⟩ := bind_eq_ok.mp h
  obtain ⟨endpoints, -, h⟩ := bind_eq_ok.mp h
  obtain rfl := Except.ok.inj h
  have hlocated := located_ok (shared_eq_ok.mp hpath)
  exact escaped_trimSlashes (canonicalPathPrefix_ok hlocated).2.2.escaped

section

variable {ε Identity Pool Wire PoolPlan : Type} {checks : ProfileChecks ε Identity Pool Wire PoolPlan}

theorem ProfileChecks.lift_eq_ok {α : Type} {x : Except ProfileError α} {a : α} :
    checks.lift x = .ok a ↔ x = .ok a := Except.mapError_eq_ok

/-- `parse_id` at the errors of the compiler. -/
theorem lift_parseId_ok {kind resource value id : String}
    (h : checks.lift (shared (parseId kind resource value)) = .ok id) : id = value :=
  parseId_ok (shared_eq_ok.mp (ProfileChecks.lift_eq_ok.mp h))

/-- Each profile owns the path of its binding. -/
structure Owned (st : ProfileState Wire PoolPlan) : Prop where
  sorted : BTreeMap.Sorted st.profiles
  mounts : ∀ id plan binding, st.profiles.get id = some plan → plan.apiBinding = some binding →
    st.mounts.get binding.path = some id
  escaped : ∀ id plan binding, st.profiles.get id = some plan → plan.apiBinding = some binding →
    Escaped isUpperHexDigit binding.path

variable {plan' plan : ProfilePlan Wire} {st : ProfileState Wire PoolPlan}

/-- What a profile adds to the paths. -/
theorem compileProfileBinding_ok {name : String} {profile : RawProfile Identity Pool}
    {route : RoutePlan} {mounts mounts' : BTreeMap Text String} (hnone : plan.apiBinding = none)
    (h : compileProfileBinding name profile route plan mounts = .ok (plan', mounts')) :
    (plan'.apiBinding = none ∧ mounts' = mounts) ∨
      ∃ binding, plan'.apiBinding = some binding ∧ Escaped isUpperHexDigit binding.path ∧
        mounts.get binding.path = none ∧ mounts' = mounts.insert binding.path name := by
  rw [compileProfileBinding] at h
  split_ifs at h with horiginal hbinding
  · obtain ⟨rfl, rfl⟩ := Prod.mk.inj (Except.ok.inj h)
    exact Or.inl ⟨hnone, rfl⟩
  · obtain ⟨binding, hcompiled, h⟩ := bind_eq_ok.mp h
    cases hget : mounts.get binding.path with
    | some first =>
      rw [hget] at h
      cases h
    | none =>
      rw [hget] at h
      obtain ⟨rfl, rfl⟩ := Prod.mk.inj (Except.ok.inj h)
      exact Or.inr ⟨binding, rfl, compileBinding_ok hcompiled, hget, rfl⟩

theorem compileProfilePool_ok {name : String} {profile : RawProfile Identity Pool}
    {route : RoutePlan} {pools pools' : BTreeMap String PoolPlan}
    (h : compileProfilePool checks name profile route plan pools = .ok (plan', pools')) :
    plan'.apiBinding = plan.apiBinding := by
  rw [compileProfilePool] at h
  split_ifs at h
  · obtain ⟨poolId, -, h⟩ := bind_eq_ok.mp h
    obtain ⟨pool, -, h⟩ := bind_eq_ok.mp h
    obtain ⟨-, -, h⟩ := bind_eq_ok.mp h
    obtain ⟨rfl, -⟩ := Prod.mk.inj (Except.ok.inj h)
    rfl
  · obtain ⟨rfl, -⟩ := Prod.mk.inj (Except.ok.inj h)
    rfl

theorem compileProfile_ok {routes : BTreeMap String RoutePlan} {st' : ProfileState Wire PoolPlan}
    {entry : String × RawProfile Identity Pool} (hst : Owned st)
    (h : compileProfile checks routes st entry = .ok st') : Owned st' := by
  obtain ⟨name, profile⟩ := entry
  obtain ⟨id, hid, h⟩ := bind_eq_ok.mp h
  obtain rfl := lift_parseId_ok hid
  obtain ⟨routeId, -, h⟩ := bind_eq_ok.mp h
  split at h
  · cases h
  · obtain ⟨identity, -, h⟩ := bind_eq_ok.mp h
    obtain ⟨⟨plan, pools⟩, hpool, h⟩ := bind_eq_ok.mp h
    obtain ⟨⟨plan', mounts⟩, hbinding, h⟩ := bind_eq_ok.mp h
    obtain rfl := Except.ok.inj h
    have hnew := compileProfileBinding_ok (compileProfilePool_ok hpool)
      (ProfileChecks.lift_eq_ok.mp hbinding)
    refine ⟨hst.sorted.insert _ _, fun id' found binding hget hfound => ?_,
      fun id' found binding hget hfound => ?_⟩
    · dsimp only at hget ⊢
      rw [BTreeMap.get_insert] at hget
      split_ifs at hget with hsame
      · obtain rfl := Option.some.inj hget
        rcases hnew with ⟨hnone, -⟩ | ⟨compiled, hsome, -, -, rfl⟩
        · cases hnone.symm.trans hfound
        · obtain rfl := Option.some.inj (hsome.symm.trans hfound)
          rw [BTreeMap.get_insert_self, hsame]
      · have hold := hst.mounts id' found binding hget hfound
        rcases hnew with ⟨-, rfl⟩ | ⟨compiled, -, -, hfree, rfl⟩
        · exact hold
        · have hne : binding.path ≠ compiled.path := by
            intro heq
            rw [heq, hfree] at hold
            cases hold
          rw [BTreeMap.get_insert_of_ne _ hne]
          exact hold
    · dsimp only at hget
      rw [BTreeMap.get_insert] at hget
      split_ifs at hget with hsame
      · obtain rfl := Option.some.inj hget
        rcases hnew with ⟨hnone, -⟩ | ⟨compiled, hsome, hescaped, -, -⟩
        · cases hnone.symm.trans hfound
        · obtain rfl := Option.some.inj (hsome.symm.trans hfound)
          exact hescaped
      · exact hst.escaped id' found binding hget hfound

/-- **Each compiled profile owns the path of its binding.** -/
theorem compileProfiles_ok {routes : BTreeMap String RoutePlan} {pools : BTreeMap String PoolPlan}
    {raw : BTreeMap String (RawProfile Identity Pool)}
    (h : compileProfiles checks routes pools raw = .ok st) : Owned st := by
  refine Except.foldlM_induction (fun _ st => Owned st) ⟨BTreeMap.sorted_nil, ?_, ?_⟩ ?_ h
  · intro id plan binding hget
    cases hget
  · intro id plan binding hget
    cases hget
  · intro _ _ _ _ _ hst hstep
    exact compileProfile_ok hst hstep

/-- No two profiles own one path. -/
theorem Owned.binding_unique (h : Owned st) {id id' : String} {binding binding' : ApiBindingPlan}
    (hget : st.profiles.get id = some plan) (hget' : st.profiles.get id' = some plan')
    (hbinding : plan.apiBinding = some binding) (hbinding' : plan'.apiBinding = some binding')
    (hpath : binding.path = binding'.path) : id = id' := by
  have hmount := h.mounts id plan binding hget hbinding
  rw [hpath, h.mounts id' plan' binding' hget' hbinding'] at hmount
  exact (Option.some.inj hmount).symm

end

end Tokn.Config.Profiles
