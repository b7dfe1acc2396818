import Tokn.Accounts.Pool
import Tokn.Auth.Store
import Tokn.Lib.Machine
import Tokn.Lib.Str

/-!
# Account management

`crates/accounts/src/management.rs`: the operations that add, change, remove and probe the accounts
of the credential store. Each takes the lock of the store, reads the files and writes them back. A
probe holds the lock while a token is exchanged, saves what came of it, gives the lock back, and
then asks the provider to verify the credential and for its quota.

Many processes run operations on one store. The lock goes to one of them at a time, and a call that
does not get it fails. Of a call that had the lock the history keeps what it was and what it
returned, in the order the lock was given back. What the providers answer and the clock are inputs.
-/

namespace Tokn.Accounts.Management

open Tokn.Auth (AuthStore AuthError Disk Yaml)

/-! ## Accounts -/

/-- The fields of an account. Those that management hands on are in `other`. -/
structure Fields (ω : Type) where
  provider : String
  enabled : Bool
  tier : AccountTier
  label : Option String
  username : Option String
  accessToken : Option String
  accessTokenExpiresAt : Option Int
  idToken : Option String
  refreshToken : Option String
  providerAccountId : Option String
  lastRefresh : Option Int
  other : ω
  deriving DecidableEq

abbrev Account (ω : Type) := Auth.AccountConfig (Fields ω)

abbrev Store (ω : Type) := AuthStore (Fields ω)

inductive ManagementError where
  | busy
  | io (message : String)
  | store (e : AuthError)
  | noLongerExists
  | alreadyExists
  | provider (message : String)
  deriving DecidableEq

/-- An error of the store is passed on. -/
def ofStore {α : Type} (x : Except AuthError α) : Except ManagementError α :=
  match x with
  | .ok a => .ok a
  | .error e => .error (.store e)

theorem ofStore_eq_ok {α : Type} {x : Except AuthError α} {a : α} :
    ofStore x = .ok a ↔ x = .ok a := by
  cases x <;> simp [ofStore]

inductive RefreshOutcome where
  | refreshed (accessToken : String) (expiresAt : Int)
      (refreshToken idToken username providerAccountId : Option String)
  | unchanged
  | notApplicable
  deriving DecidableEq

/-- A field that the upstream did return. -/
def present (s : Option String) : Option String := s.filter fun t => Str.trim t ≠ ""

section

variable {ω : Type}

/-- `RefreshOutcome::apply_to`: whether there is something to save, and the fields. -/
def RefreshOutcome.applyTo (now : Int) (fields : Fields ω) : RefreshOutcome → Bool × Fields ω
  | .refreshed accessToken expiresAt refreshToken idToken username providerAccountId =>
    (true, { fields with
      accessToken := some accessToken
      accessTokenExpiresAt := some expiresAt
      refreshToken := present refreshToken <|> fields.refreshToken
      idToken := present idToken <|> fields.idToken
      username := present username <|> fields.username
      providerAccountId := present providerAccountId <|> fields.providerAccountId
      lastRefresh := some now })
  | .unchanged | .notApplicable => (false, fields)

/-- An account after an exchange. -/
def refreshed (outcome : RefreshOutcome) (now : Int) (account : Account ω) : Account ω :=
  { account with rest := (outcome.applyTo now account.rest).2 }

/-! ## Edits -/

inductive Activation where
  | active
  | fallback
  | disabled
  deriving DecidableEq

inductive AccountEdit where
  | update (id : String) (label : Option String) (activation : Activation)
  | remove (id : String)
  deriving DecidableEq

/-- The fields after an update. A disabled account keeps its tier. -/
def updated (label : Option String) (activation : Activation) (fields : Fields ω) : Fields ω :=
  { fields with
    label := (label.map Str.trim).filter fun label => label ≠ ""
    enabled := activation ≠ .disabled
    tier :=
      match activation with
      | .active => .active
      | .fallback => .fallback
      | .disabled => fields.tier }

/-- `edit`, in memory. -/
def edit (st : Store ω) : AccountEdit → Except ManagementError (Store ω)
  | .update id label activation =>
    if st.accounts.any fun account => account.id = id then
      .ok ((AuthStore.getMut id (updated label activation)).outcome st).2
    else .error .noLongerExists
  | .remove id =>
    match (AuthStore.remove id).outcome st with
    | (.ok (some _), st) => .ok st
    | _ => .error .noLongerExists

/-! ## Insertions -/

def isControl (c : Char) : Bool := c.toNat < 0x20 || (0x7f ≤ c.toNat && c.toNat < 0xa0)

def suggestedId (account : Account ω) : String :=
  ((([account.rest.username, account.rest.providerAccountId,
    some account.rest.provider].reduceOption).map Str.trim).find? fun value =>
      value ≠ "" && value.utf8ByteSize ≤ 100 && !value.toList.any isControl).getD "account"

def suffixed (base : String) (suffix : Nat) : String := base ++ "-" ++ toString suffix

/-- The loop over the suffixes. -/
def firstFree (ids : List String) (base : String) : Nat → Nat → String → String
  | 0, _, id => id
  | fuel + 1, suffix, id =>
    if id ∈ ids then firstFree ids base fuel (suffix + 1) (suffixed base suffix) else id

/-- The id of a generated account. One round more than there are ids is enough. -/
def generatedId (ids : List String) (base : String) : String :=
  firstFree ids base (ids.length + 1) 2 base

/-- The account to insert. -/
def named (ids : List String) (account : Account ω) (generated : Bool) : Account ω :=
  if generated then { account with id := generatedId ids (suggestedId account) } else account

/-- `insert_with_id`, in memory. -/
def insertWithId (d : Disk) (st : Store ω) (account : Account ω) (generated : Bool) :
    Except ManagementError (Store ω) :=
  let ids := st.accounts.map Auth.AccountConfig.id
  let account := named ids account generated
  if account.id ∈ ids then .error .alreadyExists
  else
    match (AuthStore.upsertInMain d account).outcome st with
    | (.ok (), st) => .ok st
    | (.error e, _) => .error (.store e)

/-! ## Calls -/

/-- An operation that changes the store and returns. -/
inductive Write (ω : Type) where
  | edit (e : AccountEdit)
  | insert (account : Account ω)
  | insertGenerated (account : Account ω)

/-- The store after an operation, before it is saved. -/
def Write.perform (d : Disk) (st : Store ω) : Write ω → Except ManagementError (Store ω)
  | .edit e => Management.edit st e
  | .insert account => insertWithId d st account false
  | .insertGenerated account => insertWithId d st account true

/-- The account as the provider of a context is asked about it, if it can be. -/
abbrev Context (ω : Type) := Account ω → Except ManagementError (Account ω)

inductive Call (ω : Type) where
  | write (w : Write ω)
  /-- `force` says which exchange the provider is asked for. -/
  | probe (context : Context ω) (id : String) (force : Bool)

/-- How a token exchange ended, within its timeout or not. -/
inductive Exchange where
  | completed (outcome : RefreshOutcome)
  | failed
  deriving DecidableEq

end

/-! ## Probes -/

structure MeteredBucket where
  label : String
  remaining : Nat
  entitlement : Option Nat
  deriving DecidableEq

structure QuotaSnapshot (β : Type) where
  plan : Option String
  headline : Option String
  resetDate : Option String
  metered : Option MeteredBucket
  secondary : List β

structure AccountProbe (β : Type) where
  checkedAt : Int
  authentication : String := "unverified"
  quotaStatus : String := "unavailable"
  plan : Option String := none
  headline : Option String := none
  resetDate : Option String := none
  metered : Option MeteredBucket := none
  secondary : List β := []
  message : Option String := none

inductive Verification where
  | verified
  | unsupported
  | failed
  deriving DecidableEq

inductive Quota (β : Type) where
  | snapshot (quota : QuotaSnapshot β)
  | unsupported
  | unavailable

section

variable {β : Type}

def AccountProbe.refreshFailed (result : AccountProbe β) : AccountProbe β :=
  { result with
    authentication := "failed"
    message := some "Credential refresh failed or timed out. Try signing in again." }

def AccountProbe.verify (result : AccountProbe β) : Verification → AccountProbe β
  | .verified => { result with authentication := "verified" }
  | .unsupported => result
  | .failed =>
    { result with
      authentication := "failed"
      message := some "Credential verification failed or timed out." }

def AccountProbe.quota (result : AccountProbe β) : Quota β → AccountProbe β
  | .snapshot quota =>
    { result with
      quotaStatus :=
        if quota.plan.isNone && quota.headline.isNone && quota.metered.isNone &&
          quota.secondary.isEmpty then "unsupported" else "available"
      plan := quota.plan
      headline := quota.headline
      resetDate := quota.resetDate
      metered := quota.metered
      secondary := quota.secondary }
  | .unsupported => { result with quotaStatus := "unsupported" }
  | .unavailable =>
    { result with
      message := some "Provider quota is currently unavailable. Local usage is still available." }

end

/-! ## The lock and the files -/

section

variable {ω : Type} (y : Yaml (Fields ω))

def loadLocked (d : Disk) : Except AuthError (Store ω) := do
  Tokn.Auth.validateDirectAuthLayout d
  AuthStore.load y d

/-- `save_locked`: the files after it. -/
def saveLocked (st : Store ω) (d : Disk) : Except AuthError Disk :=
  match (AuthStore.save y).outcome ⟨st, d⟩ with
  | (.ok (), w) => .ok w.disk
  | (.error e, _) => .error e

/-- What a probe starts with: the place of the account, and the account as the provider sees it. -/
def startProbe (st : Store ω) (context : Context ω) (id : String) :
    Except ManagementError (Nat × Account ω) :=
  match st.accounts.findIdx? fun account => account.id = id with
  | none => .error .noLongerExists
  | some index =>
    match st.accounts[index]? with
    | none => .error .noLongerExists
    | some account => (context account).map fun account => (index, account)

/-- The files after an exchange that ended. -/
def saveExchange (st : Store ω) (d : Disk) (index : Nat) (now : Int) :
    Exchange → Except AuthError Disk
  | .completed (.refreshed a e r i u p) =>
    saveLocked y { st with
      accounts := st.accounts.modify index (refreshed (.refreshed a e r i u p) now) } d
  | .completed .unchanged | .completed .notApplicable | .failed => .ok d

/-- A call that nobody disturbs: the files after it. -/
def alone (call : Call ω) (exchange : Exchange × Int) (d : Disk) :
    Except ManagementError Disk := do
  ofStore (Tokn.Auth.validateDirectAuthLayout d)
  let st ← ofStore (loadLocked y d)
  match call with
  | .write w => do
    let st ← w.perform d st
    ofStore (saveLocked y st d)
  | .probe context id _ => do
    let (index, _) ← startProbe st context id
    ofStore (saveExchange y st d index exchange.2 exchange.1)

end

/-! ## Interleavings -/

section

variable (ω β : Type)

/-- What the call that has the lock has done. -/
inductive Holder where
  | entered (call : Call ω)
  | writing (store : Store ω) (w : Write ω)
  | exchanging (store : Store ω) (context : Context ω) (id : String) (force : Bool) (index : Nat)
      (account : Account ω) (result : AccountProbe β)
  /-- The exchange has been saved. -/
  | exchanged (context : Context ω) (id : String) (force : Bool) (outcome : RefreshOutcome)
      (now : Int) (account : Account ω) (result : AccountProbe β)

/-- Where a call is that has given the lock back. -/
inductive Progress where
  | verifying (account : Account ω) (result : AccountProbe β)
  | checkingQuota (account : Account ω) (result : AccountProbe β)
  | returned (answer : Except ManagementError (Option (AccountProbe β)))

/-- A call that had the lock. -/
structure Entry where
  call : Call ω
  /-- How the exchange of a probe ended, and when. -/
  exchange : Exchange × Int := (.failed, 0)
  progress : Progress ω β

structure System where
  disk : Disk
  holder : Option (Holder ω β) := none
  /-- The calls that had the lock, in their order. -/
  history : List (Entry ω β) := []
  /-- The calls that did not get the lock, with what they returned. -/
  refused : List (Call ω × ManagementError) := []

inductive Action where
  /-- Some process makes a call. Before it tries the lock it may fail to open it. -/
  | acquire (call : Call ω) (fault : Option String)
  | load (now : Int)
  | write
  | exchange (result : Exchange) (now : Int)
  | release
  | verify (place : Nat) (verification : Verification)
  | quota (place : Nat) (quota : Quota β)

end

section

variable {ω β : Type} (y : Yaml (Fields ω))

/-- The lock is given back, and the call has returned or goes on without it. -/
def System.close (s : System ω β) (entry : Entry ω β) : System ω β :=
  { s with holder := none, history := s.history ++ [entry] }

def System.refuse (s : System ω β) (call : Call ω) (e : ManagementError) : System ω β :=
  { s with refused := s.refused ++ [(call, e)] }

def System.advance (s : System ω β) (place : Nat) (progress : Progress ω β) : System ω β :=
  { s with history := s.history.modify place fun entry => { entry with progress := progress } }

/-- `AuthStoreLock::acquire`, which does not wait. -/
def acquire (s : System ω β) (call : Call ω) (fault : Option String) : System ω β :=
  match fault with
  | some message => s.refuse call (.io message)
  | none =>
    match s.holder with
    | some _ => s.refuse call .busy
    | none =>
      match Tokn.Auth.validateDirectAuthLayout s.disk with
      | .error e => s.refuse call (.store e)
      | .ok () => { s with holder := some (.entered call) }

/-- The call that has the lock reads the files. -/
def load (s : System ω β) (call : Call ω) (now : Int) : System ω β :=
  match loadLocked y s.disk with
  | .error e => s.close { call := call, progress := .returned (.error (.store e)) }
  | .ok st =>
    match call with
    | .write w => { s with holder := some (.writing st w) }
    | .probe context id force =>
      match startProbe st context id with
      | .error e => s.close { call := call, progress := .returned (.error e) }
      | .ok (index, account) =>
        { s with
          holder := some (.exchanging st context id force index account { checkedAt := now }) }

/-- An operation is performed, saved, and returns. -/
def write (s : System ω β) (st : Store ω) (w : Write ω) : Option (System ω β) :=
  match w.perform s.disk st with
  | .error e => some (s.close { call := .write w, progress := .returned (.error e) })
  | .ok st =>
    match saveLocked y st s.disk with
    | .error _ => none
    | .ok d =>
      some ({ s with disk := d }.close { call := .write w, progress := .returned (.ok none) })

/-- What a probe says of an exchange that completed. -/
def AccountProbe.exchanged (result : AccountProbe β) (account : Account ω)
    (outcome : RefreshOutcome) (now : Int) : AccountProbe β :=
  if (outcome.applyTo now account.rest).1 then { result with authentication := "verified" }
  else if account.rest.refreshToken.isSome then { result with authentication := "current" }
  else result

/-- The exchange of a probe ends. One that failed ends the probe. -/
def exchange (s : System ω β) (st : Store ω) (context : Context ω) (id : String) (force : Bool)
    (index : Nat) (account : Account ω) (result : AccountProbe β) (e : Exchange) (now : Int) :
    Option (System ω β) :=
  match e with
  | .failed =>
    some (s.close {
      call := .probe context id force
      exchange := (.failed, now)
      progress := .returned (.ok (some result.refreshFailed)) })
  | .completed outcome =>
    match saveExchange y st s.disk index now (.completed outcome) with
    | .error _ => none
    | .ok d =>
      some { s with
        disk := d
        holder := some (.exchanged context id force outcome now (refreshed outcome now account)
          (result.exchanged account outcome now)) }

/-- One step of some call. A save that fails is not taken. -/
def step (s : System ω β) : Action ω β → Option (System ω β)
  | .acquire call fault => some (acquire s call fault)
  | .load now =>
    match s.holder with
    | some (.entered call) => some (load y s call now)
    | _ => none
  | .write =>
    match s.holder with
    | some (.writing st w) => write y s st w
    | _ => none
  | .exchange e now =>
    match s.holder with
    | some (.exchanging st context id force index account result) =>
      exchange y s st context id force index account result e now
    | _ => none
  | .release =>
    match s.holder with
    | some (.exchanged context id force outcome now account result) =>
      some (s.close {
        call := .probe context id force
        exchange := (.completed outcome, now)
        progress := .verifying account result })
    | _ => none
  | .verify place verification =>
    match (s.history[place]?).map Entry.progress with
    | some (.verifying account result) =>
      let result :=
        if account.rest.refreshToken.isNone then result.verify verification else result
      some (s.advance place (.checkingQuota account result))
    | _ => none
  | .quota place quota =>
    match (s.history[place]?).map Entry.progress with
    | some (.checkingQuota _ result) =>
      some (s.advance place (.returned (.ok (some (result.quota quota)))))
    | _ => none

/-- The runs on a store that nobody has locked. -/
abbrev exec (first : Disk) (actions : List (Action ω β)) : Option (System ω β) :=
  Machine.exec (step y) { disk := first } actions

/-! ## One call after the other -/

/-- The call returned an error. -/
def Entry.failed (entry : Entry ω β) : Bool :=
  match entry.progress with
  | .returned (.error _) => true
  | _ => false

/-- The call returned, and no error. -/
def Entry.succeeded (entry : Entry ω β) : Bool :=
  match entry.progress with
  | .returned (.ok _) => true
  | _ => false

/-- Every call has returned. -/
def System.Quiet (s : System ω β) : Prop :=
  s.holder = none ∧ ∀ entry ∈ s.history, ∃ answer, entry.progress = .returned answer

/-- The files after the calls, one after the other. -/
def replay (first : Disk) (entries : List (Entry ω β)) : Except ManagementError Disk :=
  entries.foldlM (fun d entry => alone y entry.call entry.exchange d) first

end

end Tokn.Accounts.Management
