import Tokn.Accounts.Selection
import Tokn.Policy.RoutePlan

/-!
# Plans of resources

`crates/policy/src/topology.rs` and `crates/policy/src/route.rs`: the providers, the account pools and
the retry policies of a compiled configuration.
-/

namespace Tokn.Policy

open Tokn.Accounts (DURATION_MAX Duration SessionAffinityPlan)

/-! ## Durations -/

def NANOS_PER_SEC : Nat := 10 ^ 9

theorem toNat_mul_le_max (secs : UInt64) {nanos : Nat} (h : nanos ≤ NANOS_PER_SEC) :
    secs.toNat * nanos ≤ DURATION_MAX := by
  have hsecs : secs.toNat ≤ 2 ^ 64 - 1 := Nat.le_sub_one_of_lt secs.toNat_lt
  refine (Nat.mul_le_mul hsecs h).trans ?_
  rw [NANOS_PER_SEC, DURATION_MAX]
  omega

/-- `Duration::from_secs`. -/
def durationFromSecs (secs : UInt64) : Duration where
  nanos := secs.toNat * NANOS_PER_SEC
  le_max := toNat_mul_le_max secs le_rfl

theorem millis_le : 10 ^ 6 ≤ NANOS_PER_SEC := by decide

/-- `Duration::from_millis`. -/
def durationFromMillis (millis : UInt64) : Duration where
  nanos := millis.toNat * 10 ^ 6
  le_max := toNat_mul_le_max millis millis_le

/-! ## Plans -/

structure ProviderPlan where
  driver : String
  baseUrl : Option String
  origins : List String
  allowInsecureHttp : Bool
  deriving DecidableEq

/-- Which accounts a pool may use. A dimension that is not given is not restricted. -/
structure AccountSelector where
  providers : Option (Finset String)
  accounts : Option (Finset String)
  deriving DecidableEq

inductive AccountSelectionStrategy where
  | roundRobin
  deriving DecidableEq

structure AccountPoolPlan where
  selector : AccountSelector
  strategy : AccountSelectionStrategy
  failureCooldown : Duration
  sessionAffinity : Option SessionAffinityPlan

structure RetryPolicyPlan where
  maxRetries : UInt32
  initialBackoff : Duration

/-- `ManagedRetry` and `RelayRetry`. -/
inductive RouteRetry where
  | never
  | recoverable (policy : String)
  | safeMethods (policy : String)
  | buffered (policy : String)
  deriving DecidableEq

def RouteRetry.policy : RouteRetry → Option String
  | .never => none
  | .recoverable policy => some policy
  | .safeMethods policy => some policy
  | .buffered policy => some policy

inductive WireIdentity where
  | none
  | providerDefault
  | named (id : String)
  deriving DecidableEq

/-! ## Presets -/

structure OfficialProviderPreset where
  id : String
  driver : String
  deriving DecidableEq

def OFFICIAL_PROVIDER_PRESETS : List OfficialProviderPreset :=
  [⟨"codex", "codex"⟩, ⟨"deepseek", "deepseek"⟩, ⟨"github-copilot", "github-copilot"⟩,
    ⟨"llama-cpp", "llama-cpp"⟩, ⟨"openai", "openai"⟩, ⟨"opencode-go", "opencode-go"⟩,
    ⟨"zai", "zai"⟩, ⟨"zai-coding-plan", "zai"⟩, ⟨"zhipuai", "zai"⟩,
    ⟨"zhipuai-coding-plan", "zai"⟩]

def officialProviderPreset (id : String) : Option OfficialProviderPreset :=
  OFFICIAL_PROVIDER_PRESETS.find? fun preset => preset.id = id

inductive CleartextHttpPolicy where
  | loopbackOnly
  | allow
  deriving DecidableEq

def cleartextPolicy (allowInsecureHttp : Bool) : CleartextHttpPolicy :=
  if allowInsecureHttp then .allow else .loopbackOnly

end Tokn.Policy
