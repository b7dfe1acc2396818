import Tokn.Policy.Route

/-!
# Route plans

`crates/policy/src/route.rs`: what a compiled route does with the destination and the credentials of
a request, and which providers it allows.
-/

namespace Tokn.Policy

inductive RelayDestination where
  | original
  | fixedProvider (provider : String)
  deriving DecidableEq

inductive RelayCredentials where
  | client
  | accountPool
  deriving DecidableEq

structure RelayRoute where
  destination : RelayDestination
  credentials : RelayCredentials
  providers : Option (List String) := none
  deriving DecidableEq

inductive RoutePlan where
  | managed (route : ManagedRoute)
  | relay (route : RelayRoute)
  deriving DecidableEq

inductive CredentialPolicy where
  | account
  | client
  deriving DecidableEq

inductive DestinationPolicy where
  | selectedProvider
  | original
  deriving DecidableEq

namespace RoutePlan

def providers : RoutePlan → Option (List String)
  | .managed route => route.providers
  | .relay route => route.providers

def allowsProvider (plan : RoutePlan) (provider : String) : Bool :=
  plan.providers.all fun allowed => allowed.contains provider

def credentialPolicy : RoutePlan → CredentialPolicy
  | .managed _ => .account
  | .relay route =>
    match route.credentials with
    | .client => .client
    | .accountPool => .account

def destinationPolicy : RoutePlan → DestinationPolicy
  | .managed _ => .selectedProvider
  | .relay route =>
    match route.destination with
    | .fixedProvider _ => .selectedProvider
    | .original => .original

end RoutePlan

end Tokn.Policy
