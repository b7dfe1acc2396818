import Tokn.Lib.Machine
import Tokn.Convert.ResponsesEmitterProof
import Tokn.Convert.Lifecycle
import Tokn.Convert.ToolCalls
import Tokn.Convert.Buffered
import Tokn.Convert.ToResponses
import Tokn.Requests.Streaming
import Tokn.Policy.RoundTrip
import Tokn.Persistence.SessionSummary
import Tokn.Persistence.SessionCapture
import Tokn.Persistence.UsageRounds
import Tokn.Persistence.PruneProof
import Tokn.Accounts.PoolAgreement
import Tokn.Auth.PartialSave
import Tokn.Access.Authenticate
import Tokn.Router.Reachable
import Tokn.Router.HexCase
import Tokn.Router.ReloadProof
import Tokn.Migration.Retry
import Tokn.Persistence.MigrateRace
import Tokn.Core.EventBusProof
import Tokn.Router.ApiListenerProof
import Tokn.Router.LegacyProxyProof
import Tokn.Legacy.ProjectionProof
import Tokn.Accounts.Affinity
import Tokn.Policy.Route
import Tokn.Accounts.Cooldowns
import Tokn.Accounts.SharedRotation
import Tokn.Router.Mounts
import Tokn.Convert.WireCalls
import Tokn.Convert.AccumulatedCalls
import Tokn.Convert.EmitterRoundTrip
import Tokn.Accounts.ManagementProof
import Tokn.Policy.Subsumption
import Tokn.Convert.ChunkRoundTrip
import Tokn.Convert.ResponseRoundTrip
import Tokn.Convert.ToolInputs
import Tokn.Convert.ChatToMessages
import Tokn.Convert.InputToChat
import Tokn.Requests.Lowered
import Tokn.Convert.ToolShapes
import Tokn.Convert.SseRoundTrip
import Tokn.Convert.ObservedRuns
import Tokn.Persistence.UsageTotals
import Tokn.Persistence.RecordedParts
import Tokn.Requests.SendErrors
import Tokn.Accounts.HealthyPicks
import Tokn.Headers.Stored
import Tokn.Headers.ContentEncoding
import Tokn.Migration.LatestManifest
import Tokn.Core.Glob
import Tokn.Accounts.InstantAdd
import Tokn.Persistence.DayCache
import Tokn.Router.AccountRelay
import Tokn.Providers.TokenPairing
import Tokn.Persistence.AncestryRun
import Tokn.Router.SelectorProof
import Tokn.Accounts.ProviderGraph
import Tokn.Config.ResourcesProof
import Tokn.Router.DiscoveryProof
import Tokn.Sdk.StreamAgreement
