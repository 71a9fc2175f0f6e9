import EndaraRelay.Lib.Transition
import EndaraRelay.Lib.Pool
import EndaraRelay.Lib.Percent
import EndaraRelay.Lib.Table
import EndaraRelay.Lib.Delimiter
import EndaraRelay.Lib.AuthParam
import EndaraRelay.Lib.Clock
import EndaraRelay.Lib.Utf8
import EndaraRelay.Lib.Keyset
import EndaraRelay.Lib.Like
import EndaraRelay.Json
import EndaraRelay.Adapter
import EndaraRelay.Text
import EndaraRelay.Prefix
import EndaraRelay.ResourceUri
import EndaraRelay.ToolCallRewrite
import EndaraRelay.JsonPaths
import EndaraRelay.RewrittenSlots
import EndaraRelay.ToonConvert
import EndaraRelay.Lib.Ecma
import EndaraRelay.SandboxPrelude
import EndaraRelay.Config
import EndaraRelay.ConfigLoading
import EndaraRelay.ConfigResolution
import EndaraRelay.HeaderTemplates
import EndaraRelay.Registry
import EndaraRelay.ResourceRoundTrip
import EndaraRelay.CatalogNames
import EndaraRelay.CatalogCache
import EndaraRelay.CatalogRebuild
import EndaraRelay.CatalogQuiescence
import EndaraRelay.CatalogServed
import EndaraRelay.ToolCache
import EndaraRelay.SearchIndex
import EndaraRelay.ServerTypes
import EndaraRelay.IdentifierWords
import EndaraRelay.SchemaCache
import EndaraRelay.ProfileView
import EndaraRelay.ProfileRegistry
import EndaraRelay.ProfileResources
import EndaraRelay.ProfileDispatch
import EndaraRelay.Lib.UriTemplate
import EndaraRelay.Lib.UriTemplate.Escaping
import EndaraRelay.Lib.UriTemplate.Characters
import EndaraRelay.ResourceTemplates
import EndaraRelay.AdapterConstruction
import EndaraRelay.Reload
import EndaraRelay.ReloadEqualsColdStart
import EndaraRelay.ReloadRace
import EndaraRelay.OAuth.Refresh
import EndaraRelay.OAuth.Adapter
import EndaraRelay.OAuth.Interleaving
import EndaraRelay.OAuth.GrantEpoch
import EndaraRelay.OAuth.Shutdown
import EndaraRelay.OAuth.Lifecycle
import EndaraRelay.OAuth.Replay
import EndaraRelay.OAuth.Deadline
import EndaraRelay.Lib.Base64
import EndaraRelay.Lib.UnixPath
import EndaraRelay.TokenPaths
import EndaraRelay.EndpointNames
import EndaraRelay.TokenSaves
import EndaraRelay.ClientRecords
import EndaraRelay.CredentialMerge
import EndaraRelay.OAuth.Failure
import EndaraRelay.Observability.Payloads
import EndaraRelay.Lib.Int64
import EndaraRelay.Observability.Store
import EndaraRelay.Observability.Retention
import EndaraRelay.Lib.NearestRank
import EndaraRelay.Observability.Aggregate
import EndaraRelay.Observability.AggregateTotality
import EndaraRelay.OAuth.Heartbeat
import EndaraRelay.Lib.FileTree
import EndaraRelay.Lib.FileTree.Walks
import EndaraRelay.WritePaths
import EndaraRelay.WriteAtomic
import EndaraRelay.WriteContainment
import EndaraRelay.ReadContainment
import EndaraRelay.Lib.Utf8.Lossy
import EndaraRelay.Lib.Utf8.Blurred
import EndaraRelay.Lib.Lines
import EndaraRelay.EventStream
import EndaraRelay.JsonRpc
import EndaraRelay.MessageDispatch
import EndaraRelay.PendingRequests
import EndaraRelay.Lib.Base64.Standard
import EndaraRelay.FileQuotas
import EndaraRelay.Observability.Pipeline
import EndaraRelay.CatalogTtl
import EndaraRelay.Http.Challenges
import EndaraRelay.Http.ChallengeGrammar
import EndaraRelay.CrashTracker
import EndaraRelay.Http.HealthReads
import EndaraRelay.Http.FailureCounter
import EndaraRelay.Http.Retried
import EndaraRelay.Http.Attribution
import EndaraRelay.Http.FailedAttempts
import EndaraRelay.Http.ListenerRenewal
import EndaraRelay.ReloadPaths
import EndaraRelay.Lib.Edits
import EndaraRelay.ConfigEditsKept
import EndaraRelay.ClientWriters
import EndaraRelay.LoginClient
import EndaraRelay.LoginCommits
import EndaraRelay.ResetRegistration
import EndaraRelay.SetupTokens
import EndaraRelay.SetupStore
import EndaraRelay.ConfigFileReads
import EndaraRelay.ConfigDocumentEdits
import EndaraRelay.ConfigLoadable
import EndaraRelay.EndpointChanges
import EndaraRelay.AdapterOwners
import EndaraRelay.ToolsCall
import EndaraRelay.OAuth.GuardedCalls
import EndaraRelay.Lib.Ip
import EndaraRelay.OAuth.UrlGuard
import EndaraRelay.ToolCallEvents
import EndaraRelay.ToolsListeners
import EndaraRelay.OAuthHandles
import EndaraRelay.IdpRefresh
import EndaraRelay.OrganizationPurge
import EndaraRelay.TokenBinding
import EndaraRelay.Lib.RwLock
import EndaraRelay.EntriesLock
import EndaraRelay.LocalhostOrigin
import EndaraRelay.Lib.Lru
import EndaraRelay.SessionIdentities
import EndaraRelay.MessageBatches
import EndaraRelay.SetupExclusion
import EndaraRelay.OAuth.Discovery
import EndaraRelay.Lib.Program
import EndaraRelay.OAuth.EmaChain
import EndaraRelay.OAuth.EmaSecrets
import EndaraRelay.OAuth.TokenResponses
import EndaraRelay.OAuth.TokenTimes
import EndaraRelay.OAuth.EmaPersistence
import EndaraRelay.PostStreams
import EndaraRelay.Lib.History
import EndaraRelay.OAuth.FlowManager
import EndaraRelay.OAuth.FlowThreads
import EndaraRelay.OAuth.FlowLocks
import EndaraRelay.ResetFlows
import EndaraRelay.Advertise
import EndaraRelay.Lib.Broadcast
import EndaraRelay.ProfileListing
import EndaraRelay.ProfileRebuild
import EndaraRelay.SandboxRetries
import EndaraRelay.ProfileStreams
import EndaraRelay.OAuth.AuthorizeUrls
import EndaraRelay.OAuth.IssuerSlugs
import EndaraRelay.Http.ChallengeGrammar
import EndaraRelay.CrashTracker
