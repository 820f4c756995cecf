import Rs2Runtime.Adapters.AtomicWrite
import Rs2Runtime.Adapters.Containment
import Rs2Runtime.Adapters.LocalFs
import Rs2Runtime.Adapters.MemData
import Rs2Runtime.Adapters.Pages
import Rs2Runtime.Capabilities.FileStore
import Rs2Runtime.Cli.SyncPlan
import Rs2Runtime.Data.Completion
import Rs2Runtime.Data.Effect
import Rs2Runtime.Data.Expiring
import Rs2Runtime.Data.FileTree
import Rs2Runtime.Data.Machine
import Rs2Runtime.Data.OrderedMap
import Rs2Runtime.Data.Outcome
import Rs2Runtime.Data.Table
import Rs2Runtime.Data.Traced
import Rs2Runtime.Data.Visibility
import Rs2Runtime.Guest.ImageCache
import Rs2Runtime.Guest.ImageRequests
import Rs2Runtime.Guest.Sockets
import Rs2Runtime.Idempotency.Ownership
import Rs2Runtime.Idempotency.Replay
import Rs2Runtime.Idempotency.Store
import Rs2Runtime.Json.Codec
import Rs2Runtime.Json.Double
import Rs2Runtime.Json.Rounding
import Rs2Runtime.Json.Value
import Rs2Runtime.Listing
import Rs2Runtime.ListingOrder
import Rs2Runtime.ListingProjection
import Rs2Runtime.Message.Basic
import Rs2Runtime.Message.Error
import Rs2Runtime.Message.MediaType
import Rs2Runtime.Message.Stream
import Rs2Runtime.Outbound.Dispatch
import Rs2Runtime.Outbound.HostBinding
import Rs2Runtime.PathPattern.Basic
import Rs2Runtime.PathPattern.Elision
import Rs2Runtime.PathPattern.Routing
import Rs2Runtime.PathPattern.Validation
import Rs2Runtime.Pipeline.AtMostOnce
import Rs2Runtime.Pipeline.BinaryBodies
import Rs2Runtime.Pipeline.Call
import Rs2Runtime.Pipeline.Condition
import Rs2Runtime.Pipeline.Executor
import Rs2Runtime.Pipeline.IdempotencyKeys
import Rs2Runtime.Pipeline.Identity
import Rs2Runtime.Pipeline.InFlight
import Rs2Runtime.Pipeline.Invariant
import Rs2Runtime.Pipeline.Locality
import Rs2Runtime.Pipeline.Modifiers
import Rs2Runtime.Pipeline.Place
import Rs2Runtime.Pipeline.Retry
import Rs2Runtime.Pipeline.SegmentPlan
import Rs2Runtime.Pipeline.SegmentRetry
import Rs2Runtime.Pipeline.Spec
import Rs2Runtime.Pipeline.SplitJoin
import Rs2Runtime.Pipeline.Tee
import Rs2Runtime.Pipeline.Transform
import Rs2Runtime.Router.Mounts
import Rs2Runtime.Router.Path
import Rs2Runtime.Router.Segments
import Rs2Runtime.Runtime.Authentication
import Rs2Runtime.Runtime.ConfigStore
import Rs2Runtime.Runtime.CrossOrigin
import Rs2Runtime.Runtime.Discovery
import Rs2Runtime.Runtime.Dispatch
import Rs2Runtime.Runtime.PublicCaching
import Rs2Runtime.Runtime.Reload
import Rs2Runtime.Runtime.ReplayAccess
import Rs2Runtime.Runtime.SecretRoundTrip
import Rs2Runtime.Scheduler.Alarms
import Rs2Runtime.Scheduler.Cluster
import Rs2Runtime.Scheduler.Cron
import Rs2Runtime.Scheduler.Entries
import Rs2Runtime.Services.AuthoringAccess
import Rs2Runtime.Services.Conditional
import Rs2Runtime.Services.ConditionalWrites
import Rs2Runtime.Services.Data
import Rs2Runtime.Services.FieldExactness
import Rs2Runtime.Services.FieldFrame
import Rs2Runtime.Services.FieldRules
import Rs2Runtime.Services.FieldVisibility
import Rs2Runtime.Services.File
import Rs2Runtime.Services.FileMove
import Rs2Runtime.Services.FileRemoval
import Rs2Runtime.Services.FileScope
import Rs2Runtime.Services.MergePatch
import Rs2Runtime.Services.PipelineService
import Rs2Runtime.Services.QueryKeys
import Rs2Runtime.Services.QueryParams
import Rs2Runtime.Services.QuerySafety
import Rs2Runtime.Services.Secrets
import Rs2Runtime.Services.RangeReads
import Rs2Runtime.Services.SpecAuthority
import Rs2Runtime.Services.SpecResolution
import Rs2Runtime.Services.SpecStore
import Rs2Runtime.Text.Basic
import Rs2Runtime.Text.Template
import Rs2Runtime.Text.Utf8
import Rs2Runtime.Text.WebUrl
import Rs2Runtime.Worker.JsonText
import Rs2Runtime.Wrapper.Access
import Rs2Runtime.Wrapper.Breaker
import Rs2Runtime.Wrapper.Scope
import Rs2Runtime.PathPattern.Selection
import Rs2Runtime.Cli.SecretCheck
import Rs2Runtime.Cli.MirrorPaths
import Rs2Runtime.Adapters.Credential
import Rs2Runtime.Engines.ResidentPool
