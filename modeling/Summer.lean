import Summer.App.Added
import Summer.App.BuildPlugins
import Summer.App.Builder
import Summer.App.ComponentRuns
import Summer.App.Components
import Summer.App.Dependencies
import Summer.App.InnerRun
import Summer.App.Lifecycle
import Summer.App.Plugin
import Summer.App.Refinement
import Summer.App.Schedule
import Summer.Config.Interpolate
import Summer.Config.LaterWins
import Summer.Config.Placeholder
import Summer.Config.Places
import Summer.Config.Toml
import Summer.Event.Bus
import Summer.Inject.AutoInject
import Summer.Inject.Confluence
import Summer.Inject.Installable
import Summer.Inject.Lazy
import Summer.Inject.Service
import Summer.Job.Shutdown
import Summer.Lib.Assignments
import Summer.Lib.AtomicCalls
import Summer.Lib.Batches
import Summer.Lib.Cells
import Summer.Lib.Chaining
import Summer.Lib.History
import Summer.Lib.IndexMap
import Summer.Lib.Lines
import Summer.Lib.Matching
import Summer.Lib.Paging
import Summer.Lib.Run
import Summer.Lib.RwLock
import Summer.Lib.SharedStore
import Summer.Lib.Staging
import Summer.Lib.TaskLocal
import Summer.Lib.TomlString
import Summer.Lib.TomlToken
import Summer.Log.Bootstrap
import Summer.Log.Slots
import Summer.Macros.AutoConfig
import Summer.Macros.Cache
import Summer.Macros.CacheArgs
import Summer.Macros.CacheRuns
import Summer.Macros.Component
import Summer.Macros.ComponentOrder
import Summer.Macros.ComponentPlugins
import Summer.Macros.DocAttributes
import Summer.Macros.DocLines
import Summer.Macros.DocMetadata
import Summer.Macros.Inject
import Summer.Macros.Install
import Summer.Macros.Layered
import Summer.Macros.Middlewares
import Summer.Macros.Nest
import Summer.Macros.NothingLost
import Summer.Macros.OperationIds
import Summer.Macros.ProblemDetails
import Summer.Macros.ProblemDetailsFields
import Summer.Macros.Route
import Summer.Macros.ServiceAttr
import Summer.Macros.StreamListener
import Summer.Macros.Syntax
import Summer.Macros.Wrappers
import Summer.Nacos.Registration
import Summer.Nacos.Serving
import Summer.OpenTelemetry.Metrics
import Summer.OpenTelemetry.SpanOutcomes
import Summer.OpenTelemetry.Trace
import Summer.Plugins.ByCalls
import Summer.Plugins.Configurators
import Summer.Plugins.LateStaging
import Summer.Plugins.LazyHandlers
import Summer.SeaOrm.PageNumbers
import Summer.SeaOrm.Pagination
import Summer.Stream.Consumer
import Summer.Stream.Options
import Summer.Stream.Precedence
import Summer.Stream.RedisSettings
import Summer.Web.Assembly
import Summer.Web.Behind
import Summer.Web.Instance
import Summer.Web.MergedResponses
import Summer.Web.OpenApi
import Summer.Web.Prefixes
import Summer.Web.ProblemDetails
import Summer.Web.Responses
import Summer.Web.RoundTrip
import Summer.Web.Router
