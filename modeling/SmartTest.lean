import SmartTest.Lib.Dict
import SmartTest.Lib.Except
import SmartTest.Lib.Text
import SmartTest.Lib.Topo
import SmartTest.Workflow.Graph
import SmartTest.Workflow.Acyclic
import SmartTest.Workflow.Executor
import SmartTest.Workflow.Schedule
import SmartTest.Workflow.Waves
import SmartTest.Workflow.Completion
import SmartTest.Run.Protocol
import SmartTest.Run.Domain
import SmartTest.Run.Repository
import SmartTest.Run.RepositorySpec
import SmartTest.Run.Actions
import SmartTest.Run.EventStream
import SmartTest.Plan.Domain
import SmartTest.Plan.Repository
import SmartTest.Plan.Sql
import SmartTest.Plan.Idempotency
import SmartTest.Lib.Prog
import SmartTest.System.World
import SmartTest.System.Coordinator
import SmartTest.System.Manager
import SmartTest.System.LocalRunner
import SmartTest.Lib.Pool
import SmartTest.System.Calls
import SmartTest.Run.Attempts
import SmartTest.Plan.Claim
import SmartTest.System.Steps
import SmartTest.System.Interference
import SmartTest.System.Convergence
import SmartTest.System.History
import SmartTest.System.Consistency
import SmartTest.System.Rules
import SmartTest.System.Changes
import SmartTest.System.Guarantee
import SmartTest.System.Ownership
import SmartTest.System.Execution
import SmartTest.System.CallRules
import SmartTest.System.Safety
import SmartTest.Run.SqlRepository
import SmartTest.Run.Creation
import SmartTest.Lib.Json
import SmartTest.Lib.JsonText
import SmartTest.Lib.JsonRead
import SmartTest.Environment.Domain
import SmartTest.Environment.Crypto
import SmartTest.Environment.AssociatedData
import SmartTest.Environment.Repository
import SmartTest.Environment.Secrets
import SmartTest.Run.Task
import SmartTest.Broker.Grants
import SmartTest.Broker.Steps
import SmartTest.Broker.Invariant
import SmartTest.Broker.Safety
import SmartTest.Broker.Capabilities
import SmartTest.Run.Frozen
import SmartTest.Lib.JsonLines
import SmartTest.Runner.Transport
import SmartTest.Runner.RoundTrip
import SmartTest.Plan.Scripts
import SmartTest.Plan.Catalog
import SmartTest.Lib.Versioned
import SmartTest.Environment.Revisions
import SmartTest.Environment.Values
import SmartTest.Plan.CatalogInvariant
import SmartTest.Plan.Expansion
import SmartTest.Plan.Reachable
import SmartTest.Plan.SqlTables
import SmartTest.Lib.Call
import SmartTest.Plan.SqlRecords
import SmartTest.Plan.SqlExpansion
import SmartTest.Plan.Materialize
import SmartTest.Lib.JsonSize
import SmartTest.Runner.Payload
import SmartTest.Lib.Steps
import SmartTest.Load.Domain
import SmartTest.Load.Repository
import SmartTest.Load.Service
import SmartTest.Load.Convergence
import SmartTest.Load.Cancellation
import SmartTest.Load.Start
import SmartTest.Lib.Crew
import SmartTest.Load.Exchanges
import SmartTest.Load.Executor
import SmartTest.Load.Exactness
import SmartTest.Load.Workers
import SmartTest.Load.Scenarios
import SmartTest.Load.Progress
import SmartTest.Load.Templates
import SmartTest.Load.Perform
import SmartTest.Load.Containment
import SmartTest.Lib.Index
import SmartTest.Load.Store
import SmartTest.Load.Calls
import SmartTest.Load.History
import SmartTest.Parameter.Domain
import SmartTest.Parameter.Repository
import SmartTest.Parameter.Validity
import SmartTest.Connector.Repository
import SmartTest.Connector.Credentials
import SmartTest.Connector.Names
import SmartTest.Parameter.Sql
import SmartTest.Parameter.Interleaving
import SmartTest.Control.Requests
import SmartTest.Control.Supervisor
import SmartTest.Lib.Js
import SmartTest.Lib.EventSource
import SmartTest.Web.Client
import SmartTest.Web.Reads
import SmartTest.Lib.IpAddress
import SmartTest.Egress.Guards
import SmartTest.Load.Destination
import SmartTest.Load.Traffic
import SmartTest.Load.Pinned
import SmartTest.Plan.Encoding
import SmartTest.Plan.Columns
import SmartTest.Run.Touch
import SmartTest.Run.Reaper
import SmartTest.Run.Leases
import SmartTest.Run.EventLog
import SmartTest.Run.Paging
import SmartTest.Runner.Agent
import SmartTest.Runner.Numbering
import SmartTest.Runner.Http
import SmartTest.Runner.Retries
import SmartTest.Workflow.Validation
import SmartTest.Lib.TaskPool
import SmartTest.Workflow.Threads
import SmartTest.Workflow.Semantics
import SmartTest.Lib.PosixPath
import SmartTest.Source.Archive
import SmartTest.Source.Accepted
import SmartTest.Source.Workspace
import SmartTest.Source.Containment
import SmartTest.Source.Store
import SmartTest.Source.Materialized
import SmartTest.Broker.SqlGrants
import SmartTest.Broker.Agreement
import SmartTest.Lib.Scan
import SmartTest.Load.Redaction
import SmartTest.Lib.Sample
import SmartTest.Load.Figures
import SmartTest.Load.Rendering
import SmartTest.Load.Dynamic
import SmartTest.Load.Injection
import SmartTest.Load.Headers
import SmartTest.Lib.JsonPath
import SmartTest.Workflow.JsonPath
import SmartTest.Load.Extractors
import SmartTest.System.HostLock
import SmartTest.System.Artifacts
import SmartTest.Load.TextMatches
import SmartTest.Load.Secrets
import SmartTest.Broker.Mirror
import SmartTest.System.SqlStore
import SmartTest.System.StoreAgreement
import SmartTest.Source.Entrypoints
import SmartTest.Lib.Utf8
import SmartTest.Source.ChangedPaths
import SmartTest.Runner.Output
import SmartTest.Lib.SlidingWindow
import SmartTest.Auth.Throttle
import SmartTest.System.BatchDispatch
import SmartTest.Staging.Mounts
import SmartTest.Staging.Files
import SmartTest.Lib.DateTime
import SmartTest.Control.RequestFile
import SmartTest.Lib.JsonSorted
import SmartTest.Run.Fingerprint
import SmartTest.Connector.Replies
import SmartTest.Asset.Domain
import SmartTest.Asset.Repository
import SmartTest.Asset.Lives
import SmartTest.Asset.Runs
import SmartTest.Asset.Sql
import SmartTest.Asset.PlanScripts
import SmartTest.Asset.Serializable
import SmartTest.Lib.Replicas
import SmartTest.Asset.Agreement
import SmartTest.Runner.Sinks
import SmartTest.Auth.Sessions
import SmartTest.Auth.SqlSessions
import SmartTest.Connector.Discovery
