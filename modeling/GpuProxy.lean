import GpuProxy.Runs
import GpuProxy.Table
import GpuProxy.Program
import GpuProxy.Base64
import GpuProxy.Entity
import GpuProxy.Utils
import GpuProxy.DbOps
import GpuProxy.Resource
import GpuProxy.FileTree
import GpuProxy.FileResource
import GpuProxy.FileWrite
import GpuProxy.Storage
import GpuProxy.Rpc
import GpuProxy.Assignee
import GpuProxy.Inputs
import GpuProxy.Submission
import GpuProxy.Dispatch
import GpuProxy.Worker
import GpuProxy.Plugin
import GpuProxy.System
import GpuProxy.Holders
import GpuProxy.Custody
import GpuProxy.Finality
import GpuProxy.Revival
import GpuProxy.Provenance
import GpuProxy.Recording
import GpuProxy.Reclaim
import GpuProxy.Backends
import GpuProxy.Records
import GpuProxy.Tracing
import GpuProxy.Freshness
import GpuProxy.Capacity
import GpuProxy.Registry
import GpuProxy.JsonText
import GpuProxy.PluginOutput
import GpuProxy.Completeness
import GpuProxy.FinishedStores
import GpuProxy.PluginOut
import GpuProxy.PluginRun
import GpuProxy.TaskIds
import GpuProxy.Offline
import GpuProxy.Schema
import GpuProxy.Base64Byte
import GpuProxy.Listing
import GpuProxy.ParamsFetch
import GpuProxy.Ordering
import GpuProxy.Recovery
import GpuProxy.Contention
import GpuProxy.Draining
import GpuProxy.Progress
import GpuProxy.Completion
import GpuProxy.HttpServer
import GpuProxy.Serde
import GpuProxy.ProxyRpc
import GpuProxy.Batches
import GpuProxy.Replies
import GpuProxy.WorkerIds
import GpuProxy.Directory
import GpuProxy.Reports
import GpuProxy.RemoteCalls
import GpuProxy.Scripts
import GpuProxy.Migrations
import GpuProxy.Permanence
import GpuProxy.ParamsRounds
import GpuProxy.Linearization
import GpuProxy.Statements
import GpuProxy.Realization
