import KineticSdk.Conversation.Cap
import KineticSdk.Context.Pairing
import KineticSdk.Files.RoundTrip
import KineticSdk.Files.Rollback
import KineticSdk.Agent.Pairing
import KineticSdk.Agent.Session
import KineticSdk.Agent.Parallel
import KineticSdk.Agent.Verified
import KineticSdk.Agent.Structured
import KineticSdk.Agent.Escalation
import KineticSdk.Agent.Sticky
import KineticSdk.Agent.Served
import KineticSdk.Agent.Declined
import KineticSdk.Agent.Inbox
import KineticSdk.Agent.Budget
import KineticSdk.Agent.Unbroken
import KineticSdk.Agent.Persist
import KineticSdk.Agent.Crash
import KineticSdk.Replay.Immutable
import KineticSdk.Replay.Together
import KineticSdk.Replay.Unmarked
import KineticSdk.Subagent.Liveness
import KineticSdk.Security.Secrecy
import KineticSdk.Mcp.Serve
import KineticSdk.Mcp.Client
import KineticSdk.Llm.Streaming
import KineticSdk.Llm.Translation
import KineticSdk.Server.Interleaving
import KineticSdk.Subagent.Accounting
import KineticSdk.Tool.Conformance
import KineticSdk.Files.Serializable
import KineticSdk.Server.Runs
import KineticSdk.Todo.Tool
import KineticSdk.Memory.JsonFile
import KineticSdk.Files.Sections
import KineticSdk.Files.Regions
import KineticSdk.Observability.WellFormed
import KineticSdk.Skills.Registry
import KineticSdk.Plugin.Scanned
import KineticSdk.Files.Reindent
import KineticSdk.Files.RemoteWorkspace
import KineticSdk.Files.Snapshots
import KineticSdk.Context.Growth
import KineticSdk.Context.Sections
import KineticSdk.Context.Progressive
import KineticSdk.Agent.Fence
import KineticSdk.Conversation.Rewind
import KineticSdk.Llm.Usage
import KineticSdk.Security.Marked
import KineticSdk.Mcp.Scrubbed
import KineticSdk.Mcp.Registry
import KineticSdk.Mcp.Sse
import KineticSdk.Security.Confirmation
import KineticSdk.Security.Containment
import KineticSdk.Context.Requests
import KineticSdk.Py.Greedy
import KineticSdk.Security.Assigned
import KineticSdk.Lib.Window
import KineticSdk.Server.RateLimit
import KineticSdk.Server.WebSocket
import KineticSdk.Server.Http
import KineticSdk.Server.Responses
import KineticSdk.Agent.Breaker
import KineticSdk.Lib.Bfs
import KineticSdk.Codemap.Models
import KineticSdk.Memory.Failing
import KineticSdk.Todo.Extend
import KineticSdk.Plugin.Audited
import KineticSdk.Codemap.Builder
import KineticSdk.Codemap.Resolution
import KineticSdk.Lib.Traverse
import KineticSdk.Py.JsonCompact
import KineticSdk.Agent.StuckDetector
import KineticSdk.Lib.Preorder
import KineticSdk.Llm.Registry
import KineticSdk.Py.Members
import KineticSdk.Git.Tool
import KineticSdk.Files.Sidecar
import KineticSdk.Skills.ZipLoader
import KineticSdk.Agent.ParseStructured
import KineticSdk.Skills.Intake
import KineticSdk.Plugin.Visitor
import KineticSdk.Lib.Memo
import KineticSdk.Codemap.Cache
import KineticSdk.Codemap.Tool
import KineticSdk.Lib.Ranking
import KineticSdk.Memory.Vector
import KineticSdk.Memory.Tool
import KineticSdk.Py.Shell
import KineticSdk.Files.KubernetesWorkspace
import KineticSdk.Lib.Framing
import KineticSdk.Mcp.Stdio
