import Api2Mcp.Concurrent.Pool
import Api2Mcp.Concurrent.RelyGuarantee
import Api2Mcp.Model.Slug
import Api2Mcp.Entity.Oauth
import Api2Mcp.Store.Oauth
import Api2Mcp.Server.Oauth.Token
import Api2Mcp.Server.Oauth.Redemption
import Api2Mcp.Server.Oauth.Rotation
import Api2Mcp.Server.Oauth.RotationRuns
import Api2Mcp.Server.Oauth.Reuse
import Api2Mcp.Net.IpParser
import Api2Mcp.Interact.Prog
import Api2Mcp.Json.Pointer
import Api2Mcp.Net.Http
import Api2Mcp.Http.Ssrf
import Api2Mcp.Http.Send
import Api2Mcp.Http.Egress
import Api2Mcp.Collections.BTree
import Api2Mcp.Model.Endpoint
import Api2Mcp.Entity.Definitions
import Api2Mcp.Store.Writes
import Api2Mcp.Concurrent.Query
import Api2Mcp.Store.Definitions
import Api2Mcp.Http.UrlTemplate
import Api2Mcp.Json.Value
import Api2Mcp.Resolve.Checks
import Api2Mcp.Resolve.BuildPlan
import Api2Mcp.Resolve.Cache
import Api2Mcp.Store.ServiceToken
import Api2Mcp.Server.Auth
import Api2Mcp.Server.Mcp.Endpoint
import Api2Mcp.Concurrent.Trace
import Api2Mcp.Control.Except
import Api2Mcp.Store.Footprint
import Api2Mcp.Store.ServiceTokenRuns
import Api2Mcp.Server.Confinement
import Api2Mcp.Server.Api.Writes
import Api2Mcp.Server.Mcp.Control
import Api2Mcp.Concurrent.Monitor
import Api2Mcp.Store.Scope
import Api2Mcp.Server.Mcp.ControlRuns
import Api2Mcp.Store.Decisions
import Api2Mcp.Resolve.CacheRuns
import Api2Mcp.Concurrent.Path
import Api2Mcp.Numeric.Word
import Api2Mcp.Runtime.Budget
import Api2Mcp.Runtime.Commit
import Api2Mcp.Runtime.Metering
import Api2Mcp.Json.Number
import Api2Mcp.Schema.Validate
import Api2Mcp.Http.Bind
import Api2Mcp.Http.Contained
import Api2Mcp.Interact.Rules
import Api2Mcp.Interact.Together
import Api2Mcp.Text.Utf8
import Api2Mcp.Project.Apply
import Api2Mcp.Http.Errors
import Api2Mcp.Runtime.Dispatch
import Api2Mcp.Runtime.Batch
import Api2Mcp.Runtime.Charges
import Api2Mcp.Runtime.Schedules
import Api2Mcp.Http.Confined
import Api2Mcp.Runtime.Errors
import Api2Mcp.Script.Bridge
import Api2Mcp.Script.Run
import Api2Mcp.Runtime.Executor
import Api2Mcp.Runtime.Batches
import Api2Mcp.Runtime.Deadline
import Api2Mcp.Runtime.Origins
import Api2Mcp.Runtime.Heard
import Api2Mcp.Runtime.Audit
import Api2Mcp.Resolve.Closed
import Api2Mcp.Runtime.Callable
import Api2Mcp.Server.Mcp.Disabled
import Api2Mcp.Http.ClientRuns
import Api2Mcp.Resolve.Snapshot
import Api2Mcp.Http.Credentials
import Api2Mcp.Runtime.Scope
import Api2Mcp.Runtime.Overlap
import Api2Mcp.Runtime.Course
import Api2Mcp.Runtime.Status
import Api2Mcp.Runtime.Stop
import Api2Mcp.Entity.Users
import Api2Mcp.Store.User
import Api2Mcp.Store.UserRuns
import Api2Mcp.Collections.Sorted
import Api2Mcp.Store.Holds
import Api2Mcp.Store.Upsert
import Api2Mcp.Relational.References
import Api2Mcp.Store.Intact
import Api2Mcp.Store.Catalog
import Api2Mcp.Store.ReadBack
import Api2Mcp.Server.Oauth.Lifetimes
import Api2Mcp.Store.OauthConsents
import Api2Mcp.Server.Oauth.Authorize
import Api2Mcp.Server.Oauth.ConsentRuns
import Api2Mcp.Server.Oauth.Binding
import Api2Mcp.Store.UserInfluence
import Api2Mcp.Http.Pinned
import Api2Mcp.Net.Form
import Api2Mcp.Pack.Convert
import Api2Mcp.Pack.Validate
import Api2Mcp.Net.Whatwg
import Api2Mcp.Server.Login
import Api2Mcp.Server.LoginOidc
import Api2Mcp.Server.LoginRedirect
import Api2Mcp.Server.Mcp.Invoke
import Api2Mcp.Server.Mcp.ToolNames
import Api2Mcp.Http.Redacted
import Api2Mcp.Runtime.Replay
import Api2Mcp.Runtime.SnapshotParts
import Api2Mcp.Resolve.Tools
import Api2Mcp.Runtime.SnapshotTarget
import Api2Mcp.Runtime.Complete
import Api2Mcp.Runtime.Kinds
import Api2Mcp.Runtime.Withheld
import Api2Mcp.Schema.Typed
import Api2Mcp.Runtime.Timeouts
import Api2Mcp.Server.Expiry
import Api2Mcp.Concurrent.Faults
import Api2Mcp.Server.Oauth.Retry
import Api2Mcp.Pack.Credentials
import Api2Mcp.Server.Api.AuthProviders
import Api2Mcp.Server.Api.Credential
import Api2Mcp.Http.BasePath
import Api2Mcp.Net.WhatwgPath
import Api2Mcp.Net.WhatwgUrl
import Api2Mcp.Http.Usable
import Api2Mcp.Net.WhatwgAppend
import Api2Mcp.Server.Oauth.Redirect
import Api2Mcp.Resolve.TagExpr
import Api2Mcp.Project.Coerce
import Api2Mcp.Json.Schema
import Api2Mcp.Schema.Advertised
import Api2Mcp.Json.Nesting
import Api2Mcp.Script.Marshal
import Api2Mcp.Script.Bindings
import Api2Mcp.Script.Isolated
import Api2Mcp.Json.Literal
import Api2Mcp.Script.Serde
import Api2Mcp.Runtime.HttpStatus
import Api2Mcp.Net.Html
import Api2Mcp.Server.LoginDetour
import Api2Mcp.Server.Mcp.Handle
import Api2Mcp.Server.Mcp.Framing
import Api2Mcp.Cli.Args
import Api2Mcp.Script.Text
import Api2Mcp.Script.Timestamp
import Api2Mcp.Http.Pages
import Api2Mcp.Store.Accepts
import Api2Mcp.Store.Puts
import Api2Mcp.Pack.Import
import Api2Mcp.Config
import Api2Mcp.Pack.Importable
import Api2Mcp.Runtime.Recorded
import Api2Mcp.Server.Session
import Api2Mcp.Server.SessionRuns
import Api2Mcp.Pack.Export
import Api2Mcp.Store.Sound
import Api2Mcp.Store.Isolation
import Api2Mcp.Pack.Portable
import Api2Mcp.Pack.Planned
import Api2Mcp.Pack.Valid
import Api2Mcp.Server.Api.Packs
