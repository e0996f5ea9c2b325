import Api2Mcp.Resolve.CacheRuns
import Api2Mcp.Server.Mcp.Endpoint
import Api2Mcp.Server.Mcp.Invoke

namespace api2mcp.server.mcp

open concurrent serde_json
open api2mcp.http api2mcp.model api2mcp.resolve api2mcp.runtime api2mcp.runtime.fanout
open api2mcp.runtime.dispatch (Crates)

def SERVER_NAME : String := "api2mcp"

def SERVER_VERSION : String := "0.1.0"

def PROTOCOL_VERSION : String := "2025-03-26"

/-- Never looked up: bare `/mcp` is no endpoint. -/
def CONTROL_PLANE_PSEUDO_SLUG : Slug := ⟨"mcp", by decide, by decide, by decide⟩

/-- What a route answers with. -/
structure Reply where
  status : net.StatusCode
  www_authenticate : Option net.HeaderValue
  body : Option Value

def Reply.json (response : JsonRpcResponse) : Reply where
  status := .OK
  www_authenticate := none
  body := some response.to_value

/-- The answer to a notification: an empty body. -/
def Reply.accepted : Reply where
  status := ⟨202, by decide⟩
  www_authenticate := none
  body := none

def unauthorized (challenge : BearerChallenge) : Reply where
  status := ⟨401, by decide⟩
  www_authenticate := net.HeaderValue.from_str challenge.www_authenticate
  body := some (JsonRpcResponse.of_error none (-32000) "Unauthorized").to_value

def INSTRUCTIONS : String :=
  "# api2mcp\n\n" ++
  "This endpoint exposes a curated set of HTTP API calls as MCP tools — each one a narrow, " ++
  "deterministic capability rather than a generic \"make an HTTP request\" tool. Call " ++
  "`tools/list` to see exactly what's available here; the set is specific to this endpoint, not " ++
  "the whole service.\n" ++
  "\n## Calling a tool\n\n" ++
  "Call a listed tool directly by name, or through `invoke` — pass `\x7b\"tool_name\": ..., " ++
  "\"args\": ...\x7d` and it dispatches to the same tool a direct call would. Prefer " ++
  "`invoke`/`list_tools` over relying on a `tools/list_changed` notification to learn about tool " ++
  "set changes mid-session, since not every client re-fetches on it.\n" ++
  "\n## Failure shape\n\n" ++
  "A tool call that fails (bad arguments, an upstream error, a budget limit) still returns a " ++
  "normal `200` result with `isError: true` and a text explanation — it is not a JSON-RPC-level " ++
  "error. A JSON-RPC `error` means something about the *request itself* was wrong: an unknown " ++
  "method, a malformed body, or a tool name that doesn't exist on this endpoint.\n" ++
  "\n## Budgets\n\n" ++
  "Every tool runs under a budget (call count, wall-clock time, page count, concurrency) folded " ++
  "from this endpoint's own ceiling. A run that trips a budget stops rather than continuing past " ++
  "it; partial results, when any exist, are returned alongside an explanation of what didn't run.\n"

def initialize_result (plan : EndpointPlan) : Value :=
  let instructions := match plan.instructions with
    | some extra =>
      INSTRUCTIONS ++ "\n## This endpoint (" ++ plan.slug.as_str ++ ")\n\n" ++ extra ++ "\n"
    | none => INSTRUCTIONS
  .json [("protocolVersion", .string PROTOCOL_VERSION),
    ("capabilities", .json [("tools", .json [])]),
    ("serverInfo", .json [("name", .string SERVER_NAME), ("version", .string SERVER_VERSION)]),
    ("instructions", .string instructions)]

/-- The answer of a request that asks for nothing. Any other request is, once it
has its plan, a run against the world. -/
def now {α : Type} (a : α) : AppTask (Run α) := .done (.done a)

namespace control

def INSTRUCTIONS : String :=
  "# api2mcp — control plane\n\n" ++
  "This is the factory, not a curated tool endpoint: it exists so you can define the services, " ++
  "api_calls, scripts and endpoints that `/mcp/\x7bslug\x7d` then serves to a consuming agent. " ++
  "Nothing you define here becomes visible anywhere until an `endpoint`'s `tag_expr` selects it.\n" ++
  "\n## The four kinds of definition, and how they relate\n\n" ++
  "- **service** — one upstream HTTP origin: base URL, allowed origins for redirects, timeouts, " ++
  "concurrency. Every api_call belongs to exactly one service.\n" ++
  "- **api_call** — one HTTP request template against a service: method, path template, params, " ++
  "optional response projection. This is what actually becomes an MCP tool.\n" ++
  "- **script** — a small Rhai program that composes one or more api_calls (declared in its " ++
  "`callable` map) into a single tool, for logic a single HTTP call can't express.\n" ++
  "- **endpoint** — a `tag_expr` (e.g. `has(read) and not has(deprecated)`) selecting which " ++
  "api_calls/scripts are exposed as tools at `/mcp/\x7bthat endpoint's slug\x7d`, plus a write " ++
  "ceiling and a budget. A tool becomes visible on an endpoint purely by tag membership — tag an " ++
  "api_call or script, then write (or reuse) a `tag_expr` that matches it.\n" ++
  "\n## Narrowing what a caller sees\n\n" ++
  "A **projection** on an api_call rewrites its raw upstream JSON response into a smaller, named " ++
  "shape (JSONPath per field) — use it so a tool returns exactly what a calling model needs, not " ++
  "a full upstream payload it has to parse itself. **Budgets** (call count, bytes, wall-clock " ++
  "time, page count, concurrency) cap what a single run may do; a script's own budget can only " ++
  "narrow its endpoint's, never widen it.\n" ++
  "\n## Credentials are not yours to attach\n\n" ++
  "There is no auth-provider tool here at all — not even to list one. An api_call you define has " ++
  "no credential attached; a human wires one to it afterwards, outside this API, on purpose (that " ++
  "binding is the one thing standing between a credential and an origin it was never meant to " ++
  "authenticate against). Calling an api_call before that happens sends no credential and, " ++
  "against most real APIs, gets back a 401 — that is expected, not a mistake on your part, and " ++
  "not something you can fix from here. Define the api_call's shape (method, path, params, " ++
  "projection) and leave the credential to its owner.\n" ++
  "\n## Before you consider a definition done\n\n" ++
  "Use `api_call.test`/`script.test` to actually run it against the real upstream and see both " ++
  "the raw response and (for an api_call with a projection) the projected shape side by side. A " ++
  "definition that has never been test-run is not done — test before moving on, and again after " ++
  "any change to its params, projection or the service it targets.\n" ++
  "\n## Ownership\n\n" ++
  "Every definition you create belongs to this token's owner. `*.list`/`*.get` only ever show " ++
  "that owner's own definitions, never another owner's, even one with an identical slug.\n"

structure ToolOutcome where
  text : String
  is_error : Bool

/-- The same envelope as on the data plane. -/
def tool_envelope (outcome : ToolOutcome) : Value :=
  handlers.tool_envelope { text := outcome.text, is_error := outcome.is_error }

/-- One of the modules that each own the tools of one resource: how they are
listed, and what a call does if its name is one of theirs. -/
structure Resource where
  descriptors : List Value
  dispatch (owner_id : Uuid) (name : String) (args : Value) : Option (AppTask (Run ToolOutcome))

def initialize_result : Value :=
  .json [("protocolVersion", .string PROTOCOL_VERSION),
    ("capabilities", .json [("tools", .json [])]),
    ("serverInfo", .json [("name", .string SERVER_NAME), ("version", .string SERVER_VERSION)]),
    ("instructions", .string INSTRUCTIONS)]

section

variable (crate : net.UrlCrate) (resources : List Resource)

def tools_list : Value :=
  .json [("tools", .array (resources.flatMap (·.descriptors)))]

/-- The first module that recognizes the name. -/
def dispatch_named (owner_id : Uuid) (name : String) (args : Value) : Option (AppTask (Run ToolOutcome)) :=
  resources.findSome? fun resource => resource.dispatch owner_id name args

def tools_call (id : Option Value) (owner_id : Uuid) (params : Option Value) :
    AppTask (Run JsonRpcResponse) :=
  match params with
  | none => now (.of_error id (-32602) "Missing params")
  | some params =>
    let name := ((params.get "name").bind Value.as_str).getD ""
    let arguments := (params.get "arguments").getD (.json [])
    match dispatch_named resources owner_id name arguments with
    | none => now (.of_error id (-32602) ("Unknown tool: " ++ name))
    | some run => do
      let run ← run
      return run >>= fun outcome => return .of_result id (tool_envelope outcome)

/-- A credential without the capability is answered as by an endpoint that is
not there. -/
def resolve_control_plane (credential : ResolvedCredential) (id : Option Value) :
    Except JsonRpcResponse Unit :=
  if credential.control_plane then .ok ()
  else .error (build_endpoint_not_found crate id CONTROL_PLANE_PSEUDO_SLUG)

def dispatch_method (credential : ResolvedCredential) (req : JsonRpcRequest) :
    AppTask (Run JsonRpcResponse) :=
  if req.method = "initialize" || req.method = "tools/list" || req.method = "tools/call" then
    match resolve_control_plane crate credential req.id with
    | .error resp => now resp
    | .ok () =>
      if req.method = "initialize" then now (.of_result req.id initialize_result)
      else if req.method = "tools/list" then now (.of_result req.id (tools_list resources))
      else tools_call resources req.id credential.caller.id req.params
  else now (.of_error req.id (-32601) ("Method not found: " ++ req.method))

end

end control

section

variable (crates : Crates) (engine : script.Engine) (uuid_text : Uuid → String)
  (sha256_hex : String → String) (base_url : String) (oauth_caller : String → Option Caller)
  (policy : SsrfPolicy) (resources : List control.Resource)

/-- What is left of a request once it has its plan. -/
def Dispatched.run (caller : Caller) (id : Option Value) : Dispatched → Run JsonRpcResponse
  | .respond response => return response
  | .initialize_result plan => return .of_result id (mcp.initialize_result plan)
  | .tools_list plan => return handlers.tools_list id plan
  | .tools_call plan params =>
    handlers.tools_call crates engine uuid_text id plan (.new policy) caller params

/-- `POST /mcp/{endpoint_slug}`. -/
def handle (endpoint_slug : String) (headers : net.HeaderMap) (body : List UInt8) :
    AppTask (Run Reply) := do
  match ← on_db (authenticate_mcp sha256_hex base_url oauth_caller headers) with
  | .error challenge => now (unauthorized challenge)
  | .ok credential =>
    match parse_request crates.json.from_slice body with
    | .error resp => now (.json resp)
    | .ok req =>
      if req.method = "notifications/initialized" then now .accepted
      else do
        let dispatched ← dispatch_method crates.url crates.json sha256_hex endpoint_slug
          credential.caller credential.endpoint_grants req
        return dispatched.run crates engine uuid_text policy credential.caller req.id >>=
          fun resp => return .json resp

/-- Bare `POST /mcp`. -/
def handle_control_plane (headers : net.HeaderMap) (body : List UInt8) : AppTask (Run Reply) := do
  match ← on_db (authenticate_mcp sha256_hex base_url oauth_caller headers) with
  | .error challenge => now (unauthorized challenge)
  | .ok credential =>
    match parse_request crates.json.from_slice body with
    | .error resp => now (.json resp)
    | .ok req =>
      if req.method = "notifications/initialized" then now .accepted
      else do
        let run ← control.dispatch_method crates.url resources credential req
        return run >>= fun resp => return .json resp

end

end api2mcp.server.mcp
