import Api2Mcp.Http.Redact
import Api2Mcp.Resolve.Cache
import Api2Mcp.Server.Auth
import Api2Mcp.Server.Mcp.Rpc

namespace api2mcp.server.mcp

open concurrent
open api2mcp.model api2mcp.http api2mcp.store api2mcp.resolve

/-- What the three methods of `/mcp/{slug}` do with the plan they obtained; any
other answer is a response of its own. -/
inductive Dispatched where
  | respond (response : JsonRpcResponse)
  | initialize_result (plan : EndpointPlan)
  | tools_list (plan : EndpointPlan)
  | tools_call (plan : EndpointPlan) (params : Option serde_json.Value)

/-- The plan a request obtained. -/
def Dispatched.plan : Dispatched → Option EndpointPlan
  | respond _ => none
  | initialize_result plan | tools_list plan | tools_call plan _ => some plan

section

variable (crate : net.UrlCrate)

/-- The answer for an endpoint that is not there, and for one that is not the
caller's to reach. -/
def build_endpoint_not_found (id : Option serde_json.Value) (slug : Slug) : JsonRpcResponse :=
  .of_error id (-32001)
    (redact_message crate ("endpoint " ++ fmt.debug slug.as_str ++ " does not exist"))

variable (json : serde_json.JsonCrate) (sha256_hex : String → String)

def resolve_plan (endpoint_slug : String) (caller : Caller) (endpoint_grants : EndpointGrants)
    (id : Option serde_json.Value) : AppTask (Except JsonRpcResponse EndpointPlan) :=
  match Slug.from_str endpoint_slug with
  | .error e =>
    return .error (.of_error id (-32602)
      ("invalid endpoint " ++ fmt.debug endpoint_slug ++ ": " ++ e.to_string))
  | .ok slug =>
    if !endpoint_grants.allows slug then return .error (build_endpoint_not_found crate id slug)
    else do
      match ← get_or_build json sha256_hex caller.id slug with
      | .ok plan => return .ok plan
      | .error e => return .error (.of_error id (-32001) (redact_message crate e.to_string))

/-- A slug that is not the caller's to reach is answered without a look at the
database, as one that names no endpoint is. -/
theorem resolve_plan_of_not_allowed {endpoint_slug : String} {slug : Slug} {caller : Caller}
    {endpoint_grants : EndpointGrants} {id : Option serde_json.Value}
    (hparse : Slug.from_str endpoint_slug = .ok slug) (hmiss : endpoint_grants.allows slug = false) :
    resolve_plan crate json sha256_hex endpoint_slug caller endpoint_grants id =
      .done (.error (.of_error id (-32001)
        (redact_message crate (ResolveError.EndpointNotFound slug.as_str).to_string))) := by
  unfold resolve_plan
  rw [hparse]
  dsimp only
  rw [hmiss]
  rfl

def dispatch_method (endpoint_slug : String) (caller : Caller) (endpoint_grants : EndpointGrants)
    (req : JsonRpcRequest) : AppTask Dispatched :=
  if req.method = "initialize" then do
    match ← resolve_plan crate json sha256_hex endpoint_slug caller endpoint_grants req.id with
    | .ok plan => return .initialize_result plan
    | .error response => return .respond response
  else if req.method = "tools/list" || req.method = "tools/call" then do
    match ← resolve_plan crate json sha256_hex endpoint_slug caller endpoint_grants req.id with
    | .error response => return .respond response
    | .ok plan =>
      if req.method = "tools/list" then return .tools_list plan
      else return .tools_call plan req.params
  else return .respond (.of_error req.id (-32601) ("Method not found: " ++ req.method))

/-- No method looks at the database for such a slug. -/
theorem dispatch_method_of_not_allowed {endpoint_slug : String} {slug : Slug} {caller : Caller}
    {endpoint_grants : EndpointGrants} {req : JsonRpcRequest}
    (hparse : Slug.from_str endpoint_slug = .ok slug) (hmiss : endpoint_grants.allows slug = false) :
    ∃ response,
      dispatch_method crate json sha256_hex endpoint_slug caller endpoint_grants req =
        .done (.respond response) := by
  unfold dispatch_method
  rw [resolve_plan_of_not_allowed crate json sha256_hex hparse hmiss]
  split
  · exact ⟨_, rfl⟩
  split
  · exact ⟨_, rfl⟩
  · exact ⟨_, rfl⟩

end

end api2mcp.server.mcp
