import Api2Mcp.Resolve.Checks
import Api2Mcp.Store.Definitions

namespace api2mcp.resolve

open btree concurrent
open api2mcp.entity api2mcp.model api2mcp.http api2mcp.store

/-- The reads a plan is built from, each a statement of its own. -/
abbrev Build (α : Type) := ExceptT ResolveError (Query Rows) α

/-- A store read; its failure is a failure of the plan. -/
def read {α : Type} (q : Fetch α) : Build α :=
  ExceptT.mk do
    match ← q.run with
    | .ok a => return .ok a
    | .error e => return .error (.Store e.to_string)

/-- A check that reads nothing. -/
def check {α : Type} (r : Except ResolveError α) : Build α := ExceptT.mk (return r)

def some_or {α : Type} (e : ResolveError) : Option α → Build α
  | some a => pure a
  | none => throw e

section

variable (json : serde_json.JsonCrate)

/-- What is left of `compile_api_call` once it has the service. -/
def compile_on (api_call : ApiCall) (service : Service) : Except ResolveError PlannedApiCall := do
  let url_template ← (UrlTemplate.parse api_call.path_template).mapError
    (.Template api_call.slug.as_str)
  assert_path_params_correspond api_call url_template
  let origin ← (Origin.of service.base_url).mapError fun e =>
    .Store ("service " ++ fmt.debug service.slug.as_str ++ " base_url " ++
      fmt.debug service.base_url.to_string ++ " has an opaque origin: " ++ e.to_string)
  let projection ← match api_call.projection with
    | none => .ok none
    | some p => (compile_projection json api_call.slug p).map some
  return { api_call, service, origin, url_template, projection }

def compile_api_call (owner_id : Uuid) (api_call : ApiCall) : Build PlannedApiCall := do
  let service ← read (service.get_by_slug owner_id api_call.service_slug)
  let service ← some_or (.Store ("api_call " ++ fmt.debug api_call.slug.as_str ++
    " references service " ++ fmt.debug api_call.service_slug.as_str ++
    ", which no longer exists")) service
  check (compile_on json api_call service)

/-- The api_calls the tag expression selects, compiled, by their slugs. -/
def compile_selected (owner_id : Uuid) (tag_expr : TagExpr) (all : List api_call.TaggedApiCall) :
    Build (BTreeMap Slug PlannedApiCall) :=
  all.foldlM (fun calls tagged =>
    if eval_tag_expr tagged.tags tag_expr then do
      let planned ← compile_api_call json owner_id tagged.api_call
      return calls.insert tagged.api_call.slug planned
    else return calls) []

/-- One planned api_call for each service, the first in the order of slugs. -/
def representative (calls : BTreeMap Slug PlannedApiCall) : BTreeMap Slug PlannedApiCall :=
  calls.values.foldl (fun out planned => out.or_insert planned.service.slug planned) []

/-- The two checks on the provider of a selected service. -/
def check_provider (endpoint_scope : BTreeSet Slug) (planned : PlannedApiCall)
    (provider : AuthProvider) : Except ResolveError Unit :=
  if provider.bound_origin ≠ planned.origin then
    .error (.AuthOriginMismatch planned.api_call.slug.as_str provider.slug.as_str
      provider.bound_origin.ascii_serialization planned.origin.ascii_serialization)
  else if !endpoint_scope.isEmpty && !endpoint_scope.contains provider.slug then
    .error (.AuthProviderOutOfScope planned.api_call.slug.as_str provider.slug.as_str)
  else .ok ()

def assert_bound (owner_id : Uuid) (calls : BTreeMap Slug PlannedApiCall)
    (endpoint_scope : BTreeSet Slug) : Build Unit :=
  (representative calls).values.forM fun planned => do
    match ← read (auth_provider.get_for_service owner_id planned.service.slug) with
    | none => return ()
    | some provider => check (check_provider endpoint_scope planned provider)

/-- The selected scripts, by their slugs. -/
def selected_scripts (tag_expr : TagExpr) (all : List script.TaggedScript) :
    BTreeMap Slug ScriptDef :=
  BTreeMap.collect ((all.filter fun tagged => eval_tag_expr tagged.tags tag_expr).map
    fun tagged => (tagged.script.slug, tagged.script))

/-- What a selected script may call: what it declared, where the endpoint
selected it too. -/
def reachable (calls : BTreeMap Slug PlannedApiCall) (script : ScriptDef) : BTreeMap String Slug :=
  script.callable.filter fun kv => calls.contains_key kv.2

def callable_by (calls : BTreeMap Slug PlannedApiCall) (scripts : BTreeMap Slug ScriptDef) :
    BTreeMap Slug (BTreeMap String Slug) :=
  scripts.map fun kv => (kv.1, reachable calls kv.2)

variable (sha256_hex : String → String)

/-- The plan, once everything it is built from passed its checks. -/
def assemble_plan (owner_id : Uuid) (endpoint : EndpointDef) (calls : BTreeMap Slug PlannedApiCall)
    (scripts : BTreeMap Slug ScriptDef) (origins : List Origin) (tools : List PlannedTool) :
    EndpointPlan where
  owner_id
  slug := endpoint.slug
  write_ceiling := endpoint.write_ceiling
  instructions := endpoint.instructions
  tools
  calls
  scripts
  callable_by := callable_by calls scripts
  origins
  budgets := endpoint.budgets
  digest := digest.compute json sha256_hex endpoint.slug endpoint.write_ceiling endpoint.budgets
    calls scripts tools

def build_plan (owner_id : Uuid) (slug : Slug) : Build EndpointPlan := do
  let endpoint ← read (endpoint.get owner_id slug)
  let endpoint ← some_or (.EndpointNotFound slug.as_str) endpoint
  let all_api_calls ← read (api_call.list_all owner_id)
  let all_scripts ← read (script.list_all owner_id)
  let calls ← compile_selected json owner_id endpoint.tag_expr all_api_calls
  let scripts := selected_scripts endpoint.tag_expr all_scripts
  let origins ← check (reachable_origins calls)
  assert_bound owner_id calls endpoint.auth_providers
  check (assert_write_ceiling calls endpoint.write_ceiling)
  let tools ← check (build_tools endpoint.aliases endpoint.budgets calls scripts)
  return assemble_plan json sha256_hex owner_id endpoint calls scripts origins tools

end

end api2mcp.resolve
