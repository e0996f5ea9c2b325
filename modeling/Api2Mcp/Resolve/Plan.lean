import Api2Mcp.Http.UrlTemplate
import Api2Mcp.Model.Endpoint

namespace api2mcp.resolve

open btree
open api2mcp.model api2mcp.http

/-- A projection field with its JSONPath parsed. -/
structure CompiledProjectionField where
  name : String
  path : serde_json.Value → List serde_json.Value
  cardinality : Cardinality
  coerce : Option ParamType

structure CompiledProjection where
  fields : List CompiledProjectionField

/-- A selected api_call, ready to bind and send. -/
structure PlannedApiCall where
  api_call : ApiCall
  service : Service
  origin : Origin
  url_template : UrlTemplate
  projection : Option CompiledProjection

inductive ToolTarget where
  | ApiCall (slug : Slug)
  | Script (slug : Slug)
  deriving DecidableEq

/-- One row of `tools/list`. -/
structure PlannedTool where
  name : String
  input_schema : serde_json.Value
  target : ToolTarget
  budgets : Budgets

structure EndpointPlan where
  owner_id : Uuid
  slug : Slug
  write_ceiling : Access
  instructions : Option String
  tools : List PlannedTool
  calls : BTreeMap Slug PlannedApiCall
  scripts : BTreeMap Slug ScriptDef
  callable_by : BTreeMap Slug (BTreeMap String Slug)
  origins : List Origin
  budgets : Budgets
  digest : String

def EndpointPlan.tool (plan : EndpointPlan) (name : String) : Option PlannedTool :=
  plan.tools.find? fun t => t.name = name

/-- What makes `build_plan` fail. -/
inductive ResolveError where
  | EndpointNotFound (slug : String)
  | Store (message : String)
  | Template (api_call : String) (source : TemplateError)
  | PathParamMismatch (api_call : String) (placeholders path_params : BTreeSet String)
  | Projection (api_call field message : String)
  | OriginNotAllowed (api_call service origin : String)
  | AuthOriginMismatch (api_call provider bound_origin api_call_origin : String)
  | AuthProviderOutOfScope (api_call provider : String)
  | WriteCeilingViolation (api_call : String)
  | DuplicateToolName (name : String)
  | AmbiguousAlias (target : String) (aliases : List String)
  deriving DecidableEq, Repr

/-- `impl Display for ResolveError`. -/
def ResolveError.to_string : ResolveError → String
  | EndpointNotFound slug => "endpoint " ++ fmt.debug slug ++ " does not exist"
  | Store message => message
  | Template api_call source =>
    "api_call " ++ fmt.debug api_call ++ "'s path template: " ++ source.to_string
  | PathParamMismatch api_call placeholders path_params =>
    "api_call " ++ fmt.debug api_call ++ ": path template placeholders " ++
      fmt.debug_set placeholders ++ " do not match its `location = path` params " ++
      fmt.debug_set path_params
  | Projection api_call field message =>
    "api_call " ++ fmt.debug api_call ++ " projection field " ++ fmt.debug field ++ ": " ++ message
  | OriginNotAllowed api_call service origin =>
    "api_call " ++ fmt.debug api_call ++ " on service " ++ fmt.debug service ++ ": origin " ++
      origin ++ " is not in that service's allowlist"
  | AuthOriginMismatch api_call provider bound_origin api_call_origin =>
    "api_call " ++ fmt.debug api_call ++ ": auth provider " ++ fmt.debug provider ++
      " is bound to " ++ bound_origin ++ ", not this api_call's origin " ++ api_call_origin
  | AuthProviderOutOfScope api_call provider =>
    "api_call " ++ fmt.debug api_call ++ ": auth provider " ++ fmt.debug provider ++
      " is outside this endpoint's auth_providers scope"
  | WriteCeilingViolation api_call =>
    "api_call " ++ fmt.debug api_call ++
      " has access=write, above this endpoint's read write_ceiling"
  | DuplicateToolName name =>
    "tool name " ++ fmt.debug name ++ " is claimed by more than one selected api_call/script"
  | AmbiguousAlias target aliases =>
    "endpoint_aliases: more than one alias names the same target (" ++ fmt.debug target ++ "): " ++
      fmt.debug_vec aliases

end api2mcp.resolve
