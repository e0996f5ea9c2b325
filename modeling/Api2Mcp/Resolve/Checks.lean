import Api2Mcp.Resolve.Plan
import Api2Mcp.Schema.Validate
import Api2Mcp.Json.Value

namespace api2mcp.resolve

open btree
open api2mcp.model api2mcp.http api2mcp.schema

/-- The origins of the selected api_calls, each on its service's allowlist. -/
def reachable_origins (calls : BTreeMap Slug PlannedApiCall) : Except ResolveError (List Origin) :=
  calls.values.foldlM (fun origins planned =>
    if Origin.contains planned.service.origin_allowlist planned.origin then
      .ok (Origin.insert planned.origin origins)
    else
      .error (.OriginNotAllowed planned.api_call.slug.as_str planned.service.slug.as_str
        planned.origin.ascii_serialization)) []

def assert_write_ceiling (calls : BTreeMap Slug PlannedApiCall) (write_ceiling : Access) :
    Except ResolveError Unit :=
  calls.values.forM fun planned =>
    if planned.api_call.access.le write_ceiling then .ok ()
    else .error (.WriteCeilingViolation planned.api_call.slug.as_str)

def assert_path_params_correspond (api_call : ApiCall) (template : UrlTemplate) :
    Except ResolveError Unit :=
  let placeholders := BTreeSet.collect (template.segments.filterMap fun s =>
    match s with
    | .Placeholder name => some name
    | .Literal _ => none)
  let path_params := BTreeSet.collect
    ((api_call.params.filter fun p => decide (p.location = .Path)).map (·.name))
  if placeholders = path_params then .ok ()
  else .error (.PathParamMismatch api_call.slug.as_str placeholders path_params)

def compile_projection (json : serde_json.JsonCrate) (api_call : Slug) (projection : Projection) :
    Except ResolveError CompiledProjection := do
  let fields ← projection.fields.mapM fun f =>
    match json.parse_path f.path with
    | .error e => .error (.Projection api_call.as_str f.name e)
    | .ok path =>
      .ok { name := f.name, path, cardinality := f.cardinality, coerce := f.coerce
            : CompiledProjectionField }
  return ⟨fields⟩

def target_key_api_call (slug : Slug) : String := "api_call:" ++ slug.as_str

def target_key_script (slug : Slug) : String := "script:" ++ slug.as_str

def target_key : EndpointTarget → String
  | .ApiCall slug => target_key_api_call slug
  | .Script slug => target_key_script slug

/-- Two names for one target are refused. -/
def reverse_aliases (aliases : BTreeMap String EndpointTarget) :
    Except ResolveError (BTreeMap String String) :=
  aliases.foldlM (fun by_target kv =>
    let key := target_key kv.2
    match by_target.get key with
    | some existing => .error (.AmbiguousAlias key [existing, kv.1])
    | none => .ok (by_target.insert key kv.1)) []

def claim_name (seen : BTreeSet String) (name : String) : Except ResolveError (BTreeSet String) :=
  if seen.contains name then .error (.DuplicateToolName name) else .ok (seen.insert name)

/-- The tools before their names are checked: every selected api_call, then
every selected script, under its alias if it has one. -/
def named_tools (alias_by_target : BTreeMap String String) (endpoint_budgets : Budgets)
    (calls : BTreeMap Slug PlannedApiCall) (scripts : BTreeMap Slug ScriptDef) :
    List PlannedTool :=
  calls.map (fun (slug, planned) =>
      { name := (alias_by_target.get (target_key_api_call slug)).getD slug.as_str
        input_schema := input_schema planned.api_call.params
        target := .ApiCall slug
        budgets := endpoint_budgets }) ++
    scripts.map (fun (slug, script) =>
      { name := (alias_by_target.get (target_key_script slug)).getD slug.as_str
        input_schema := input_schema script.params
        target := .Script slug
        budgets := endpoint_budgets.fold script.budgets })

/-- In the order of the names. -/
def build_tools (aliases : BTreeMap String EndpointTarget) (endpoint_budgets : Budgets)
    (calls : BTreeMap Slug PlannedApiCall) (scripts : BTreeMap Slug ScriptDef) :
    Except ResolveError (List PlannedTool) := do
  let alias_by_target ← reverse_aliases aliases
  let tools := named_tools alias_by_target endpoint_budgets calls scripts
  let _ ← tools.foldlM (fun seen tool => claim_name seen tool.name) []
  return tools.insertionSort fun a b => ¬ b.name < a.name

namespace digest

open serde_json

def access_str : Access → String
  | .Read => "read"
  | .Write => "write"

def param_type_str : ParamType → String
  | .String => "string"
  | .Integer => "integer"
  | .Number => "number"
  | .Boolean => "boolean"
  | .StringArray => "string_array"

def param_location_json : ParamLocation → Value
  | .Path => .string "path"
  | .Query => .string "query"
  | .Header => .string "header"
  | .Body pointer => .json [("body", .string pointer.to_string)]
  | .Local => .string "local"

def param_json (p : Param) : Value :=
  .json [("name", .string p.name), ("location", param_location_json p.location),
    ("ty", .string (param_type_str p.ty)), ("required", .bool p.required),
    ("default", p.default.getD .null), ("fixed", p.fixed.getD .null),
    ("enum_values", .of_option .array p.enum_values), ("position", .of_int p.position)]

def pagination_json : Pagination → Value
  | .None => .json [("kind", .string "none")]
  | .Cursor next_cursor_path query_param =>
    .json [("kind", .string "cursor"), ("next_cursor_path", .string next_cursor_path.to_string),
      ("query_param", .string query_param)]

def projection_json (p : Projection) : Value :=
  .json [("fields", .array (p.fields.map fun f =>
    .json [("name", .string f.name), ("path", .string f.path),
      ("cardinality", .string (match f.cardinality with | .One => "one" | .Many => "many")),
      ("coerce", .of_option (.string ∘ param_type_str) f.coerce)]))]

def method_str : net.Method → String
  | .GET => "GET" | .POST => "POST" | .PUT => "PUT" | .DELETE => "DELETE" | .HEAD => "HEAD"
  | .OPTIONS => "OPTIONS" | .CONNECT => "CONNECT" | .PATCH => "PATCH" | .TRACE => "TRACE"
  | .Extension name => name

def string_map_json (map : List (String × String)) : Value :=
  .json (map.map fun kv => (kv.1, .string kv.2))

def api_call_json (c : ApiCall) : Value :=
  .json [("slug", .string c.slug.as_str), ("service_slug", .string c.service_slug.as_str),
    ("method", .string (method_str c.method)), ("path_template", .string c.path_template),
    ("query_fixed", string_map_json c.query_fixed), ("body_template", c.body_template.getD .null),
    ("access", .string (access_str c.access)), ("idempotent", .bool c.idempotent),
    ("projection", .of_option projection_json c.projection),
    ("pagination", pagination_json c.pagination), ("timeout_ms", .of_option .of_nat c.timeout_ms),
    ("max_response_bytes", .of_option .of_nat c.max_response_bytes),
    ("params", .array (c.params.map param_json))]

def budgets_json (b : Budgets) : Value :=
  .json [("max_calls", .of_option .of_nat b.max_calls), ("max_bytes", .of_option .of_nat b.max_bytes),
    ("wall_clock_ms", .of_option (fun d => .of_nat (d / 1000)) b.wall_clock),
    ("max_pages", .of_option .of_nat b.max_pages),
    ("max_concurrency", .of_option .of_nat b.max_concurrency)]

def script_json (s : ScriptDef) : Value :=
  .json [("slug", .string s.slug.as_str), ("source", .string s.source),
    ("params", .array (s.params.map param_json)),
    ("callable", .json (s.callable.map fun kv => (kv.1, .string kv.2.as_str))),
    ("budgets", budgets_json s.budgets), ("description", .of_option .string s.description)]

def tool_json (t : PlannedTool) : Value :=
  let target := match t.target with
    | .ApiCall slug => target_key_api_call slug
    | .Script slug => target_key_script slug
  .json [("target", .string target), ("input_schema", t.input_schema),
    ("budgets", budgets_json t.budgets)]

def compute (json : JsonCrate) (sha256_hex : String → String) (endpoint_slug : Slug)
    (write_ceiling : Access) (endpoint_budgets : Budgets) (calls : BTreeMap Slug PlannedApiCall)
    (scripts : BTreeMap Slug ScriptDef) (tools : List PlannedTool) : String :=
  let snapshot := Value.json [("endpoint", .string endpoint_slug.as_str),
    ("write_ceiling", .string (access_str write_ceiling)),
    ("budgets", budgets_json endpoint_budgets),
    ("calls", .json (calls.map fun (slug, c) => (slug.as_str, api_call_json c.api_call))),
    ("scripts", .json (scripts.map fun (slug, s) => (slug.as_str, script_json s))),
    ("tools", .json (tools.map fun t => (t.name, tool_json t)))]
  sha256_hex (json.to_text snapshot)

end digest

end api2mcp.resolve
