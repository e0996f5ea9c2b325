import Api2Mcp.Http.UrlTemplate
import Api2Mcp.Json.Value
import Api2Mcp.Model.Origin
import Api2Mcp.Pack.Convert
import Api2Mcp.Resolve.TagExpr

namespace api2mcp.pack

open btree jsonptr serde_json
open api2mcp.http api2mcp.model

inductive ValidationError where
  | UnsupportedVersion (found expected : Nat)
  | Slug (location message : String)
  | Service (slug message : String)
  | ApiCall (slug message : String)
  | Script (slug message : String)
  | Endpoint (slug message : String)
  | Tags (message : String)
  | Credential (location field : String)
  deriving DecidableEq

/-- `impl Display for ValidationError`. -/
def ValidationError.to_string : ValidationError → String
  | .UnsupportedVersion found expected =>
    "unsupported pack version " ++ Nat.repr found ++ " (this build writes and accepts only " ++
      Nat.repr expected ++ ")"
  | .Slug location message => location ++ ": " ++ message
  | .Service slug message => "services." ++ slug ++ ": " ++ message
  | .ApiCall slug message => "api_calls." ++ slug ++ ": " ++ message
  | .Script slug message => "scripts." ++ slug ++ ": " ++ message
  | .Endpoint slug message => "endpoints." ++ slug ++ ": " ++ message
  | .Tags message => "tags: " ++ message
  | .Credential location field =>
    location ++ "." ++ field ++ " looks like it contains a credential value, not a reference to one"

/-- The placeholders of the path are the params that are in it. -/
def validate_path_params (slug : String) (template : UrlTemplate) (call : PackApiCall) : List ValidationError :=
  let placeholders := BTreeSet.collect (template.segments.filterMap fun s =>
    match s with | .Placeholder name => some name | .Literal _ => none)
  let path_params := BTreeSet.collect
    ((call.params.filter fun p => p.location = .Path).map fun p => p.name)
  if placeholders ≠ path_params then
    [.ApiCall slug ("path template placeholders " ++ fmt.debug_set placeholders ++
      " do not match its `location: path` params " ++ fmt.debug_set path_params)]
  else []

def validate_projection_field (json : JsonCrate) (slug : String) (field : PackProjectionField) :
    List ValidationError :=
  match json.parse_path field.path with
  | .ok _ => []
  | .error e =>
    [.ApiCall slug ("projection field " ++ fmt.debug field.name ++ " path " ++ fmt.debug field.path ++ ": " ++ e)]

def validate_pagination (slug : String) : PackPagination → List ValidationError
  | .None => []
  | .Cursor next_cursor_path _ =>
    if (PointerBuf.parse next_cursor_path).isNone then
      [.ApiCall slug ("pagination next_cursor_path " ++ fmt.debug next_cursor_path ++
        " is not a valid JSON pointer")]
    else []

def validate_param (slug : String) (p : PackParam) : List ValidationError :=
  (if p.fixed.isSome && p.required then
    [.ApiCall slug ("param " ++ fmt.debug p.name ++ " is both fixed and required")] else []) ++
  if p.location = .Header && !is_header_param_name_allowed p.name then
    [.ApiCall slug ("param " ++ fmt.debug p.name ++
      " uses location: header with a name not in the allowlist (" ++ fmt.debug p.name ++
      "); allowed names are " ++ fmt.debug_vec HEADER_PARAM_ALLOWLIST)] else []

/-- All that is wrong with an api_call of the pack, in the order it is found. -/
def validate_api_call (json : JsonCrate) (pack : Pack) (slug : String) (call : PackApiCall) :
    List ValidationError :=
  (if pack.services.contains_key call.service then []
    else [.ApiCall slug ("references service " ++ fmt.debug call.service ++ ", which is not in this pack")]) ++
  (if (net.Method.from_bytes call.method).isNone then
    [.ApiCall slug ("method " ++ fmt.debug call.method ++ " is not a valid HTTP method")] else []) ++
  (if call.access ≠ "read" ∧ call.access ≠ "write" then
    [.ApiCall slug ("access " ++ fmt.debug call.access ++ ": expected \"read\" or \"write\"")] else []) ++
  (match UrlTemplate.parse call.path_template with
    | .ok template => validate_path_params slug template call
    | .error e => [.ApiCall slug ("path_template " ++ fmt.debug call.path_template ++ ": " ++ e.to_string)]) ++
  (match call.projection with
    | some projection => projection.fields.flatMap (validate_projection_field json slug)
    | none => []) ++
  validate_pagination slug call.pagination ++ call.params.flatMap (validate_param slug)

def validate_callable (pack : Pack) (slug : String) (callable : String × String) : List ValidationError :=
  if pack.api_calls.contains_key callable.2 then []
  else [.Script slug ("callable[" ++ fmt.debug callable.1 ++ "] names api_call " ++ fmt.debug callable.2 ++
    ", which is not in this pack")]

def validate_script (pack : Pack) (slug : String) (script : PackScript) : List ValidationError :=
  script.callable.flatMap (validate_callable pack slug) ++
  script.params.flatMap fun p =>
    if p.location = .Local then []
    else [.Script slug ("param " ++ fmt.debug p.name ++ " must use location: local")]

/-- `{:?}` on a target. -/
def PackEndpointTarget.debug : PackEndpointTarget → String
  | .ApiCall slug => "ApiCall(" ++ fmt.debug slug ++ ")"
  | .Script slug => "Script(" ++ fmt.debug slug ++ ")"

def PackEndpointTarget.missing (pack : Pack) : PackEndpointTarget → Bool
  | .ApiCall slug => !pack.api_calls.contains_key slug
  | .Script slug => !pack.scripts.contains_key slug

def validate_endpoint (pack : Pack) (slug : String) (endpoint : PackEndpoint) : List ValidationError :=
  (match resolve.tag_expr.parse endpoint.tag_expr with
    | .ok _ => []
    | .error e => [.Endpoint slug e.to_string]) ++
  (if endpoint.write_ceiling ≠ "read" ∧ endpoint.write_ceiling ≠ "write" then
    [.Endpoint slug ("write_ceiling " ++ fmt.debug endpoint.write_ceiling ++ ": expected \"read\" or \"write\"")]
    else []) ++
  endpoint.aliases.values.flatMap fun target =>
    if target.missing pack then [.Endpoint slug ("alias target " ++ target.debug ++ " is not in this pack")] else []

def check_slug (category slug : String) : List ValidationError :=
  match parse_slug slug with
  | .ok _ => []
  | .error e => [.Slug (category ++ "." ++ slug) e.to_string]

section

variable (url : net.UrlCrate)

def contains_origin (allowlist : BTreeSet String) (origin : Origin) : Bool :=
  allowlist.any fun o =>
    match Origin.from_str url o with
    | .ok p => p = origin
    | .error _ => false

def validate_service (slug : String) (svc : PackService) : List ValidationError :=
  (match url.parse svc.base_url with
    | .ok _ => []
    | .error e => [.Service slug ("base_url " ++ fmt.debug svc.base_url ++ ": " ++ e)]) ++
  (svc.origin_allowlist.flatMap fun o =>
    match Origin.from_str url o with
    | .ok _ => []
    | .error _ => [.Service slug ("origin_allowlist entry " ++ fmt.debug o ++ " is not a valid origin")]) ++
  match url.parse svc.base_url with
  | .error _ => []
  | .ok base_url =>
    match Origin.of base_url with
    | .error _ => []
    | .ok origin =>
      if contains_origin url svc.origin_allowlist origin then []
      else [.Service slug ("base_url's own origin " ++ origin.ascii_serialization ++ " is not in origin_allowlist")]

end

def validate_tag_vocabulary (pack : Pack) : List ValidationError :=
  let union := BTreeSet.collect
    ((pack.api_calls.values.flatMap fun call => call.tags) ++ pack.scripts.values.flatMap fun script => script.tags)
  if union = pack.tags then []
  else
    let missing := union.filter fun tag => !pack.tags.contains tag
    let extra := pack.tags.filter fun tag => !union.contains tag
    [.Tags ("declared `tags` does not equal the union of every item's own tags (missing: " ++
      fmt.debug_vec missing ++ ", extra: " ++ fmt.debug_vec extra ++ ")")]

end api2mcp.pack
