import Api2Mcp.Model.Endpoint
import Api2Mcp.Pack.Types
import Api2Mcp.Resolve.TagExpr

namespace api2mcp.pack

open btree jsonptr
open api2mcp.model

inductive ConvertError where
  | Slug (slug : String) (e : SlugError)
  | Url (url message : String)
  | Origin (origin message : String)
  | Method (method message : String)
  | Access (access : String)
  | ParamType (ty : String)
  | Cardinality (cardinality : String)
  | Pointer (pointer message : String)
  | TagExprParse (tag_expr message : String)
  deriving DecidableEq

/-- `impl Display for ConvertError`. -/
def ConvertError.to_string : ConvertError → String
  | .Slug slug e => "slug " ++ fmt.debug slug ++ ": " ++ e.to_string
  | .Url url message => "url " ++ fmt.debug url ++ ": " ++ message
  | .Origin origin message => "origin " ++ fmt.debug origin ++ ": " ++ message
  | .Method method message => "http method " ++ fmt.debug method ++ ": " ++ message
  | .Access access => "access " ++ fmt.debug access ++ ": expected \"read\" or \"write\""
  | .ParamType ty => "param type " ++ fmt.debug ty ++ ": expected string|integer|number|boolean|string_array"
  | .Cardinality cardinality => "cardinality " ++ fmt.debug cardinality ++ ": expected \"one\" or \"many\""
  | .Pointer pointer message => "json pointer " ++ fmt.debug pointer ++ ": " ++ message
  | .TagExprParse tag_expr message => "tag_expr " ++ fmt.debug tag_expr ++ ": " ++ message

def parse_slug (s : String) : Except ConvertError Slug := (Slug.from_str s).mapError (.Slug s)

def access_to_str : Access → String
  | .Read => "read"
  | .Write => "write"

def access_from_str (s : String) : Except ConvertError Access :=
  if s = "read" then .ok .Read else if s = "write" then .ok .Write else .error (.Access s)

def param_type_to_str : ParamType → String
  | .String => "string"
  | .Integer => "integer"
  | .Number => "number"
  | .Boolean => "boolean"
  | .StringArray => "string_array"

def param_type_from_str (s : String) : Except ConvertError ParamType :=
  if s = "string" then .ok .String
  else if s = "integer" then .ok .Integer
  else if s = "number" then .ok .Number
  else if s = "boolean" then .ok .Boolean
  else if s = "string_array" then .ok .StringArray
  else .error (.ParamType s)

def param_location_to_pack : ParamLocation → PackParamLocation
  | .Path => .Path
  | .Query => .Query
  | .Header => .Header
  | .Body pointer => .Body pointer.to_string
  | .Local => .Local

def param_to_pack (p : Param) : PackParam where
  name := p.name
  location := param_location_to_pack p.location
  ty := param_type_to_str p.ty
  required := p.required
  default := p.default
  fixed := p.fixed
  enum_values := p.enum_values
  description := p.description
  position := p.position

def cardinality_to_pack : Cardinality → PackCardinality
  | .One => .One
  | .Many => .Many

def projection_to_pack (p : Projection) : PackProjection where
  fields := p.fields.map fun f => {
    name := f.name, path := f.path, cardinality := cardinality_to_pack f.cardinality
    coerce := f.coerce.map param_type_to_str }

def pagination_to_pack : Pagination → PackPagination
  | .None => .None
  | .Cursor next_cursor_path query_param => .Cursor next_cursor_path.to_string query_param

/-- Whole milliseconds. -/
def budgets_to_pack (b : Budgets) : PackBudgets where
  max_calls := b.max_calls
  max_bytes := b.max_bytes
  wall_clock_ms := b.wall_clock.map (· / 1000)
  max_pages := b.max_pages
  max_concurrency := b.max_concurrency

def tags_to_pack (tags : BTreeSet Tag) : BTreeSet String :=
  BTreeSet.collect (tags.map fun t => t.name.as_str)

def api_call_to_pack (c : ApiCall) (tags : BTreeSet Tag) : PackApiCall where
  service := c.service_slug.as_str
  method := c.method.as_str
  path_template := c.path_template
  query_fixed := c.query_fixed
  body_template := c.body_template
  access := access_to_str c.access
  idempotent := c.idempotent
  projection := c.projection.map projection_to_pack
  pagination := pagination_to_pack c.pagination
  timeout_ms := c.timeout_ms
  max_response_bytes := c.max_response_bytes
  params := c.params.map param_to_pack
  tags := tags_to_pack tags
  description := c.description

def script_to_pack (s : ScriptDef) (tags : BTreeSet Tag) : PackScript where
  source := s.source
  params := s.params.map param_to_pack
  callable := BTreeMap.collect (s.callable.map fun kv => (kv.1, kv.2.as_str))
  budgets := budgets_to_pack s.budgets
  description := s.description
  tags := tags_to_pack tags

def endpoint_target_to_pack : EndpointTarget → PackEndpointTarget
  | .ApiCall s => .ApiCall s.as_str
  | .Script s => .Script s.as_str

def endpoint_to_pack (e : EndpointDef) : PackEndpoint where
  tag_expr := resolve.tag_expr.to_string e.tag_expr
  write_ceiling := access_to_str e.write_ceiling
  budgets := budgets_to_pack e.budgets
  instructions := e.instructions
  enabled := e.enabled
  aliases := BTreeMap.collect (e.aliases.map fun kv => (kv.1, endpoint_target_to_pack kv.2))
  auth_providers := BTreeSet.collect (e.auth_providers.map fun s => s.as_str)

def service_to_pack (s : Service) : PackService where
  base_url := s.base_url.to_string
  origin_allowlist := BTreeSet.collect (s.origin_allowlist.map fun o => o.ascii_serialization)
  default_headers := s.default_headers
  timeout_ms := s.timeout_ms
  max_concurrency := s.max_concurrency
  rate_limit_per_min := s.rate_limit_per_min
  max_response_bytes := s.max_response_bytes

section

/-! `pointer_error` is what the `jsonptr` crate says of a text that is no pointer. -/

variable (pointer_error : String → String)

def parse_pointer (raw : String) : Except ConvertError PointerBuf :=
  match PointerBuf.parse raw with
  | some pointer => .ok pointer
  | none => .error (.Pointer raw (pointer_error raw))

def param_location_from_pack : PackParamLocation → Except ConvertError ParamLocation
  | .Path => .ok .Path
  | .Query => .ok .Query
  | .Header => .ok .Header
  | .Body pointer => (parse_pointer pointer_error pointer).map .Body
  | .Local => .ok .Local

def param_from_pack (p : PackParam) : Except ConvertError Param := do
  let location ← param_location_from_pack pointer_error p.location
  let ty ← param_type_from_str p.ty
  return { name := p.name, location, ty, required := p.required, default := p.default, fixed := p.fixed
           enum_values := p.enum_values, description := p.description, position := p.position }

def cardinality_from_pack : PackCardinality → Cardinality
  | .One => .One
  | .Many => .Many

def projection_field_from_pack (f : PackProjectionField) : Except ConvertError ProjectionField := do
  let coerce ← f.coerce.mapM param_type_from_str
  return { name := f.name, path := f.path, cardinality := cardinality_from_pack f.cardinality, coerce }

def projection_from_pack (p : PackProjection) : Except ConvertError Projection := do
  return ⟨← p.fields.mapM projection_field_from_pack⟩

def pagination_from_pack : PackPagination → Except ConvertError Pagination
  | .None => .ok .None
  | .Cursor next_cursor_path query_param =>
    (parse_pointer pointer_error next_cursor_path).map fun path => .Cursor path query_param

def method_from_str (s : String) : Except ConvertError net.Method :=
  match net.Method.from_bytes s with
  | some method => .ok method
  | none => .error (.Method s "invalid HTTP method")

def api_call_from_pack (owner_id : Uuid) (slug service_slug : Slug) (c : PackApiCall) :
    Except ConvertError ApiCall := do
  let method ← method_from_str c.method
  let access ← access_from_str c.access
  let projection ← c.projection.mapM projection_from_pack
  let pagination ← pagination_from_pack pointer_error c.pagination
  let params ← c.params.mapM (param_from_pack pointer_error)
  return { owner_id, slug, service_slug, method, path_template := c.path_template, query_fixed := c.query_fixed
           body_template := c.body_template, access, idempotent := c.idempotent, projection, pagination
           timeout_ms := c.timeout_ms, max_response_bytes := c.max_response_bytes, params
           description := c.description }

def budgets_from_pack (b : PackBudgets) : Budgets where
  max_calls := b.max_calls
  max_bytes := b.max_bytes
  wall_clock := b.wall_clock_ms.map (· * 1000)
  max_pages := b.max_pages
  max_concurrency := b.max_concurrency

def tags_from_pack (tags : BTreeSet String) : Except ConvertError (BTreeSet Tag) := do
  let tags ← tags.mapM fun t => return (⟨← parse_slug t⟩ : Tag)
  return BTreeSet.collect tags

def script_from_pack (owner_id : Uuid) (slug : Slug) (s : PackScript) : Except ConvertError ScriptDef := do
  let callable ← s.callable.mapM fun kv => return (kv.1, ← parse_slug kv.2)
  let params ← s.params.mapM (param_from_pack pointer_error)
  return { owner_id, slug, source := s.source, params, callable := BTreeMap.collect callable
           budgets := budgets_from_pack s.budgets, description := s.description }

def endpoint_target_from_pack : PackEndpointTarget → Except ConvertError EndpointTarget
  | .ApiCall s => (parse_slug s).map .ApiCall
  | .Script s => (parse_slug s).map .Script

def endpoint_from_pack (owner_id : Uuid) (slug : Slug) (e : PackEndpoint) : Except ConvertError EndpointDef := do
  let tag_expr ← (resolve.tag_expr.parse e.tag_expr).mapError fun err => .TagExprParse e.tag_expr err.to_string
  let aliases ← e.aliases.mapM fun kv => return (kv.1, ← endpoint_target_from_pack kv.2)
  let auth_providers ← e.auth_providers.mapM parse_slug
  let write_ceiling ← access_from_str e.write_ceiling
  return { owner_id, slug, tag_expr, write_ceiling, budgets := budgets_from_pack e.budgets
           instructions := e.instructions, enabled := e.enabled, aliases := BTreeMap.collect aliases
           auth_providers := BTreeSet.collect auth_providers }

end

section

variable (url : net.UrlCrate)

def parse_url (s : String) : Except ConvertError net.Url := (url.parse s).mapError (.Url s)

def parse_origin (s : String) : Except ConvertError Origin :=
  (Origin.from_str url s).mapError fun e => .Origin s e.to_string

def service_from_pack (owner_id : Uuid) (slug : Slug) (s : PackService) : Except ConvertError Service := do
  let base_url ← parse_url url s.base_url
  let origins ← s.origin_allowlist.mapM (parse_origin url)
  return { owner_id, slug, base_url, origin_allowlist := origins.foldl (fun set o => Origin.insert o set) []
           default_headers := s.default_headers, timeout_ms := s.timeout_ms, max_concurrency := s.max_concurrency
           rate_limit_per_min := s.rate_limit_per_min, max_response_bytes := s.max_response_bytes }

end

end api2mcp.pack
