import Api2Mcp.Http.Send
import Api2Mcp.Http.UrlTemplate
import Api2Mcp.Json.Number
import Api2Mcp.Model.ApiCall

namespace api2mcp.http

open btree net serde_json jsonptr
open api2mcp.model

inductive BindError where
  | Template (e : TemplateError)
  | HeaderNotAllowed (name : String)
  | HeaderInvalidValue (name : String)
  | UnsupportedValueShape (name shape : String)
  | LocalParamNotBindable (name : String)
  | BodyAssign (pointer message : String)
  | NoHost
  | UrlParse (message : String)
  | ContainmentViolation
  deriving DecidableEq, Repr

/-- `impl Display for BindError`. -/
def BindError.to_string : BindError → String
  | .Template e => "path template: " ++ e.to_string
  | .HeaderNotAllowed name => "header " ++ fmt.debug name ++ " is not in HEADER_PARAM_ALLOWLIST"
  | .HeaderInvalidValue name => "header " ++ fmt.debug name ++ " value contains a CR or LF byte"
  | .UnsupportedValueShape name shape =>
    "param " ++ fmt.debug name ++ " has a " ++ shape ++
      " value, which this param location cannot carry"
  | .LocalParamNotBindable name =>
    "param " ++ fmt.debug name ++ " is location Local, which never binds into an HTTP request"
  | .BodyAssign pointer message =>
    "body assignment at pointer " ++ fmt.debug pointer ++ " failed: " ++ message
  | .NoHost => "service base_url has no host"
  | .UrlParse message => "assembled URL failed to parse: " ++ message
  | .ContainmentViolation =>
    "assembled request would not stay within the service's origin (I3 containment check failed)"

/-- What the params have been routed to so far. -/
structure Parts where
  path_values : BTreeMap String String
  query_values : BTreeMap String (List String)
  headers : BTreeMap String String
  body : Option Value

section

variable (crate : UrlCrate) (values : ValueCrate)

def shape_error (name shape : String) : BindError := .UnsupportedValueShape name shape

def scalar_string (name : String) : Value → Except BindError String
  | .string s => .ok s
  | .number n => .ok (n.to_string values)
  | .bool b => .ok (if b then "true" else "false")
  | .null => .error (shape_error name "null")
  | .array _ => .error (shape_error name "array")
  | .object _ => .error (shape_error name "object")

/-- An array gives one string for each of its elements. -/
def query_strings (name : String) : Value → Except BindError (List String)
  | .array items => items.mapM (scalar_string values name)
  | scalar => (scalar_string values name scalar).map ([·])

def assign_body (body : Option Value) (pointer : PointerBuf) (value : Value) (param_name : String) :
    Except BindError Value :=
  match values.assign pointer (body.getD (.object [])) value with
  | .error e => .error (.BodyAssign pointer.to_string (param_name ++ ": " ++ e))
  | .ok target => .ok target

def bind_one (param : Param) (value : Value) (parts : Parts) : Except BindError Parts := do
  match param.location with
  | .Path =>
    let rendered ← scalar_string values param.name value
    return { parts with path_values := parts.path_values.insert param.name rendered }
  | .Query =>
    let rendered ← query_strings values param.name value
    return { parts with query_values := parts.query_values.insert param.name rendered }
  | .Header =>
    if !is_header_param_name_allowed param.name then throw (.HeaderNotAllowed param.name)
    let rendered ← scalar_string values param.name value
    if rendered.toList.any fun c => c = '\r' || c = '\n' then
      throw (.HeaderInvalidValue param.name)
    return { parts with headers := parts.headers.insert param.name rendered }
  | .Body pointer =>
    let body ← assign_body values parts.body pointer value param.name
    return { parts with body := some body }
  | .Local => throw (.LocalParamNotBindable param.name)

/-- A param without a value is left out. -/
def bind_param (args : BTreeMap String Value) (parts : Parts) (param : Param) :
    Except BindError Parts :=
  match args.get param.name with
  | none => .ok parts
  | some value => bind_one values param value parts

def encode_query (query_values : BTreeMap String (List String)) : String :=
  crate.form_serialize (query_values.flatMap fun kv => kv.2.map fun v => (kv.1, v))

/-- The host as the standard library writes it. -/
def host_part : Host → String
  | .Domain name => name
  | .Ipv4 ip => ip.to_string
  | .Ipv6 ip => "[" ++ ip.to_string ++ "]"

/-- The text of the service's origin. -/
def origin_text (base : Url) (host : Host) : String :=
  base.scheme ++ "://" ++ host_part host ++
    match base.port with
    | some port => ":" ++ Nat.repr port
    | none => ""

/-- Whether the URL is where the base URL is and what was asked for. -/
def contained (parsed base : Url) (path : String) : Bool :=
  parsed.scheme = base.scheme && parsed.host_str = base.host_str &&
    parsed.port_or_known_default = base.port_or_known_default && parsed.path = path &&
    parsed.username = "" && parsed.password.isNone && parsed.fragment.isNone

/-- The base URL's path plays no part. -/
def assemble_url (service : Service) (path query : String) : Except BindError Url :=
  let base := service.base_url
  match base.host with
  | none => .error .NoHost
  | some host =>
    let assembled := origin_text base host ++ path ++ if query = "" then "" else "?" ++ query
    match crate.parse assembled with
    | .error e => .error (.UrlParse e)
    | .ok parsed => if contained parsed base path then .ok parsed else .error .ContainmentViolation

def bind (call : ApiCall) (service : Service) (args : BTreeMap String Value) :
    Except BindError BoundRequest := do
  let template ← (UrlTemplate.parse call.path_template).mapError .Template
  let parts ← call.params.foldlM (bind_param values args)
    { path_values := []
      query_values := BTreeMap.collect (call.query_fixed.map fun kv => (kv.1, [kv.2]))
      headers := []
      body := call.body_template }
  let path ← (template.render parts.path_values).mapError .Template
  let url ← assemble_url crate service path (encode_query crate parts.query_values)
  return { method := call.method, url, headers := parts.headers, body := parts.body }

end

end api2mcp.http
