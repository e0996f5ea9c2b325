import Api2Mcp.Runtime.Batch

namespace api2mcp

open serde_json

/-- The members of a serialized error, in the order they are written. -/
abbrev Fields := List (String × Value)

/-- `impl Serialize for CredError`. -/
def CredError.fields : CredError → Fields
  | .MissingEnvVar env_key => [("error", .string "missing_env_var"), ("env_key", .string env_key)]
  | .InvalidHeaderValue => [("error", .string "invalid_header_value")]
  | .MissingStoredCredential => [("error", .string "missing_stored_credential")]

namespace schema

/-- `impl Serialize for ValidationError`. -/
def ValidationError.fields : ValidationError → Fields
  | .NotAnObject => [("error", .string "not_an_object")]
  | .UnknownParam param => [("error", .string "unknown_param"), ("param", .string param)]
  | .MissingRequired param => [("error", .string "missing_required"), ("param", .string param)]
  | .WrongType param expected got =>
    [("error", .string "wrong_type"), ("param", .string param), ("expected", .string expected),
      ("got", .string got)]
  | .NotInEnum param => [("error", .string "not_in_enum"), ("param", .string param)]

end schema

namespace http

/-- `impl Serialize for TemplateError`: a variant that holds a bare text cannot
carry its tag. -/
def TemplateError.fields : TemplateError → Option Fields
  | .EmptySegment => some [("error", .string "empty_segment")]
  | _ => none

/-- `impl Serialize for BindError`. -/
def BindError.fields : BindError → Option Fields
  | .Template e => e.fields.map (("error", .string "template") :: ·)
  | .HeaderNotAllowed name => some [("error", .string "header_not_allowed"), ("name", .string name)]
  | .HeaderInvalidValue name => some [("error", .string "header_invalid_value"), ("name", .string name)]
  | .UnsupportedValueShape name shape =>
    some [("error", .string "unsupported_value_shape"), ("name", .string name), ("shape", .string shape)]
  | .LocalParamNotBindable name =>
    some [("error", .string "local_param_not_bindable"), ("name", .string name)]
  | .BodyAssign pointer message =>
    some [("error", .string "body_assign"), ("pointer", .string pointer), ("message", .string message)]
  | .NoHost => some [("error", .string "no_host")]
  | .UrlParse _ => none
  | .ContainmentViolation => some [("error", .string "containment_violation")]

/-- `impl Serialize for GuardError`. -/
def GuardError.fields : GuardError → Fields
  | .UnsupportedScheme scheme => [("error", .string "unsupported_scheme"), ("scheme", .string scheme)]
  | .OriginNotAllowed origin => [("error", .string "origin_not_allowed"), ("origin", .string origin)]
  | .NoHost => [("error", .string "no_host")]
  | .DeniedLiteralIp host range =>
    [("error", .string "denied_literal_ip"), ("host", .string host), ("range", .string range)]

/-- `impl Serialize for AuthError`. -/
def AuthError.fields : AuthError → Fields
  | .Credential e => ("error", .string "credential") :: e.fields
  | .InvalidHeaderName name => [("error", .string "invalid_header_name"), ("name", .string name)]

/-- `impl Serialize for BodyError`. -/
def BodyError.fields : BodyError → Fields
  | .ContentLengthExceedsCap cap actual =>
    [("error", .string "content_length_exceeds_cap"), ("cap", .of_nat cap), ("actual", .of_nat actual)]
  | .StreamExceedsCap cap => [("error", .string "stream_exceeds_cap"), ("cap", .of_nat cap)]
  | .Transport message => [("error", .string "transport"), ("message", .string message)]

/-- `impl Serialize for CallError`. -/
def CallError.fields : CallError → Fields
  | .Guard e => ("error", .string "guard") :: e.fields
  | .Auth e => ("error", .string "auth") :: e.fields
  | .Body e => ("error", .string "body") :: e.fields
  | .TooManyRedirects max => [("error", .string "too_many_redirects"), ("max", .of_nat max)]
  | .MissingLocation => [("error", .string "missing_location")]
  | .InvalidLocation reason => [("error", .string "invalid_location"), ("reason", .string reason)]
  | .Timeout => [("error", .string "timeout")]
  | .InvalidHeader => [("error", .string "invalid_header")]
  | .Transport message => [("error", .string "transport"), ("message", .string message)]

/-- `impl Serialize for PaginateError`. -/
def PaginateError.fields : PaginateError → Fields
  | .Call e => ("error", .string "call") :: e.fields
  | .PageCapExceeded max => [("error", .string "page_cap_exceeded"), ("max", .of_nat max)]
  | .ResponseNotJson message =>
    [("error", .string "response_not_json"), ("message", .string message)]
  | .CursorNotString pointer actual =>
    [("error", .string "cursor_not_string"), ("pointer", .string pointer), ("actual", .string actual)]

end http

namespace project

/-- `impl Serialize for ProjectionError`. -/
def ProjectionError.fields : ProjectionError → Fields
  | .InvalidPath name path message =>
    [("error", .string "invalid_path"), ("name", .string name), ("path", .string path),
      ("message", .string message)]
  | .Missing name path =>
    [("error", .string "missing"), ("name", .string name), ("path", .string path)]
  | .AmbiguousMatch name path count =>
    [("error", .string "ambiguous_match"), ("name", .string name), ("path", .string path),
      ("count", .of_nat count)]
  | .CoercionFailed name actual expected =>
    [("error", .string "coercion_failed"), ("name", .string name), ("actual", .string actual),
      ("expected", .string expected)]

end project

namespace runtime

open api2mcp.http
open api2mcp.runtime.budget api2mcp.runtime.dispatch

/-- `impl Serialize for DispatchError`, without the attempt. -/
def dispatch.DispatchError.fields : DispatchError → Option Fields
  | .NotDeclared name => some [("kind", .string "not_declared"), ("name", .string name)]
  | .NotAnApiCall name => some [("kind", .string "not_an_api_call"), ("name", .string name)]
  | .Args e => some (("kind", .string "args") :: e.fields)
  | .Bind e => e.fields.map (("kind", .string "bind") :: ·)
  | .Send e => some (("kind", .string "send") :: e.fields)
  | .Client _ => none
  | .HttpStatus status reason detail _ =>
    some [("kind", .string "http_status"), ("status", .of_nat status), ("reason", .string reason),
      ("detail", .string detail)]
  | .ResponseNotJson message _ =>
    some [("kind", .string "response_not_json"), ("message", .string message)]
  | .Projection source _ => some [("kind", .string "projection"), ("source", .json source.fields)]

/-- `impl Debug for BudgetAxis`. -/
def budget.BudgetAxis.debug : BudgetAxis → String
  | .Calls => "Calls"
  | .Bytes => "Bytes"
  | .WallClock => "WallClock"
  | .Pages => "Pages"

namespace batch

def dispatch_error_object (crate : net.UrlCrate) (e : DispatchError) : Value :=
  let fields := e.fields.getD [("kind", .string "internal")]
  .json (fields ++ [("message", .string (redact_message crate e.to_string))])

def budget_error_object (axis : BudgetAxis) (attempted : Bool) : Value :=
  let message := if attempted then "budget exceeded: " ++ axis.as_str
    else "not attempted: budget exceeded (" ++ axis.as_str ++ ")"
  .json [("kind", .string "budget_exceeded"), ("axis", .string axis.as_str),
    ("attempted", .bool attempted), ("message", .string message)]

def ItemOutcome.error_object (crate : net.UrlCrate) : ItemOutcome → Option Value
  | Ok _ => none
  | Failed e => some (dispatch_error_object crate e)
  | NotAttempted axis => some (budget_error_object axis false)
  | BudgetCut axis _ => some (budget_error_object axis true)

/-- The error of an entry that is no success, or the tag that stands in for it. -/
def BatchEntry.error_value (crate : net.UrlCrate) (entry : BatchEntry) : Value :=
  (entry.outcome.error_object crate).getD (.json [("kind", .string "internal")])

end batch

end runtime

end api2mcp
