import Api2Mcp.Http.Paginate

namespace api2mcp

/-- `impl Display for CredError`. -/
def CredError.to_string : CredError → String
  | .MissingEnvVar env_key => "environment variable " ++ fmt.debug env_key ++ " is not set"
  | .InvalidHeaderValue => "credential value cannot be represented as an HTTP header value"
  | .MissingStoredCredential =>
    "auth provider stores its credential on the row, but no value has been set yet"

namespace http

/-- `impl Display for GuardError`. -/
def GuardError.to_string : GuardError → String
  | .UnsupportedScheme scheme => "scheme " ++ fmt.debug scheme ++ " is not http or https"
  | .OriginNotAllowed origin => "origin " ++ origin ++ " is not in the service's allowlist"
  | .NoHost => "URL has no host"
  | .DeniedLiteralIp host range =>
    "host " ++ fmt.debug host ++ " is a literal IP address in a denied range (" ++ range ++ ")"

/-- `impl Display for AuthError`. -/
def AuthError.to_string : AuthError → String
  | .Credential e => "credential: " ++ e.to_string
  | .InvalidHeaderName name =>
    "header name " ++ fmt.debug name ++ " configured on the auth provider is not a valid header name"

/-- `impl Display for BodyError`. -/
def BodyError.to_string : BodyError → String
  | .ContentLengthExceedsCap cap actual =>
    "response body is " ++ Nat.repr actual ++ " bytes, which exceeds the " ++ Nat.repr cap ++
      "-byte cap (from Content-Length)"
  | .StreamExceedsCap cap =>
    "response body exceeded the " ++ Nat.repr cap ++ "-byte cap while streaming"
  | .Transport message => "reading response body: " ++ message

/-- `impl Display for CallError`. -/
def CallError.to_string : CallError → String
  | .Guard e => "guard: " ++ e.to_string
  | .Auth e => "auth: " ++ e.to_string
  | .Body e => "body: " ++ e.to_string
  | .TooManyRedirects max => "more than " ++ Nat.repr max ++ " redirects"
  | .MissingLocation => "redirect response carried no Location header"
  | .InvalidLocation reason => "redirect Location could not be resolved to a URL: " ++ reason
  | .Timeout => "request timed out"
  | .InvalidHeader => "a header could not be represented as an HTTP header"
  | .Transport message => "sending request: " ++ message

/-- `impl Display for PaginateError`. -/
def PaginateError.to_string : PaginateError → String
  | .Call e => "call: " ++ e.to_string
  | .PageCapExceeded max =>
    "reached the " ++ Nat.repr max ++ "-page cap without pagination completing"
  | .ResponseNotJson message => "page response body was not valid JSON: " ++ message
  | .CursorNotString pointer actual =>
    "next-page cursor at " ++ fmt.debug pointer ++ " matched a " ++ actual ++
      " value, expected a JSON string"

end http

end api2mcp
