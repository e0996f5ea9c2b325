import Api2Mcp.Http.World
import Api2Mcp.Model.Auth

namespace api2mcp.http

open net
open api2mcp.model

inductive AuthError where
  | Credential (e : CredError)
  | InvalidHeaderName (name : String)
  deriving DecidableEq, Repr

/-- `Secret::load`, or the provider's own row. -/
def credential (source : CredentialSource) : Io (Except CredError Secret) :=
  match source with
  | .Env key => do
    match ← Io.env key with
    | none => return .error (.MissingEnvVar key)
    | some value => return .ok ⟨value⟩
  | .Stored (some value) => return .ok value
  | .Stored none => return .error .MissingStoredCredential

/-- The headers with the provider's credential among them, on the provider's
own origin only. -/
def apply (provider : AuthProvider) (url : Url) (headers : HeaderMap) :
    Io (Except AuthError HeaderMap) :=
  match Origin.of url with
  | .error _ => return .ok headers
  | .ok origin =>
    if origin ≠ provider.bound_origin then return .ok headers
    else do
      match ← credential provider.credential with
      | .error e => return .error (.Credential e)
      | .ok secret =>
        match secret.into_header_value provider.value_template with
        | .error e => return .error (.Credential e)
        | .ok value =>
          match HeaderName.try_from provider.header_name with
          | none => return .error (.InvalidHeaderName provider.header_name)
          | some name => return .ok (headers.insert name value)

end api2mcp.http
