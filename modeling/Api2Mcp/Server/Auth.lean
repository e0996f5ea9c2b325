import Api2Mcp.Net.Http
import Api2Mcp.Store.ServiceToken

namespace api2mcp.server

open btree concurrent
open api2mcp.model api2mcp.store api2mcp.store.service_token

inductive CallerKind where
  | Session
  | ServiceToken
  | Oauth
  | Cli
  deriving DecidableEq, Repr

structure Caller where
  kind : CallerKind
  id : Uuid
  deriving DecidableEq

def Caller.from_service_token (record : ServiceTokenRecord) : Caller where
  kind := .ServiceToken
  id := record.owner_id

structure BearerChallenge where
  www_authenticate : String
  deriving DecidableEq

/-- Which endpoints a caller may reach. `Only` of no endpoint reaches none. -/
inductive EndpointGrants where
  | All
  | Only (allowed : BTreeSet Slug)
  deriving DecidableEq

def EndpointGrants.allows (slug : Slug) : EndpointGrants → Bool
  | .All => true
  | .Only allowed => allowed.contains slug

structure ResolvedCredential where
  caller : Caller
  endpoint_grants : EndpointGrants
  control_plane : Bool
  deriving DecidableEq

def challenge (base_url : String) : BearerChallenge :=
  ⟨"Bearer resource_metadata=\"" ++ base_url ++ "/.well-known/oauth-protected-resource\""⟩

/-- `Authorization: Bearer <token>`, the scheme in any case. -/
def bearer_token (headers : net.HeaderMap) : Option String :=
  match (headers.get ⟨"authorization"⟩).bind net.HeaderValue.to_str with
  | none => none
  | some value =>
    let cs := value.toList
    let scheme := cs.takeWhile (· ≠ ' ')
    match cs.dropWhile (· ≠ ' ') with
    | [] => none
    | _ :: token =>
      if scheme.map Char.toLower = "bearer".toList && !token.isEmpty then
        some (String.ofList token)
      else none

/-- The credential a resolved service token stands for. -/
def credential_of (record : ServiceTokenRecord) : ResolvedCredential where
  caller := .from_service_token record
  endpoint_grants := if record.restricted then .Only record.endpoints else .All
  control_plane := record.control_plane

section

variable (sha256_hex : String → String) (base_url : String)

/-- `oauth_caller` is what the stores of the authorization server and of the
users make of a token. -/
def authenticate_mcp (oauth_caller : String → Option Caller) (headers : net.HeaderMap) :
    DbTask (Except BearerChallenge ResolvedCredential) :=
  match bearer_token headers with
  | none => return .error (challenge base_url)
  | some token =>
    match oauth_caller token with
    | some caller => return .ok { caller, endpoint_grants := .All, control_plane := true }
    | none => do
      match ← resolve sha256_hex token with
      | .ok (some record) => return .ok (credential_of record)
      | .ok none => return .error (challenge base_url)
      | .error _ => return .error (challenge base_url)

end

end api2mcp.server
