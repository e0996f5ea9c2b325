import Api2Mcp.Store.OauthTokens

namespace api2mcp.server.oauth

open concurrent
open api2mcp.store

structure OAuthError where
  status : Nat
  error : String
  description : String
  deriving DecidableEq, Repr

def OAuthError.bad (error description : String) : OAuthError := ⟨400, error, description⟩

def OAuthError.server_error (description : String) : OAuthError := ⟨500, "server_error", description⟩

/-- `impl From<StoreError> for OAuthError`: the store's own message is never
forwarded. -/
def OAuthError.from_store (_ : StoreError) : OAuthError := .server_error "internal error"

/-- The body of a successful answer. The two optional members are left out
when absent. -/
structure TokenResponse where
  access_token : String
  token_type : String
  expires_in : Int
  refresh_token : Option String
  scope : Option String
  deriving DecidableEq

def token_response (access_token : String) (refresh_token : Option String) (expires_in : Int)
    (scope : Option String) : TokenResponse :=
  { access_token, token_type := "Bearer", expires_in, refresh_token, scope }

/-- `base64url(SHA-256(verifier)) == code_challenge`; `s256` is the digest with
its encoding. -/
def verify_pkce_s256 (s256 : String → String) (verifier challenge : String) : Bool :=
  s256 verifier = challenge

def ACCESS_TOKEN_TTL_SECS : Nat := 3600

def REFRESH_TOKEN_TTL_DAYS : Nat := 30

def SCOPE_MCP : String := "mcp"

/-- `Duration::from_secs`. -/
def from_secs (secs : Nat) : Duration := secs * 1000000

structure TokenRequest where
  grant_type : String
  code : Option String := none
  redirect_uri : Option String := none
  code_verifier : Option String := none
  client_id : Option String := none
  refresh_token : Option String := none

section

variable (sha256_hex s256 : String → String) (parse_uuid : String → Option Uuid)

/-- The checks of a consumed code against the request, in order. -/
def check_grant (req : TokenRequest) (verifier : String) (consumed : OauthCode) :
    Except OAuthError Unit := do
  if consumed.code_challenge_method ≠ "S256" then
    throw (.bad "invalid_grant" "only S256 PKCE is supported")
  if !verify_pkce_s256 s256 verifier consumed.code_challenge then
    throw (.bad "invalid_grant" "PKCE verification failed")
  if let some rd := req.redirect_uri then
    if rd ≠ consumed.redirect_uri then
      throw (.bad "invalid_grant" "redirect_uri mismatch")
  if let some cid := req.client_id then
    match parse_uuid cid with
    | none => throw (.bad "invalid_grant" "client_id mismatch")
    | some cid =>
      if cid ≠ consumed.client_id then
        throw (.bad "invalid_grant" "client_id mismatch")

/-- The part of `exchange_code` after `consume_code` returned. -/
def redeem (req : TokenRequest) (verifier : String) (draws : Draws)
    (consumed : Except StoreError (Option OauthCode)) :
    OauthTask (Except OAuthError TokenResponse) :=
  match consumed with
  | .error e => return .error (.from_store e)
  | .ok none => return .error (.bad "invalid_grant" "unknown, used, or expired code")
  | .ok (some consumed) =>
    match check_grant s256 parse_uuid req verifier consumed with
    | .error e => return .error e
    | .ok () => do
      let scope := consumed.scope.getD SCOPE_MCP
      let grant : TokenGrant :=
        { client_id := consumed.client_id, user_id := consumed.user_id, scope := some scope
          resource := consumed.resource }
      match ← issue_token sha256_hex grant (from_secs ACCESS_TOKEN_TTL_SECS)
          (some (from_secs (60 * 60 * 24 * REFRESH_TOKEN_TTL_DAYS))) draws with
      | .error e => return .error (.from_store e)
      | .ok issued =>
        return .ok (token_response issued.access_token issued.refresh_token ACCESS_TOKEN_TTL_SECS
          (some scope))

/-- Besides the response, the answer keeps what the inner `consume_code` said;
a request that is refused before it has nothing to keep. -/
def exchange_code (req : TokenRequest) (draws : Draws) :
    OauthTask (Option (Except StoreError (Option OauthCode)) × Except OAuthError TokenResponse) :=
  match req.code with
  | none => return (none, .error (.bad "invalid_request" "code is required"))
  | some code =>
    match req.code_verifier with
    | none => return (none, .error (.bad "invalid_request" "code_verifier is required (PKCE)"))
    | some verifier => do
      let consumed ← consume_code sha256_hex code
      let response ← redeem sha256_hex s256 parse_uuid req verifier draws consumed
      return (some consumed, response)

end

end api2mcp.server.oauth

namespace api2mcp.server.oauth.refresh

open concurrent
open api2mcp.store

def ABSOLUTE_FAMILY_TTL_DAYS : Int := 30

/-- `chrono::Duration::days`. -/
def days (n : Int) : Int := n * 86400000000

section

variable (sha256_hex : String → String)

/-- The part of `grant` after `rotate_refresh_token` returned: the family's own
lifetime, which does not slide as the pair rotates. -/
def check_family (rotated : Except StoreError (Option IssuedOauthToken)) :
    OauthTask (Except OAuthError TokenResponse) :=
  match rotated with
  | .error e => return .error (.from_store e)
  | .ok none =>
    return .error (.bad "invalid_grant" "unknown, reused, revoked, or expired refresh token")
  | .ok (some issued) => do
    let started ←
      match ← family_started_at issued.family_id with
      | some started => pure started
      | none => utc_now
    let now ← utc_now
    if now - started > days ABSOLUTE_FAMILY_TTL_DAYS then
      match ← revoke_family issued.family_id with
      | .error e => return .error (.from_store e)
      | .ok () =>
        return .error
          (.bad "invalid_grant" "refresh token family exceeded its absolute lifetime")
    return .ok (token_response issued.access_token issued.refresh_token ACCESS_TOKEN_TTL_SECS none)

/-- Besides the response, the answer keeps what the inner
`rotate_refresh_token` said. -/
def grant (req : TokenRequest) (draws : Draws) :
    OauthTask (Option (Except StoreError (Option IssuedOauthToken)) ×
      Except OAuthError TokenResponse) :=
  match req.refresh_token with
  | none => return (none, .error (.bad "invalid_request" "refresh_token is required"))
  | some refresh_token => do
    let rotated ← rotate_refresh_token sha256_hex refresh_token draws
    let response ← check_family rotated
    return (some rotated, response)

end

end api2mcp.server.oauth.refresh
