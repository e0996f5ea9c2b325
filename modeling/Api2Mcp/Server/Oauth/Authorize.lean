import Api2Mcp.Net.Http
import Api2Mcp.Server.Oauth.Token
import Api2Mcp.Store.OauthConsents
import Api2Mcp.Text.Fmt
import Api2Mcp.Text.Percent

namespace api2mcp.server.oauth

open concurrent
open api2mcp.entity api2mcp.store

/-- `utf8_percent_encode(s, NON_ALPHANUMERIC)`. -/
def percent_encode (s : String) : String :=
  String.ofList <| percent.encode
    (fun b => (48 ≤ b && b ≤ 57) || (65 ≤ b && b ≤ 90) || (97 ≤ b && b ≤ 122)) (net.utf8 s)

namespace register

structure RegisterRequest where
  redirect_uris : List String := []
  client_name : Option String := none

/-- The body of a successful registration. -/
structure Registered where
  client_id : Uuid
  client_id_issued_at : DateTime
  client_name : String
  redirect_uris : List String
  grant_types : List String
  response_types : List String
  token_endpoint_auth_method : String
  deriving DecidableEq

/-- `parses` is whether `url::Url::parse` accepts a text. -/
def validate_redirect_uris (parses : String → Bool) (uris : List String) : Except OAuthError Unit :=
  if uris.isEmpty then
    throw (.bad "invalid_redirect_uri" "redirect_uris is required and must be non-empty")
  else
    match uris.find? fun uri => !parses uri with
    | some uri => throw (.bad "invalid_redirect_uri" (fmt.debug uri ++ " is not a valid URL"))
    | none => return ()

section

variable (sha256_hex : String → String) (parses : String → Bool)

/-- Every client is a public one: no secret is drawn for it. -/
def register_client (req : RegisterRequest) (id : Uuid) : AuthTask (Except OAuthError Registered) :=
  match validate_redirect_uris parses req.redirect_uris with
  | .error e => return .error e
  | .ok () => do
    let new : NewOauthClient :=
      { client_name := req.client_name.getD "mcp-client"
        redirect_uris := req.redirect_uris
        grant_types := ["authorization_code", "refresh_token"]
        token_endpoint_auth_method := "none"
        scope := none }
    match ← store.register_client sha256_hex new false id "" with
    | .error e => return .error (.from_store e)
    | .ok (client, _) =>
      return .ok
        { client_id := client.id
          client_id_issued_at := client.created_at / 1000000
          client_name := client.client_name
          redirect_uris := client.redirect_uris
          grant_types := client.grant_types
          response_types := ["code"]
          token_endpoint_auth_method := client.token_endpoint_auth_method }

end

end register

namespace authorize

def CODE_TTL_SECS : Int := 600

def CONSENT_REQUEST_TTL_SECS : Int := 600

/-- `chrono::Duration::seconds`. -/
def seconds (n : Int) : Int := n * 1000000

structure AuthorizeQuery where
  response_type : Option String := none
  client_id : Option String := none
  redirect_uri : Option String := none
  code_challenge : Option String := none
  code_challenge_method : Option String := none
  scope : Option String := none
  state : Option String := none
  resource : Option String := none

/-- `redirect_uri` with a query pair and the client's `state`, if it has one. -/
def redirect_target (redirect_uri pair : String) (oauth_state : Option String) : String :=
  let sep := if redirect_uri.contains '?' then "&" else "?"
  let target := redirect_uri ++ sep ++ pair
  match oauth_state.filter fun s => s ≠ "" with
  | none => target
  | some st => target ++ "&state=" ++ percent_encode st

section

variable (sha256_hex : String → String)

/-- Answers with the target of the redirect. -/
def issue_code_and_redirect (client_id user_id : Uuid)
    (redirect_uri code_challenge code_challenge_method scope : String)
    (resource oauth_state : Option String) (plaintext : String) : AuthTask (Except OAuthError String) := do
  let now ← auth.utc_now
  let new : NewOauthCode :=
    { client_id, user_id, redirect_uri, code_challenge, code_challenge_method, resource
      scope := some scope
      expires_at := now + seconds CODE_TTL_SECS }
  match ← create_code sha256_hex new plaintext with
  | .error e => return .error (.from_store e)
  | .ok code => return .ok (redirect_target redirect_uri ("code=" ++ percent_encode code) oauth_state)

/-- What an authorization request asks for, once it is well formed. -/
structure Requested where
  method : String
  challenge : String
  client_id : Uuid
  redirect_uri : String

/-- The checks made before the client is looked up. -/
def check_query (parse_uuid : String → Option Uuid) (q : AuthorizeQuery) : Except OAuthError Requested := do
  if q.response_type ≠ some "code" then
    throw (.bad "unsupported_response_type" "only response_type=code is supported")
  let method := q.code_challenge_method.getD "S256"
  if method ≠ "S256" then
    throw (.bad "invalid_request"
      "only code_challenge_method=S256 is supported (PKCE \"plain\" is refused)")
  let some challenge := q.code_challenge.filter fun c => c ≠ ""
    | throw (.bad "invalid_request" "code_challenge is required (PKCE)")
  let some client_id_str := q.client_id
    | throw (.bad "invalid_request" "client_id is required")
  let some client_id := parse_uuid client_id_str
    | throw (.bad "invalid_client" "unknown client_id")
  let some redirect_uri := q.redirect_uri
    | throw (.bad "invalid_request" "redirect_uri is required")
  return { method, challenge, client_id, redirect_uri }

/-- The random values an authorization draws: the code and the ids of a new
consent and of a consent request. -/
structure Drawn where
  code : String
  consent_id : Uuid
  request_id : Uuid

variable (parse_uuid : String → Option Uuid) (uuid_text : Uuid → String)

/-- `caller` is who the session cookie belongs to, and `path_and_query` the
request's own; answers with the target of the redirect. -/
def authorize (q : AuthorizeQuery) (caller : Option Uuid) (path_and_query : String) (drawn : Drawn) :
    AuthTask (Except OAuthError String) :=
  match check_query parse_uuid q with
  | .error e => return .error e
  | .ok r => do
    match ← get_client r.client_id with
    | none => return .error (.bad "invalid_client" "unknown client_id")
    | some client =>
      if !client.redirect_uris.contains r.redirect_uri then
        return .error (.bad "invalid_request" "redirect_uri is not registered for this client")
      match caller with
      | none => return .ok ("/login?next=" ++ percent_encode path_and_query)
      | some caller =>
        let scope := q.scope.getD SCOPE_MCP
        if ← has_consent caller r.client_id scope then
          issue_code_and_redirect sha256_hex r.client_id caller r.redirect_uri r.challenge r.method scope
            q.resource q.state drawn.code
        else
          let now ← auth.utc_now
          let new : NewConsentRequest :=
            { client_id := r.client_id, redirect_uri := r.redirect_uri, scope := some scope
              resource := q.resource, code_challenge := r.challenge, code_challenge_method := r.method
              state := q.state
              expires_at := now + seconds CONSENT_REQUEST_TTL_SECS }
          match ← create_consent_request new drawn.request_id with
          | .error e => return .error (.from_store e)
          | .ok id => return .ok ("/oauth/consent?request_id=" ++ uuid_text id)

end

end authorize

namespace consent

structure ConsentForm where
  request_id : String
  decision : String

def parse_request_id (parse_uuid : String → Option Uuid) (raw : Option String) : Except OAuthError Uuid :=
  match raw.bind parse_uuid with
  | none => throw (.bad "invalid_request" "missing or malformed request_id")
  | some id => return id

/-- An expired request is the same as a missing one, and is deleted. -/
def load_live_request (request_id : Uuid) : AuthTask (Except OAuthError ConsentRequest) := do
  match ← get_consent_request request_id with
  | none => return .error (.bad "invalid_request" "consent request not found or already used")
  | some req =>
    let now ← auth.utc_now
    if req.expires_at ≤ now then
      delete_consent_request (.drop_expired request_id) request_id
      return .error (.bad "invalid_request" "consent request expired")
    return .ok req

def deny_redirect (req : ConsentRequest) : String :=
  authorize.redirect_target req.redirect_uri "error=access_denied" req.state

section

variable (sha256_hex : String → String) (parse_uuid : String → Option Uuid)

/-- The part of `post_consent` after the request was consumed. -/
def decide_request (req : ConsentRequest) (decision : String) (caller : Uuid) (drawn : authorize.Drawn) :
    AuthTask (Except OAuthError String) :=
  if decision ≠ "approve" then return .ok (deny_redirect req)
  else do
    let scope := req.scope.getD SCOPE_MCP
    match ← grant_consent caller req.client_id scope drawn.consent_id with
    | .error e => return .error (.from_store e)
    | .ok () =>
      authorize.issue_code_and_redirect sha256_hex req.client_id caller req.redirect_uri req.code_challenge
        req.code_challenge_method scope req.resource req.state drawn.code

/-- `caller` is who the session cookie belongs to; answers with the target of
the redirect. -/
def post_consent (form : ConsentForm) (caller : Option Uuid) (drawn : authorize.Drawn) :
    AuthTask (Except OAuthError String) :=
  match parse_request_id parse_uuid (some form.request_id) with
  | .error e => return .error e
  | .ok request_id =>
    match caller with
    | none => return .error (.bad "access_denied" "not logged in")
    | some caller => do
      match ← load_live_request request_id with
      | .error e => return .error e
      | .ok req =>
        delete_consent_request (.consume_request request_id) request_id
        decide_request sha256_hex req form.decision caller drawn

end

end consent

end api2mcp.server.oauth
