import Api2Mcp.Server.Login

namespace api2mcp.server.login_oidc

open net
open login

def OIDC_FLOW_COOKIE_NAME : String := "a2m_oidc_flow"

def FLOW_TTL_SECS : Nat := 600

structure OidcCallbackQuery where
  code : Option String
  state : Option String
  error : Option String

structure FlowState where
  state : String
  verifier : String
  next : String
  deriving DecidableEq

structure Discovery where
  authorization_endpoint : String
  token_endpoint : String
  userinfo_endpoint : String

structure Identity where
  subject : String
  email : String
  email_verified : Bool

/-- `serde_json` and `base64`: the value of the flow cookie. -/
structure FlowCrate where
  encode_flow : FlowState → String
  decode_flow : String → Option FlowState

/-- What the identity provider and the database answer while a login goes on. -/
structure Answers where
  discover : String → Except String Discovery
  exchange_code : Discovery → OidcConfig → String → String → Except String String
  fetch_identity : Discovery → String → Except String Identity
  find_or_create_by_oidc : String → String → String → Bool → Except store.StoreError Uuid
  create_session : Uuid → Except String String

/-- A verifier and its challenge. -/
structure Pkce where
  verifier : String
  challenge : String

def flow_cookie_header (cfg : Config) (value : String) (max_age_secs : Nat) : SetCookie where
  name := OIDC_FLOW_COOKIE_NAME
  value
  path := "/login/oidc"
  max_age_secs
  secure := secure cfg

def clear_flow_cookie (cfg : Config) : SetCookie := flow_cookie_header cfg "" 0

def login_failed_redirect (next : String) (set_cookie : List SetCookie) : Response :=
  redirect_to ("/login?error=oidc&next=" ++ String.ofList (percent.encode alphanumeric (utf8 next))) set_cookie

def clear_flow_and_fail (cfg : Config) (next : String) : Response :=
  login_failed_redirect next [clear_flow_cookie cfg]

section

variable (crate : UrlCrate) (flows : FlowCrate)

/-- `append_pair` after `append_pair`, on the query of the provider's endpoint. -/
def authorize_url (discovery : Discovery) (cfg : OidcConfig) (state code_challenge : String) : Except String Url :=
  match crate.parse discovery.authorization_endpoint with
  | .error e => .error e
  | .ok url =>
    let pairs := crate.form_serialize
      [("response_type", "code"), ("client_id", cfg.client_id), ("redirect_uri", cfg.redirect_uri),
        ("scope", "openid email"), ("state", state), ("code_challenge", code_challenge),
        ("code_challenge_method", "S256")]
    .ok { url with query := some (match url.query with
      | some query => if query = "" then pairs else query ++ "&" ++ pairs
      | none => pairs) }

/-- The two random values of a flow are given. -/
def get_oidc_start (cfg : Config) (oidc_cfg : OidcConfig) (answers : Answers) (pkce : Pkce) (state : String)
    (next : Option String) : Response :=
  let next := (validate_next next).getD "/"
  match answers.discover oidc_cfg.issuer with
  | .error _ => login_failed_redirect next []
  | .ok discovery =>
    match authorize_url crate discovery oidc_cfg state pkce.challenge with
    | .error _ => login_failed_redirect next []
    | .ok authorize_url =>
      let flow : FlowState := { state, verifier := pkce.verifier, next }
      redirect_to authorize_url.to_string [flow_cookie_header cfg (flows.encode_flow flow) FLOW_TTL_SECS]

/-- The user whose sign-in the callback completes, with a new session. -/
def signed_in (oidc_cfg : OidcConfig) (answers : Answers) (flow : FlowState) (code : String) : Except String String := do
  let discovery ← answers.discover oidc_cfg.issuer
  let access_token ← answers.exchange_code discovery oidc_cfg code flow.verifier
  let identity ← answers.fetch_identity discovery access_token
  match answers.find_or_create_by_oidc oidc_cfg.issuer identity.subject identity.email identity.email_verified with
  | .error _ => .error "resolving the user failed"
  | .ok user => answers.create_session user

def get_oidc_callback (cfg : Config) (oidc_cfg : OidcConfig) (answers : Answers) (query : OidcCallbackQuery)
    (cookie_header : Option String) : Response :=
  match (cookie_header.bind (auth.cookie_value · OIDC_FLOW_COOKIE_NAME)).bind flows.decode_flow with
  | none => clear_flow_and_fail cfg "/"
  | some flow =>
    if query.error.isSome then clear_flow_and_fail cfg flow.next
    else
      match query.code, query.state with
      | some code, some returned_state =>
        if returned_state ≠ flow.state then clear_flow_and_fail cfg flow.next
        else
          match signed_in oidc_cfg answers flow code with
          | .error _ => clear_flow_and_fail cfg flow.next
          | .ok cookie_value =>
            redirect_to flow.next [set_cookie_header cfg cookie_value cfg.session_ttl, clear_flow_cookie cfg]
      | _, _ => clear_flow_and_fail cfg flow.next

end

end api2mcp.server.login_oidc
