import Api2Mcp.Http.Redact
import Api2Mcp.Secret
import Api2Mcp.Net.Whatwg
import Api2Mcp.Store.Basic
import Api2Mcp.Text.Percent

namespace api2mcp.server

open net

structure OidcConfig where
  issuer : String
  client_id : String
  client_secret : Secret
  redirect_uri : String

/-- What the login reads of the configuration. -/
structure Config where
  base_url : String
  session_ttl : Nat
  oidc : Option OidcConfig

namespace login

/-- What the login page shows: where the form leads, what went wrong, and the
link to the identity provider with its label. -/
structure LoginPage where
  next : String
  error : Option String
  oidc_link : Option (String × String)
  deriving DecidableEq

/-- A cookie, which is `HttpOnly` and `SameSite=Lax` always. -/
structure SetCookie where
  name : String
  value : String
  path : String
  max_age_secs : Nat
  secure : Bool
  deriving DecidableEq

structure Response where
  status : Nat
  location : Option String
  set_cookie : List SetCookie
  page : Option LoginPage
  deriving DecidableEq

def SESSION_COOKIE_NAME : String := "a2m_session"

/-- `Redirect::to`. A text that is no header value is an internal error. -/
def redirect_to (location : String) (set_cookie : List SetCookie) : Response :=
  if (HeaderValue.from_str location).isSome then ⟨303, some location, set_cookie, none⟩
  else ⟨500, none, set_cookie, none⟩

/-- `str::starts_with`. -/
def starts_with (s pattern : String) : Bool := pattern.toList.isPrefixOf s.toList

/-- `str::contains`. -/
def contains (s pattern : String) : Bool := s.toList.tails.any fun rest => pattern.toList.isPrefixOf rest

/-- A path on this site: one slash, and no second one or a backslash after it. -/
def validate_next (next : Option String) : Option String :=
  match next with
  | none => none
  | some next =>
    let n := text.trim_matches http.is_whitespace next
    let looks_safe := starts_with n "/" && !starts_with n "//" && !starts_with n "/\\" && !contains n "://"
    if looks_safe then some n else none

/-- `NON_ALPHANUMERIC`, the bytes that stand as they are. -/
def alphanumeric (b : UInt8) : Bool := (48 ≤ b && b ≤ 57) || (65 ≤ b && b ≤ 90) || (97 ≤ b && b ≤ 122)

def oidc_start_url (next : String) : String :=
  "/login/oidc/start?next=" ++ String.ofList (percent.encode alphanumeric (utf8 next))

/-- `Secure` goes by the server's own configured origin. -/
def secure (cfg : Config) : Bool := starts_with cfg.base_url "https://"

def set_cookie_header (cfg : Config) (value : String) (max_age_secs : Nat) : SetCookie where
  name := SESSION_COOKIE_NAME
  value
  path := "/"
  max_age_secs
  secure := secure cfg

section

variable (crate : UrlCrate)

def provider_label (issuer : String) : String :=
  match crate.parse issuer with
  | .ok url => url.host_str.getD "identity provider"
  | .error _ => "identity provider"

def render_login_page (cfg : Config) (next : String) (error : Option String) : LoginPage where
  next
  error
  oidc_link := cfg.oidc.map fun o => (provider_label crate o.issuer, oidc_start_url next)

def page_response (status : Nat) (page : LoginPage) : Response := ⟨status, none, [], some page⟩

def get_login (cfg : Config) (next : Option String) (oidc_failed : Bool) : Response :=
  let next := (validate_next next).getD "/"
  let error := if oidc_failed then some "sign-in with the identity provider failed, try again" else none
  page_response 200 (render_login_page crate cfg next error)

structure LoginForm where
  email : String
  password : String
  next : Option String

/-- `verify_password` and `create_session` are what the database answers. -/
def post_login (cfg : Config) (verify_password : String → String → Except store.StoreError (Option Uuid))
    (create_session : Uuid → Except String String) (form : LoginForm) : Response :=
  let next := (validate_next form.next).getD "/"
  match verify_password form.email form.password with
  | .ok none => page_response 401 (render_login_page crate cfg next (some "invalid email or password"))
  | .error _ => page_response 500 (render_login_page crate cfg next (some "something went wrong, try again"))
  | .ok (some user) =>
    match create_session user with
    | .error _ => page_response 500 (render_login_page crate cfg next (some "something went wrong, try again"))
    | .ok cookie_value => redirect_to next [set_cookie_header cfg cookie_value cfg.session_ttl]

end

end login

namespace auth

/-- The value of a cookie in a `Cookie` header. -/
def cookie_value (cookie_header name : String) : Option String :=
  (cookie_header.toList.splitOn ';').findSome? fun pair =>
    let pair := (text.trim_matches http.is_whitespace (String.ofList pair)).toList
    if '=' ∈ pair ∧ pair.takeWhile (· ≠ '=') = name.toList then
      some (String.ofList ((pair.dropWhile (· ≠ '=')).drop 1))
    else none

end auth

end api2mcp.server
