import Api2Mcp.Entity.Oauth
import Api2Mcp.Store.Oauth

namespace api2mcp.store

open relational concurrent
open api2mcp.entity

/-- All of the authorization server's tables: the codes, the tokens and the
clocks are those of the token endpoint. -/
structure AuthDb where
  oauth_clients : Table oauth_clients.indexes
  oauth_consents : Table oauth_consents.indexes
  oauth_consent_requests : Table oauth_consent_requests.indexes
  oauth : OauthDb

/-- What a statement of a registration, an authorization or a consent is about.
The two deletions of a consent request are told apart by why it goes. -/
inductive AuthStmt where
  | now
  | tick
  | register_client (id : Uuid)
  | get_client (id : Uuid)
  | create_code (code_hash : String)
  | has_consent (user_id client_id : Uuid)
  | grant_consent (user_id client_id : Uuid)
  | create_consent_request (id : Uuid)
  | get_consent_request (id : Uuid)
  | drop_expired (id : Uuid)
  | consume_request (id : Uuid)
  deriving DecidableEq

abbrev AuthTask := Task AuthStmt AuthDb

namespace auth

/-- `Utc::now()`. -/
def utc_now : AuthTask DateTime := .read .now (·.oauth.now)

/-- Time passes, on both clocks. -/
def tick (app db : Int) : AuthTask Unit :=
  .exec .tick fun s =>
    ((), { s with oauth := { s.oauth with now := s.oauth.now + app, db_now := s.oauth.db_now + db } })

end auth

structure NewOauthClient where
  client_name : String
  redirect_uris : List String
  grant_types : List String
  token_endpoint_auth_method : String
  scope : Option String

structure OauthClient where
  id : Uuid
  client_name : String
  redirect_uris : List String
  grant_types : List String
  token_endpoint_auth_method : String
  scope : Option String
  has_secret : Bool
  created_at : DateTime
  deriving DecidableEq

structure NewOauthCode where
  client_id : Uuid
  user_id : Uuid
  redirect_uri : String
  code_challenge : String
  code_challenge_method : String
  resource : Option String
  scope : Option String
  expires_at : DateTime

structure NewConsentRequest where
  client_id : Uuid
  redirect_uri : String
  scope : Option String
  resource : Option String
  code_challenge : String
  code_challenge_method : String
  state : Option String
  expires_at : DateTime

/-- `store::ConsentRequest`, the columns of its row. -/
abbrev ConsentRequest := oauth_consent_requests.Model

def client_to_model (row : oauth_clients.Model) : OauthClient where
  id := row.id
  client_name := row.client_name
  redirect_uris := row.redirect_uris
  grant_types := row.grant_types
  token_endpoint_auth_method := row.token_endpoint_auth_method
  scope := row.scope
  has_secret := row.client_secret_hash.isSome
  created_at := row.created_at

def get_client (id : Uuid) : AuthTask (Option OauthClient) :=
  .read (.get_client id) fun s => (s.oauth_clients.find fun r => r.id = id).map client_to_model

section

variable (sha256_hex : String → String)

/-- `id` and `plaintext` are what the call draws. -/
def register_client (new : NewOauthClient) (confidential : Bool) (id : Uuid) (plaintext : String) :
    AuthTask (Except StoreError (OauthClient × Option String)) := do
  let secret := if confidential then some plaintext else none
  match ← (.exec (.register_client id) fun s =>
      let row : oauth_clients.Model :=
        { id
          client_secret_hash := secret.map sha256_hex
          client_name := new.client_name
          redirect_uris := new.redirect_uris
          grant_types := new.grant_types
          token_endpoint_auth_method := new.token_endpoint_auth_method
          scope := new.scope
          created_at := s.oauth.db_now }
      match s.oauth_clients.insert row with
      | none => (.error .Db, s)
      | some t => (.ok (), { s with oauth_clients := t }) : AuthTask (Except StoreError Unit)) with
  | .error e => return .error e
  | .ok () =>
    match ← get_client id with
    | none => return .error (.Internal "oauth client disappeared after insert")
    | some client => return .ok (client, secret)

/-- `plaintext` is the code that is drawn. -/
def create_code (new : NewOauthCode) (plaintext : String) : AuthTask (Except StoreError String) := do
  let row : oauth_codes.Model :=
    { code_hash := sha256_hex plaintext
      client_id := new.client_id
      user_id := new.user_id
      redirect_uri := new.redirect_uri
      code_challenge := new.code_challenge
      code_challenge_method := new.code_challenge_method
      resource := new.resource
      scope := new.scope
      used := false
      expires_at := new.expires_at }
  match ← (.exec (.create_code row.code_hash) fun s =>
      match s.oauth.oauth_codes.insert row with
      | none => (.error .Db, s)
      | some t => (.ok (), { s with oauth := { s.oauth with oauth_codes := t } }) :
        AuthTask (Except StoreError Unit)) with
  | .error e => return .error e
  | .ok () => return .ok plaintext

end

def has_consent (user_id client_id : Uuid) (scope : String) : AuthTask Bool :=
  .read (.has_consent user_id client_id) fun s =>
    (s.oauth_consents.find fun r => r.user_id = user_id && r.client_id = client_id && r.scope = scope).isSome

/-- `id` is the one a new consent draws. -/
def grant_consent (user_id client_id : Uuid) (scope : String) (id : Uuid) :
    AuthTask (Except StoreError Unit) := do
  if ← has_consent user_id client_id scope then return .ok ()
  .exec (.grant_consent user_id client_id) fun s =>
    match s.oauth_consents.insert { id, user_id, client_id, scope } with
    | none => (.error .Db, s)
    | some t => (.ok (), { s with oauth_consents := t })

def create_consent_request (new : NewConsentRequest) (id : Uuid) : AuthTask (Except StoreError Uuid) :=
  .exec (.create_consent_request id) fun s =>
    let row : oauth_consent_requests.Model :=
      { id
        client_id := new.client_id
        redirect_uri := new.redirect_uri
        scope := new.scope
        resource := new.resource
        code_challenge := new.code_challenge
        code_challenge_method := new.code_challenge_method
        state := new.state
        expires_at := new.expires_at }
    match s.oauth_consent_requests.insert row with
    | none => (.error .Db, s)
    | some t => (.ok id, { s with oauth_consent_requests := t })

def get_consent_request (id : Uuid) : AuthTask (Option ConsentRequest) :=
  .read (.get_consent_request id) fun s => s.oauth_consent_requests.find fun r => r.id = id

/-- A deletion that matches no row is none the worse for it. -/
def delete_consent_request (label : AuthStmt) (id : Uuid) : AuthTask Unit :=
  .exec label fun s =>
    ((), { s with oauth_consent_requests := s.oauth_consent_requests.delete fun r => r.id = id })

end api2mcp.store
