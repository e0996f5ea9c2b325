import Api2Mcp.Pack.Credentials
import Api2Mcp.Server.Api.Writes
import Api2Mcp.Store.Providers

namespace api2mcp.pack

inductive PackAuthKind where
  | StaticHeader
  | OAuth2ClientCredentials
  deriving DecidableEq

/-- Without an environment key the credential is stored on the provider's row. -/
structure PackAuthProvider where
  service : String
  kind : PackAuthKind
  credential_env_key : Option String
  header_name : String
  value_template : String
  scopes : List String
  token_url : Option String
  bound_origin : String

end api2mcp.pack

namespace api2mcp.server.api

open btree concurrent
open api2mcp.model api2mcp.entity api2mcp.store api2mcp.pack

namespace convert

def parse_slug (s : String) : Except String Slug :=
  (Slug.from_str s).mapError fun e => "slug " ++ fmt.debug s ++ ": " ++ e.to_string

section

variable (crate : net.UrlCrate)

def parse_url (s : String) : Except String net.Url :=
  (crate.parse s).mapError fun e => "url " ++ fmt.debug s ++ ": " ++ e

def parse_origin (s : String) : Except String Origin :=
  (Origin.from_str crate s).mapError fun e => "origin " ++ fmt.debug s ++ ": " ++ e.to_string

def auth_kind_from_pack : PackAuthKind → AuthKind
  | .StaticHeader => .StaticHeader
  | .OAuth2ClientCredentials => .OAuth2ClientCredentials

def auth_provider_from_pack (owner_id : Uuid) (slug service_slug : Slug) (p : PackAuthProvider) :
    Except String AuthProvider := do
  let token_url ← p.token_url.mapM (parse_url crate)
  let bound_origin ← parse_origin crate p.bound_origin
  return {
    owner_id, slug, service_slug, kind := auth_kind_from_pack p.kind
    credential :=
      match p.credential_env_key with
      | some key => .Env key
      | none => .Stored none
    header_name := p.header_name, value_template := p.value_template, scopes := p.scopes, token_url, bound_origin }

end

end convert

namespace auth_providers

open convert

/-- The body of a `PUT`; the definition is flattened into it. -/
structure AuthProviderUpdate where
  definition : PackAuthProvider
  credential_value : Option String

def bound_origin_ok (service : Service) (provider : AuthProvider) : Except ApiError Unit :=
  if Origin.contains service.origin_allowlist provider.bound_origin then .ok ()
  else
    .error (.Validation ["auth_providers." ++ provider.slug.as_str ++ ": bound_origin " ++
      provider.bound_origin.ascii_serialization ++ " is not in service " ++ fmt.debug service.slug.as_str ++
      "'s origin_allowlist"])

def credential_shape_ok (definition : PackAuthProvider) : Except ApiError Unit :=
  let errors :=
    (match definition.credential_env_key with
      | some key =>
        if validate_credentials.looks_like_credential key then
          ["credential_env_key looks like it contains a credential value, not a reference to one"]
        else []
      | none => []) ++
    if validate_credentials.looks_like_credential definition.value_template then
      ["value_template looks like it contains a credential value, not a template"]
    else []
  if errors = [] then .ok () else .error (.Validation errors)

/-- An empty value clears the credential that is stored, an absent one leaves
it; a provider with an environment key has none. -/
def apply_credential_value (provider : AuthProvider) (submitted : Option String)
    (existing : Option AuthProvider) : AuthProvider :=
  match provider.credential with
  | .Env _ => provider
  | .Stored _ =>
    let carried_over :=
      match existing.map (·.credential) with
      | some (.Stored value) => value
      | _ => none
    { provider with
      credential := .Stored <|
        match submitted with
        | some value => if value = "" then none else some ⟨value⟩
        | none => carried_over }

def find (owner_id : Uuid) (slug : String) : DbTask (Except ApiError AuthProvider) := do
  match ← fetch (store.auth_provider.list_all owner_id) with
  | .error e => return .error (.from_store e)
  | .ok all =>
    match all.find? fun p => p.slug.as_str = slug with
    | some provider => return .ok provider
    | none => return .error (.NotFound ("auth provider " ++ fmt.debug slug ++ " not found"))

section

variable (crate : net.UrlCrate)

/-- The provider a `PUT` is to store over `existing`. -/
def updated (caller_id : Uuid) (slug : String) (body : AuthProviderUpdate) (existing : AuthProvider)
    (service : Service) : Except ApiError AuthProvider := do
  let parsed_slug ← (convert.parse_slug slug).mapError .BadRequest
  let provider ← (auth_provider_from_pack crate caller_id parsed_slug existing.service_slug
    body.definition).mapError .BadRequest
  bound_origin_ok service provider
  return apply_credential_value provider body.credential_value (some existing)

/-- The part of `update` after the existing provider was found. -/
def update_existing (caller_id : Uuid) (slug : String) (body : AuthProviderUpdate) (existing : AuthProvider) :
    DbTask (Except ApiError AuthProvider) := do
  if existing.service_slug.as_str ≠ body.definition.service then
    return .error (.BadRequest ("cannot move an auth provider to a different service via PUT; " ++
      "delete and recreate it instead"))
  else
    match credential_shape_ok body.definition with
    | .error e => return .error e
    | .ok () =>
      match ← fetch (store.service.get_by_slug caller_id existing.service_slug) with
      | .error e => return .error (.from_store e)
      | .ok none => return .error .Internal
      | .ok (some service) =>
        match updated crate caller_id slug body existing service with
        | .error e => return .error e
        | .ok provider =>
          match ← write_after (store.auth_provider.update provider) with
          | .error e => return .error (.from_store e)
          | .ok () => return .ok provider

def update (caller_id : Uuid) (slug : String) (body : AuthProviderUpdate) :
    DbTask (Except ApiError AuthProvider) := do
  match ← find caller_id slug with
  | .error e => return .error e
  | .ok existing => update_existing crate caller_id slug body existing

end

end auth_providers

end api2mcp.server.api
