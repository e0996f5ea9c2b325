import Api2Mcp.Model.Auth
import Api2Mcp.Model.Endpoint

namespace api2mcp.entity

open relational btree
open api2mcp.model

namespace services

structure Model where
  id : Uuid
  owner_id : Uuid
  slug : Slug
  base_url : net.Url
  origin_allowlist : List Origin
  default_headers : List (String × String)
  timeout_ms : Nat
  max_concurrency : Nat
  rate_limit_per_min : Int
  max_response_bytes : Nat
  deriving DecidableEq

/-- The primary key and `ux_services_owner_slug`. -/
def indexes : Indexes Model := (Indexes.on Model.id).or (.on fun r => (r.owner_id, r.slug))

end services

namespace auth_providers

structure Model where
  id : Uuid
  owner_id : Uuid
  service_id : Uuid
  slug : Slug
  kind : AuthKind
  credential : CredentialSource
  header_name : String
  value_template : String
  scopes : List String
  token_url : Option net.Url
  bound_origin : Origin
  deriving DecidableEq

/-- The primary key, `ux_auth_providers_owner_slug` and
`ux_auth_providers_service`. -/
def indexes : Indexes Model :=
  ((Indexes.on Model.id).or (.on fun r => (r.owner_id, r.slug))).or (.on Model.service_id)

theorem eq_of_id {t : Table indexes} {a b : Model} (ha : a ∈ t.rows) (hb : b ∈ t.rows)
    (hid : a.id = b.id) : a = b :=
  Table.eq_of_clash ha hb (by simp [indexes, Indexes.or, Indexes.on, hid])

theorem eq_of_slug {t : Table indexes} {a b : Model} (ha : a ∈ t.rows) (hb : b ∈ t.rows)
    (howner : a.owner_id = b.owner_id) (hslug : a.slug = b.slug) : a = b :=
  Table.eq_of_clash ha hb (by simp [indexes, Indexes.or, Indexes.on, howner, hslug])

end auth_providers

namespace api_calls

structure Model where
  id : Uuid
  owner_id : Uuid
  service_id : Uuid
  slug : Slug
  method : net.Method
  path_template : String
  query_fixed : List (String × String)
  body_template : Option serde_json.Value
  access : Access
  idempotent : Bool
  projection : Option Projection
  pagination : Pagination
  timeout_ms : Option Nat
  max_response_bytes : Option Nat
  description : String

/-- The primary key and `ux_api_calls_owner_slug`. -/
def indexes : Indexes Model := (Indexes.on Model.id).or (.on fun r => (r.owner_id, r.slug))

end api_calls

namespace api_call_params

structure Model where
  api_call_id : Uuid
  name : String
  location : ParamLocation
  data_type : ParamType
  required : Bool
  default_value : Option serde_json.Value
  fixed_value : Option serde_json.Value
  enum_values : Option (List serde_json.Value)
  position : Int
  description : String

/-- `ux_api_call_params_call_name` and `ux_api_call_params_call_position`. -/
def indexes : Indexes Model :=
  (Indexes.on fun r : Model => (r.api_call_id, r.name)).or (.on fun r => (r.api_call_id, r.position))

end api_call_params

namespace tags

structure Model where
  id : Uuid
  name : Slug
  deriving DecidableEq

/-- The primary key and `ux_tags_name`. -/
def indexes : Indexes Model := (Indexes.on Model.id).or (.on Model.name)

end tags

namespace api_call_tags

structure Model where
  api_call_id : Uuid
  tag_id : Uuid
  deriving DecidableEq

def indexes : Indexes Model := .on id

end api_call_tags

namespace scripts

structure Model where
  id : Uuid
  owner_id : Uuid
  slug : Slug
  description : Option String
  source : String
  max_calls : Option Int
  max_bytes : Option Int
  wall_clock_ms : Option Int
  max_pages : Option Int
  max_concurrency : Option Int
  deriving DecidableEq

/-- The primary key and `ux_scripts_owner_slug`. -/
def indexes : Indexes Model := (Indexes.on Model.id).or (.on fun r => (r.owner_id, r.slug))

end scripts

namespace script_params

structure Model where
  script_id : Uuid
  name : String
  data_type : ParamType
  required : Bool
  default_value : Option serde_json.Value
  enum_values : Option (List serde_json.Value)
  position : Int
  description : String

/-- `ux_script_params_script_name` and `ux_script_params_script_position`. -/
def indexes : Indexes Model :=
  (Indexes.on fun r : Model => (r.script_id, r.name)).or (.on fun r => (r.script_id, r.position))

end script_params

namespace script_api_calls

structure Model where
  script_id : Uuid
  api_call_id : Uuid
  alias_name : String
  deriving DecidableEq

/-- `ux_script_api_calls_script_alias`. -/
def indexes : Indexes Model := .on fun r => (r.script_id, r.alias_name)

end script_api_calls

namespace script_tags

structure Model where
  script_id : Uuid
  tag_id : Uuid
  deriving DecidableEq

def indexes : Indexes Model := .on id

end script_tags

namespace endpoints

/-- The JSON of the column `budgets`. -/
structure BudgetsJson where
  max_calls : Option Nat
  max_bytes : Option Nat
  wall_clock_ms : Option Nat
  max_pages : Option Nat
  max_concurrency : Option Nat
  deriving DecidableEq

structure Model where
  id : Uuid
  owner_id : Uuid
  slug : Slug
  tag_expr : TagExpr
  write_ceiling : Access
  budgets : BudgetsJson
  instructions : Option String
  enabled : Bool
  deriving DecidableEq

/-- The primary key and `ux_endpoints_owner_slug`. -/
def indexes : Indexes Model := (Indexes.on Model.id).or (.on fun r => (r.owner_id, r.slug))

theorem eq_of_id {t : Table indexes} {a b : Model} (ha : a ∈ t.rows) (hb : b ∈ t.rows)
    (hid : a.id = b.id) : a = b :=
  Table.eq_of_clash ha hb (by simp [indexes, Indexes.or, Indexes.on, hid])

theorem eq_of_slug {t : Table indexes} {a b : Model} (ha : a ∈ t.rows) (hb : b ∈ t.rows)
    (howner : a.owner_id = b.owner_id) (hslug : a.slug = b.slug) : a = b :=
  Table.eq_of_clash ha hb (by simp [indexes, Indexes.or, Indexes.on, howner, hslug])

end endpoints

namespace endpoint_aliases

structure Model where
  endpoint_id : Uuid
  target : EndpointTarget
  alias_name : String
  deriving DecidableEq

/-- `ux_endpoint_aliases_endpoint_alias` and
`ux_endpoint_aliases_endpoint_target`. -/
def indexes : Indexes Model :=
  (Indexes.on fun r : Model => (r.endpoint_id, r.alias_name)).or (.on fun r => (r.endpoint_id, r.target))

end endpoint_aliases

namespace endpoint_auth_providers

structure Model where
  endpoint_id : Uuid
  auth_provider_id : Uuid
  deriving DecidableEq

/-- The primary key. -/
def indexes : Indexes Model := .on id

end endpoint_auth_providers

namespace service_tokens

structure Model where
  id : Uuid
  token_hash : String
  token_prefix : String
  owner_id : Uuid
  label : String
  restricted : Bool
  control_plane : Bool
  last_used_at : Option DateTime
  expires_at : Option DateTime
  revoked_at : Option DateTime
  created_at : DateTime
  deriving DecidableEq

/-- The primary key and `ux_service_tokens_token_hash`. -/
def indexes : Indexes Model := (Indexes.on Model.id).or (.on Model.token_hash)

theorem eq_of_id {t : Table indexes} {a b : Model} (ha : a ∈ t.rows) (hb : b ∈ t.rows)
    (hid : a.id = b.id) : a = b :=
  Table.eq_of_clash ha hb (by simp [indexes, Indexes.or, Indexes.on, hid])

end service_tokens

namespace service_token_endpoints

structure Model where
  service_token_id : Uuid
  endpoint_id : Uuid
  deriving DecidableEq

/-- The primary key. -/
def indexes : Indexes Model := .on id

end service_token_endpoints

/-- The committed rows of the tables the definitions and the service tokens
live in. Columns are held decoded. -/
structure Rows where
  services : Table services.indexes := .empty
  auth_providers : Table auth_providers.indexes := .empty
  api_calls : Table api_calls.indexes := .empty
  api_call_params : Table api_call_params.indexes := .empty
  tags : Table tags.indexes := .empty
  api_call_tags : Table api_call_tags.indexes := .empty
  scripts : Table scripts.indexes := .empty
  script_params : Table script_params.indexes := .empty
  script_api_calls : Table script_api_calls.indexes := .empty
  script_tags : Table script_tags.indexes := .empty
  endpoints : Table endpoints.indexes := .empty
  endpoint_aliases : Table endpoint_aliases.indexes := .empty
  endpoint_auth_providers : Table endpoint_auth_providers.indexes := .empty
  service_tokens : Table service_tokens.indexes := .empty
  service_token_endpoints : Table service_token_endpoints.indexes := .empty

/-! The rows of one small set of definitions, for the runs on fixed inputs:
owner 1's service `crm`, its auth provider, and an endpoint. -/

namespace sample

def crm : Slug := .crm

def origin : Origin := .crm

def service : services.Model where
  id := 1
  owner_id := 1
  slug := crm
  base_url := { scheme := "https", host := some (.Domain "crm.example") }
  origin_allowlist := [origin]
  default_headers := []
  timeout_ms := 1000
  max_concurrency := 1
  rate_limit_per_min := 0
  max_response_bytes := 1000

def auth_provider : auth_providers.Model where
  id := 5
  owner_id := 1
  service_id := 1
  slug := crm
  kind := .StaticHeader
  credential := .Env "CRM_TOKEN"
  header_name := "authorization"
  value_template := "Bearer {credential}"
  scopes := []
  token_url := none
  bound_origin := origin

def endpoint (id : Uuid) : endpoints.Model where
  id
  owner_id := 1
  slug := crm
  tag_expr := .Has ⟨crm⟩
  write_ceiling := .Read
  budgets := ⟨none, none, none, none, none⟩
  instructions := none
  enabled := true

end sample

end api2mcp.entity
