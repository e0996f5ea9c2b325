import Api2Mcp.Entity.Definitions

namespace api2mcp.store

open relational btree
open api2mcp.model api2mcp.entity

/-- `db_err`: what the database refuses has no detail. -/
def db_err {α : Type} : Option α → Except StoreError α
  | some a => .ok a
  | none => .error .Db

/-- A statement the database refuses unless `ok` holds: a foreign key, a check
constraint, an update that finds its row. -/
def require (ok : Bool) : Except StoreError Unit := if ok then .ok () else .error .Db

@[simp] theorem db_err_eq_ok {α : Type} {o : Option α} {a : α} : db_err o = .ok a ↔ o = some a := by
  cases o <;> simp [db_err]

@[simp] theorem require_eq_ok {ok : Bool} {u : Unit} : require ok = .ok u ↔ ok = true := by
  cases ok <;> simp [require]

/-- `v as i32` on a `u32`. -/
def as_i32 (v : Nat) : Int := (BitVec.ofNat 32 v).toInt

/-- `v as i64` on a `u64`. -/
def as_i64 (v : Nat) : Int := (BitVec.ofNat 64 v).toInt

namespace service

def to_active_model (service : Service) (id : Uuid) : services.Model where
  id
  owner_id := service.owner_id
  slug := service.slug
  base_url := service.base_url
  origin_allowlist := service.origin_allowlist
  default_headers := service.default_headers
  timeout_ms := service.timeout_ms
  max_concurrency := service.max_concurrency
  rate_limit_per_min := as_i32 (service.rate_limit_per_min.getD 0)
  max_response_bytes := service.max_response_bytes

def to_model (row : services.Model) : Service where
  owner_id := row.owner_id
  slug := row.slug
  base_url := row.base_url
  origin_allowlist := row.origin_allowlist
  default_headers := row.default_headers
  timeout_ms := row.timeout_ms
  max_concurrency := row.max_concurrency
  rate_limit_per_min := if row.rate_limit_per_min ≤ 0 then none else some row.rate_limit_per_min.toNat
  max_response_bytes := row.max_response_bytes

def insert (service : Service) (id : Uuid) (rows : Rows) : Except StoreError Rows := do
  let services ← db_err (rows.services.insert (to_active_model service id))
  return { rows with services }

def set (service : Service) (id : Uuid) (rows : Rows) : Except StoreError Rows := do
  require (rows.services.find fun r => r.id = id).isSome
  let services ← db_err (rows.services.modify (fun r => r.id = id) fun _ => to_active_model service id)
  return { rows with services }

end service

namespace auth_provider

def to_active_model (provider : AuthProvider) (id service_id : Uuid) : auth_providers.Model where
  id
  owner_id := provider.owner_id
  service_id
  slug := provider.slug
  kind := provider.kind
  credential := provider.credential
  header_name := provider.header_name
  value_template := provider.value_template
  scopes := provider.scopes
  token_url := provider.token_url
  bound_origin := provider.bound_origin

def to_model (row : auth_providers.Model) (service_slug : Slug) : AuthProvider where
  owner_id := row.owner_id
  slug := row.slug
  service_slug
  kind := row.kind
  credential := row.credential
  header_name := row.header_name
  value_template := row.value_template
  scopes := row.scopes
  token_url := row.token_url
  bound_origin := row.bound_origin

def insert (provider : AuthProvider) (id service_id : Uuid) (rows : Rows) :
    Except StoreError Rows := do
  require (rows.services.find fun r => r.id = service_id).isSome
  let auth_providers ← db_err (rows.auth_providers.insert (to_active_model provider id service_id))
  return { rows with auth_providers }

def set (provider : AuthProvider) (id service_id : Uuid) (rows : Rows) : Except StoreError Rows := do
  require (rows.services.find fun r => r.id = service_id).isSome
  require (rows.auth_providers.find fun r => r.id = id).isSome
  let auth_providers ← db_err (rows.auth_providers.modify (fun r => r.id = id) fun _ =>
    to_active_model provider id service_id)
  return { rows with auth_providers }

/-- `DELETE`, with `fk_endpoint_auth_providers_provider`. -/
def delete (p : auth_providers.Model → Bool) (rows : Rows) : Rows :=
  let gone := (rows.auth_providers.select p).map (·.id)
  { rows with
    auth_providers := rows.auth_providers.delete p
    endpoint_auth_providers :=
      rows.endpoint_auth_providers.delete fun r => gone.contains r.auth_provider_id }

end auth_provider

namespace api_call

def to_active_model (api_call : ApiCall) (id service_id : Uuid) : api_calls.Model where
  id
  owner_id := api_call.owner_id
  service_id
  slug := api_call.slug
  method := api_call.method
  path_template := api_call.path_template
  query_fixed := api_call.query_fixed
  body_template := api_call.body_template
  access := api_call.access
  idempotent := api_call.idempotent
  projection := api_call.projection
  pagination := api_call.pagination
  timeout_ms := api_call.timeout_ms
  max_response_bytes := api_call.max_response_bytes
  description := api_call.description.getD ""

/-- An empty description is none. -/
def description_of (text : String) : Option String := if text = "" then none else some text

def to_model (row : api_calls.Model) (service_slug : Slug) (params : List Param) : ApiCall where
  owner_id := row.owner_id
  slug := row.slug
  service_slug
  method := row.method
  path_template := row.path_template
  query_fixed := row.query_fixed
  body_template := row.body_template
  access := row.access
  idempotent := row.idempotent
  projection := row.projection
  pagination := row.pagination
  timeout_ms := row.timeout_ms
  max_response_bytes := row.max_response_bytes
  params
  description := description_of row.description

def param_to_active_model (p : Param) (api_call_id : Uuid) :
    Except StoreError api_call_params.Model :=
  if p.location = .Local then
    .error (.Conflict ("param " ++ fmt.debug p.name ++
      ": Local params cannot be stored in api_call_params (script params only)"))
  else
    .ok {
      api_call_id
      name := p.name
      location := p.location
      data_type := p.ty
      required := p.required
      default_value := p.default
      fixed_value := p.fixed
      enum_values := p.enum_values
      position := p.position
      description := p.description.getD "" }

def param_to_model (row : api_call_params.Model) : Param where
  name := row.name
  location := row.location
  ty := row.data_type
  required := row.required
  default := row.default_value
  fixed := row.fixed_value
  enum_values := row.enum_values
  description := description_of row.description
  position := row.position

/-- The rows are inserted in turn; a fixed param may not be required. -/
def replace_params (id : Uuid) (params : List Param) (rows : Rows) : Except StoreError Rows := do
  let table ← params.foldlM (fun table p => do
      let row ← param_to_active_model p id
      require (row.fixed_value.isNone || !row.required)
      db_err (table.insert row))
    (rows.api_call_params.delete fun r => r.api_call_id = id)
  return { rows with api_call_params := table }

/-- `DELETE`, with every foreign key on `api_calls`. -/
def delete (p : api_calls.Model → Bool) (rows : Rows) : Rows :=
  let gone := (rows.api_calls.select p).map (·.id)
  { rows with
    api_calls := rows.api_calls.delete p
    api_call_params := rows.api_call_params.delete fun r => gone.contains r.api_call_id
    api_call_tags := rows.api_call_tags.delete fun r => gone.contains r.api_call_id
    script_api_calls := rows.script_api_calls.delete fun r => gone.contains r.api_call_id }

end api_call

namespace tag

/-- Gets the tag's row or creates it, under the key that was drawn for it. -/
def ensure (tag_id : Tag → Uuid) (tag : Tag) (rows : Rows) : Except StoreError (Uuid × Rows) :=
  match rows.tags.find fun r => r.name = tag.name with
  | some row => .ok (row.id, rows)
  | none => do
    let tags ← db_err (rows.tags.insert ⟨tag_id tag, tag.name⟩)
    return (tag_id tag, { rows with tags })

def set_api_call_tags (tag_id : Tag → Uuid) (id : Uuid) (wanted : BTreeSet Tag) (rows : Rows) :
    Except StoreError Rows :=
  wanted.foldlM (fun rows tag => do
      let (tag_id, rows) ← ensure tag_id tag rows
      let api_call_tags ← db_err (rows.api_call_tags.insert ⟨id, tag_id⟩)
      return { rows with api_call_tags })
    { rows with api_call_tags := rows.api_call_tags.delete fun r => r.api_call_id = id }

def set_script_tags (tag_id : Tag → Uuid) (id : Uuid) (wanted : BTreeSet Tag) (rows : Rows) :
    Except StoreError Rows :=
  wanted.foldlM (fun rows tag => do
      let (tag_id, rows) ← ensure tag_id tag rows
      let script_tags ← db_err (rows.script_tags.insert ⟨id, tag_id⟩)
      return { rows with script_tags })
    { rows with script_tags := rows.script_tags.delete fun r => r.script_id = id }

end tag

namespace api_call

/-- The check constraint on the column `method`. -/
def ck_method : net.Method → Bool
  | .GET | .POST | .PUT | .PATCH | .DELETE => true
  | _ => false

def insert (tag_id : Tag → Uuid) (call : ApiCall) (tags : BTreeSet Tag) (id service_id : Uuid)
    (rows : Rows) : Except StoreError Rows := do
  require (rows.services.find fun r => r.id = service_id).isSome
  require (ck_method call.method)
  let api_calls ← db_err (rows.api_calls.insert (to_active_model call id service_id))
  let rows ← replace_params id call.params { rows with api_calls }
  tag.set_api_call_tags tag_id id tags rows

def set (tag_id : Tag → Uuid) (call : ApiCall) (tags : BTreeSet Tag) (id service_id : Uuid)
    (rows : Rows) : Except StoreError Rows := do
  require (rows.services.find fun r => r.id = service_id).isSome
  require (rows.api_calls.find fun r => r.id = id).isSome
  require (ck_method call.method)
  let api_calls ← db_err (rows.api_calls.modify (fun r => r.id = id) fun _ =>
    to_active_model call id service_id)
  let rows ← replace_params id call.params { rows with api_calls }
  tag.set_api_call_tags tag_id id tags rows

end api_call

/-- `DELETE FROM services`, with every foreign key that leads there. -/
def service.delete (id : Uuid) (rows : Rows) : Rows :=
  let rows := { rows with services := rows.services.delete fun r => r.id = id }
  api_call.delete (fun r => r.service_id = id) (auth_provider.delete (fun r => r.service_id = id) rows)

namespace script

def to_active_model (script : ScriptDef) (id : Uuid) : scripts.Model where
  id
  owner_id := script.owner_id
  slug := script.slug
  description := script.description
  source := script.source
  max_calls := script.budgets.max_calls.map as_i32
  max_bytes := script.budgets.max_bytes.map as_i64
  wall_clock_ms := script.budgets.wall_clock.map fun d => ((min (d / 1000) (2 ^ 31 - 1) : Nat) : Int)
  max_pages := script.budgets.max_pages.map as_i32
  max_concurrency := script.budgets.max_concurrency.map as_i32

def to_model (row : scripts.Model) (params : List Param) (callable : BTreeMap String Slug) :
    ScriptDef where
  owner_id := row.owner_id
  slug := row.slug
  source := row.source
  params
  callable
  budgets := {
    max_calls := row.max_calls.map Int.toNat
    max_bytes := row.max_bytes.map Int.toNat
    wall_clock := row.wall_clock_ms.map fun ms => ms.toNat * 1000
    max_pages := row.max_pages.map Int.toNat
    max_concurrency := row.max_concurrency.map Int.toNat }
  description := row.description

def param_to_active_model (p : Param) (script_id : Uuid) : Except StoreError script_params.Model :=
  if p.location ≠ .Local then
    .error (.Conflict ("script param " ++ fmt.debug p.name ++
      " must use ParamLocation::Local (script_params has no location column)"))
  else
    .ok {
      script_id
      name := p.name
      data_type := p.ty
      required := p.required
      default_value := p.default
      enum_values := p.enum_values
      position := p.position
      description := p.description.getD "" }

def param_to_model (row : script_params.Model) : Param where
  name := row.name
  location := .Local
  ty := row.data_type
  required := row.required
  default := row.default_value
  fixed := none
  enum_values := row.enum_values
  description := api_call.description_of row.description
  position := row.position

def replace_params (id : Uuid) (params : List Param) (rows : Rows) : Except StoreError Rows := do
  let table ← params.foldlM (fun table p => do
      let row ← param_to_active_model p id
      db_err (table.insert row))
    (rows.script_params.delete fun r => r.script_id = id)
  return { rows with script_params := table }

/-- `ApiCallStore::id_by_slug_for_owner`. -/
def api_call_id (owner_id : Uuid) (slug : Slug) (rows : Rows) : Except StoreError Uuid :=
  match rows.api_calls.find fun r => r.owner_id = owner_id && r.slug = slug with
  | some row => .ok row.id
  | none => .error .NotFound

def replace_callable (owner_id id : Uuid) (callable : BTreeMap String Slug) (rows : Rows) :
    Except StoreError Rows := do
  let table ← callable.foldlM (fun table kv => do
      let api_call_id ← api_call_id owner_id kv.2 rows
      db_err (table.insert ⟨id, api_call_id, kv.1⟩))
    (rows.script_api_calls.delete fun r => r.script_id = id)
  return { rows with script_api_calls := table }

def insert (tag_id : Tag → Uuid) (script : ScriptDef) (tags : BTreeSet Tag) (id : Uuid)
    (rows : Rows) : Except StoreError Rows := do
  let scripts ← db_err (rows.scripts.insert (to_active_model script id))
  let rows ← replace_params id script.params { rows with scripts }
  let rows ← replace_callable script.owner_id id script.callable rows
  tag.set_script_tags tag_id id tags rows

def set (tag_id : Tag → Uuid) (script : ScriptDef) (tags : BTreeSet Tag) (id : Uuid)
    (rows : Rows) : Except StoreError Rows := do
  require (rows.scripts.find fun r => r.id = id).isSome
  let scripts ← db_err (rows.scripts.modify (fun r => r.id = id) fun _ => to_active_model script id)
  let rows ← replace_params id script.params { rows with scripts }
  let rows ← replace_callable script.owner_id id script.callable rows
  tag.set_script_tags tag_id id tags rows

def delete (id : Uuid) (rows : Rows) : Rows :=
  { rows with
    scripts := rows.scripts.delete fun r => r.id = id
    script_params := rows.script_params.delete fun r => r.script_id = id
    script_api_calls := rows.script_api_calls.delete fun r => r.script_id = id
    script_tags := rows.script_tags.delete fun r => r.script_id = id }

end script

namespace endpoint

def budgets_to_json (budgets : Budgets) : endpoints.BudgetsJson where
  max_calls := budgets.max_calls
  max_bytes := budgets.max_bytes
  wall_clock_ms := budgets.wall_clock.map (· / 1000)
  max_pages := budgets.max_pages
  max_concurrency := budgets.max_concurrency

def json_to_budgets (json : endpoints.BudgetsJson) : Budgets where
  max_calls := json.max_calls
  max_bytes := json.max_bytes
  wall_clock := json.wall_clock_ms.map (· * 1000)
  max_pages := json.max_pages
  max_concurrency := json.max_concurrency

def to_active_model (endpoint : EndpointDef) (id : Uuid) : endpoints.Model where
  id
  owner_id := endpoint.owner_id
  slug := endpoint.slug
  tag_expr := endpoint.tag_expr
  write_ceiling := endpoint.write_ceiling
  budgets := budgets_to_json endpoint.budgets
  instructions := endpoint.instructions
  enabled := endpoint.enabled

def to_model (row : endpoints.Model) (aliases : BTreeMap String EndpointTarget)
    (auth_providers : BTreeSet Slug) : EndpointDef where
  owner_id := row.owner_id
  slug := row.slug
  tag_expr := row.tag_expr
  write_ceiling := row.write_ceiling
  budgets := json_to_budgets row.budgets
  instructions := row.instructions
  enabled := row.enabled
  aliases
  auth_providers

def replace_aliases (id : Uuid) (aliases : BTreeMap String EndpointTarget) (rows : Rows) :
    Except StoreError Rows := do
  let table ← aliases.foldlM (fun table kv => db_err (table.insert ⟨id, kv.2, kv.1⟩))
    (rows.endpoint_aliases.delete fun r => r.endpoint_id = id)
  return { rows with endpoint_aliases := table }

/-- `AuthProviderStore::id_by_slug_for_owner`. -/
def auth_provider_id (owner_id : Uuid) (slug : Slug) (rows : Rows) : Except StoreError Uuid :=
  match rows.auth_providers.find fun r => r.owner_id = owner_id && r.slug = slug with
  | some row => .ok row.id
  | none => .error .NotFound

/-- The scope only ever names providers of the endpoint's owner. -/
def replace_auth_providers (owner_id id : Uuid) (wanted : BTreeSet Slug) (rows : Rows) :
    Except StoreError Rows := do
  let table ← wanted.foldlM (fun table slug => do
      let auth_provider_id ← auth_provider_id owner_id slug rows
      db_err (table.insert ⟨id, auth_provider_id⟩))
    (rows.endpoint_auth_providers.delete fun r => r.endpoint_id = id)
  return { rows with endpoint_auth_providers := table }

def insert (endpoint : EndpointDef) (id : Uuid) (rows : Rows) : Except StoreError Rows := do
  let endpoints ← db_err (rows.endpoints.insert (to_active_model endpoint id))
  let rows ← replace_aliases id endpoint.aliases { rows with endpoints }
  replace_auth_providers endpoint.owner_id id endpoint.auth_providers rows

def set (endpoint : EndpointDef) (id : Uuid) (rows : Rows) : Except StoreError Rows := do
  require (rows.endpoints.find fun r => r.id = id).isSome
  let endpoints ← db_err (rows.endpoints.modify (fun r => r.id = id) fun _ =>
    to_active_model endpoint id)
  let rows ← replace_aliases id endpoint.aliases { rows with endpoints }
  replace_auth_providers endpoint.owner_id id endpoint.auth_providers rows

/-- `DELETE`, with every foreign key on `endpoints`. -/
def delete (id : Uuid) (rows : Rows) : Rows :=
  { rows with
    endpoints := rows.endpoints.delete fun r => r.id = id
    endpoint_aliases := rows.endpoint_aliases.delete fun r => r.endpoint_id = id
    endpoint_auth_providers := rows.endpoint_auth_providers.delete fun r => r.endpoint_id = id
    service_token_endpoints := rows.service_token_endpoints.delete fun r => r.endpoint_id = id }

end endpoint

/-- What the transaction of a definition write does, with the keys it drew or
looked up before it began. -/
inductive Write where
  | create_service (service : Service) (id : Uuid)
  | update_service (service : Service) (id : Uuid)
  | delete_service (id : Uuid)
  | create_auth_provider (provider : AuthProvider) (id service_id : Uuid)
  | update_auth_provider (provider : AuthProvider) (id service_id : Uuid)
  | delete_auth_provider (id : Uuid)
  | create_api_call (tag_id : Tag → Uuid) (call : ApiCall) (tags : BTreeSet Tag)
      (id service_id : Uuid)
  | update_api_call (tag_id : Tag → Uuid) (call : ApiCall) (tags : BTreeSet Tag)
      (id service_id : Uuid)
  | delete_api_call (id : Uuid)
  | create_script (tag_id : Tag → Uuid) (script : ScriptDef) (tags : BTreeSet Tag) (id : Uuid)
  | update_script (tag_id : Tag → Uuid) (script : ScriptDef) (tags : BTreeSet Tag) (id : Uuid)
  | delete_script (id : Uuid)
  | create_endpoint (endpoint : EndpointDef) (id : Uuid)
  | update_endpoint (endpoint : EndpointDef) (id : Uuid)
  | delete_endpoint (id : Uuid)

/-- The rows after the transaction, or the error it was rolled back with. -/
def Write.apply (rows : Rows) : Write → Except StoreError Rows
  | create_service service id => store.service.insert service id rows
  | update_service service id => store.service.set service id rows
  | delete_service id => .ok (store.service.delete id rows)
  | create_auth_provider provider id service_id => store.auth_provider.insert provider id service_id rows
  | update_auth_provider provider id service_id => store.auth_provider.set provider id service_id rows
  | delete_auth_provider id => .ok (store.auth_provider.delete (fun r => r.id = id) rows)
  | create_api_call tag_id call tags id service_id =>
    store.api_call.insert tag_id call tags id service_id rows
  | update_api_call tag_id call tags id service_id =>
    store.api_call.set tag_id call tags id service_id rows
  | delete_api_call id => .ok (store.api_call.delete (fun r => r.id = id) rows)
  | create_script tag_id script tags id => store.script.insert tag_id script tags id rows
  | update_script tag_id script tags id => store.script.set tag_id script tags id rows
  | delete_script id => .ok (store.script.delete id rows)
  | create_endpoint endpoint id => store.endpoint.insert endpoint id rows
  | update_endpoint endpoint id => store.endpoint.set endpoint id rows
  | delete_endpoint id => .ok (store.endpoint.delete id rows)

end api2mcp.store
