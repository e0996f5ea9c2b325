import Api2Mcp.Concurrent.Query
import Api2Mcp.Store.Writes
import Mathlib.Data.List.Sort

namespace api2mcp.store

open relational btree concurrent
open api2mcp.model api2mcp.entity

/-- A transaction that committed, with the rows and the definitions generation
it left behind. -/
structure Txn where
  write : Write
  rows : Rows
  generation : Nat

/-- The database: the committed rows, the value of the `meta` row (none before
the first write), whether an open transaction holds that row's lock, and the
clock. No statement reads the log of what committed, newest first. -/
structure Db where
  rows : Rows
  generation : Option Nat
  meta_locked : Bool
  now : DateTime
  log : List Txn

/-- What a statement does. -/
inductive Stmt where
  | select
  | select_generation
  | update_generation (read : Nat)
  | insert_generation
  | commit (write : Write)
  | lookup_plan
  | insert_plan
  | now
  | insert_token (id : Uuid) (endpoint_ids : List Uuid)
  | set_last_used_at (id : Uuid)
  | set_revoked_at (id : Uuid)
  | tick

abbrev DbTask := Task Stmt Db

/-- Reads that may fail, each a statement of its own. -/
abbrev Fetch (α : Type) := ExceptT StoreError (Query Rows) α

/-- One `SELECT`. -/
def select {α : Type} (f : Rows → α) : Fetch α := ExceptT.lift (Query.select f)

def ok_or {α : Type} (e : StoreError) : Option α → Fetch α
  | some a => pure a
  | none => throw e

@[simp] theorem yields_ok_or {α : Type} {P : Rows → Prop} {e : StoreError} {o : Option α} {a : α} :
    Query.Yields P (ok_or e o) a ↔ o = some a := by
  cases o <;> simp [ok_or]

/-- The reads of a store method, as part of a task. -/
def fetch {α : Type} (q : Fetch α) : DbTask (Except StoreError α) := q.run.task .select Db.rows

namespace meta_store

def read_generation : DbTask Nat := .read .select_generation fun db => db.generation.getD 0

def generation_exists : DbTask Bool := .read .select_generation fun db => db.generation.isSome

/-- Both writes wait for the lock on the row. The one that finds a row another
transaction inserted meanwhile is refused; the other replaces the value it
finds, whatever it is. -/
def bump_generation_in : DbTask (Except StoreError Nat) := do
  let read ← read_generation
  if ← generation_exists then
    Task.await (.update_generation read) (fun db => !db.meta_locked) fun db =>
      (.ok (read + 1), { db with meta_locked := true })
  else
    Task.await .insert_generation (fun db => !db.meta_locked) fun db =>
      match db.generation with
      | some _ => (.error .Db, db)
      | none => (.ok (read + 1), { db with meta_locked := true })

end meta_store

/-- The database after `COMMIT`, or after the rollback. -/
def Db.commit (write : Write) (generation : Nat) (db : Db) : Except StoreError Unit × Db :=
  match write.apply db.rows with
  | .error e => (.error e, { db with meta_locked := false })
  | .ok rows =>
    (.ok (), { db with
      rows, generation := some generation, meta_locked := false
      log := ⟨write, rows, generation⟩ :: db.log })

/-- `BEGIN`, the write, `bump_generation_in`, `COMMIT`. Others see the write
when it commits. -/
def transact (write : Write) : DbTask (Except StoreError Unit) := do
  match ← meta_store.bump_generation_in with
  | .error e => return .error e
  | .ok next => .exec (.commit write) (Db.commit write next)

/-- A store method that reads, decides what to write, and writes it. -/
def write_after (q : Fetch Write) : DbTask (Except StoreError Unit) := do
  match ← fetch q with
  | .error e => return .error e
  | .ok write => transact write

/-- `ORDER BY slug`. -/
def order_by_slug {ρ : Type} (slug : ρ → Slug) (rows : List ρ) : List ρ :=
  rows.insertionSort fun a b => ¬ slug b < slug a

namespace service

def get_by_slug (owner_id : Uuid) (slug : Slug) : Fetch (Option Service) := do
  let row ← select fun rows => rows.services.find fun r => r.owner_id = owner_id && r.slug = slug
  return row.map to_model

def list (owner_id : Uuid) : Fetch (List Service) := do
  let rows ← select fun rows =>
    order_by_slug services.Model.slug (rows.services.select fun r => r.owner_id = owner_id)
  return rows.map to_model

def id_by_slug (owner_id : Uuid) (slug : Slug) : Fetch Uuid := do
  let row ← select fun rows => rows.services.find fun r => r.owner_id = owner_id && r.slug = slug
  ok_or .NotFound (row.map (·.id))

def slug_by_id (id : Uuid) : Fetch Slug := do
  let row ← select fun rows => rows.services.find fun r => r.id = id
  ok_or .NotFound (row.map (·.slug))

def create (service : Service) (id : Uuid) : Fetch Write := do
  if (← get_by_slug service.owner_id service.slug).isSome then
    throw (.Conflict ("service " ++ fmt.debug service.slug.as_str ++ " already exists"))
  return .create_service service id

def update (service : Service) : Fetch Write := do
  let id ← id_by_slug service.owner_id service.slug
  return .update_service service id

def remove (owner_id : Uuid) (slug : Slug) : Fetch Write := do
  let id ← id_by_slug owner_id slug
  return .delete_service id

end service

namespace auth_provider

/-- The service's key, or `none` if there is no such service. -/
def service_id (owner_id : Uuid) (service_slug : Slug) : Fetch (Option Uuid) :=
  ExceptT.mk do
    match ← (service.id_by_slug owner_id service_slug).run with
    | .ok id => return .ok (some id)
    | .error .NotFound => return .ok none
    | .error e => return .error e

def get (owner_id : Uuid) (service_slug slug : Slug) : Fetch (Option AuthProvider) := do
  match ← service_id owner_id service_slug with
  | none => return none
  | some service_id =>
    let row ← select fun rows => rows.auth_providers.find fun r =>
      r.owner_id = owner_id && r.service_id = service_id && r.slug = slug
    return row.map (to_model · service_slug)

/-- A service has at most one provider. -/
def get_for_service (owner_id : Uuid) (service_slug : Slug) : Fetch (Option AuthProvider) := do
  match ← service_id owner_id service_slug with
  | none => return none
  | some service_id =>
    let row ← select fun rows => rows.auth_providers.find fun r =>
      r.owner_id = owner_id && r.service_id = service_id
    return row.map (to_model · service_slug)

def id_by_slug (owner_id : Uuid) (service_slug slug : Slug) : Fetch Uuid := do
  let service_id ← service.id_by_slug owner_id service_slug
  let row ← select fun rows => rows.auth_providers.find fun r =>
    r.owner_id = owner_id && r.service_id = service_id && r.slug = slug
  ok_or .NotFound (row.map (·.id))

def slug_by_id (id : Uuid) : Fetch Slug := do
  let row ← select fun rows => rows.auth_providers.find fun r => r.id = id
  ok_or .NotFound (row.map (·.slug))

def create (provider : AuthProvider) (id : Uuid) : Fetch Write := do
  let service_id ← service.id_by_slug provider.owner_id provider.service_slug
  if (← get provider.owner_id provider.service_slug provider.slug).isSome then
    throw (.Conflict ("auth provider " ++ fmt.debug provider.slug.as_str ++
      " already exists on service " ++ fmt.debug provider.service_slug.as_str))
  if (← get_for_service provider.owner_id provider.service_slug).isSome then
    throw (.Conflict ("service " ++ fmt.debug provider.service_slug.as_str ++
      " already has an auth provider; a service may have at most one"))
  return .create_auth_provider provider id service_id

def update (provider : AuthProvider) : Fetch Write := do
  let service_id ← service.id_by_slug provider.owner_id provider.service_slug
  let id ← id_by_slug provider.owner_id provider.service_slug provider.slug
  return .update_auth_provider provider id service_id

def remove (owner_id : Uuid) (service_slug slug : Slug) : Fetch Write := do
  let id ← id_by_slug owner_id service_slug slug
  return .delete_auth_provider id

end auth_provider

namespace tag

def tags_by_ids (ids : List Uuid) : Fetch (BTreeSet Tag) := do
  if ids.isEmpty then return []
  let rows ← select fun rows => rows.tags.select fun r => ids.contains r.id
  return BTreeSet.collect (rows.map fun r => ⟨r.name⟩)

def tags_for_api_call (id : Uuid) : Fetch (BTreeSet Tag) := do
  let rows ← select fun rows => rows.api_call_tags.select fun r => r.api_call_id = id
  tags_by_ids (rows.map (·.tag_id))

def tags_for_script (id : Uuid) : Fetch (BTreeSet Tag) := do
  let rows ← select fun rows => rows.script_tags.select fun r => r.script_id = id
  tags_by_ids (rows.map (·.tag_id))

end tag

namespace api_call

/-- An api_call with the tags it carries. -/
structure TaggedApiCall where
  api_call : ApiCall
  tags : BTreeSet Tag

/-- In the order of their positions. -/
def load_params (id : Uuid) : Fetch (List Param) := do
  let rows ← select fun rows =>
    (rows.api_call_params.select fun r => r.api_call_id = id).insertionSort
      fun a b => a.position ≤ b.position
  return rows.map param_to_model

def assemble (row : api_calls.Model) (service_slug : Slug) : Fetch TaggedApiCall := do
  let params ← load_params row.id
  let tags ← tag.tags_for_api_call row.id
  return { api_call := to_model row service_slug params, tags }

def get (owner_id : Uuid) (service_slug slug : Slug) : Fetch (Option TaggedApiCall) := do
  match ← auth_provider.service_id owner_id service_slug with
  | none => return none
  | some service_id =>
    let row ← select fun rows => rows.api_calls.find fun r =>
      r.owner_id = owner_id && r.service_id = service_id && r.slug = slug
    match row with
    | none => return none
    | some row => return some (← assemble row service_slug)

def list_all (owner_id : Uuid) : Fetch (List TaggedApiCall) := do
  let rows ← select fun rows =>
    order_by_slug api_calls.Model.slug (rows.api_calls.select fun r => r.owner_id = owner_id)
  rows.mapM fun row => do
    let service_slug ← service.slug_by_id row.service_id
    assemble row service_slug

def id_by_slug (owner_id : Uuid) (service_slug slug : Slug) : Fetch Uuid := do
  let service_id ← service.id_by_slug owner_id service_slug
  let row ← select fun rows => rows.api_calls.find fun r =>
    r.owner_id = owner_id && r.service_id = service_id && r.slug = slug
  ok_or .NotFound (row.map (·.id))

def slug_by_id (id : Uuid) : Fetch Slug := do
  let row ← select fun rows => rows.api_calls.find fun r => r.id = id
  ok_or .NotFound (row.map (·.slug))

def create (tag_id : Tag → Uuid) (call : ApiCall) (tags : BTreeSet Tag) (id : Uuid) :
    Fetch Write := do
  if (← get call.owner_id call.service_slug call.slug).isSome then
    throw (.Conflict ("api_call " ++ fmt.debug call.slug.as_str ++
      " already exists on service " ++ fmt.debug call.service_slug.as_str))
  let service_id ← service.id_by_slug call.owner_id call.service_slug
  return .create_api_call tag_id call tags id service_id

def update (tag_id : Tag → Uuid) (call : ApiCall) (tags : BTreeSet Tag) : Fetch Write := do
  let id ← id_by_slug call.owner_id call.service_slug call.slug
  let service_id ← service.id_by_slug call.owner_id call.service_slug
  return .update_api_call tag_id call tags id service_id

def remove (owner_id : Uuid) (service_slug slug : Slug) : Fetch Write := do
  let id ← id_by_slug owner_id service_slug slug
  return .delete_api_call id

end api_call

namespace script

/-- A script with the tags it carries. -/
structure TaggedScript where
  script : ScriptDef
  tags : BTreeSet Tag

/-- In the order of their positions. -/
def load_script_params (id : Uuid) : Fetch (List Param) := do
  let rows ← select fun rows =>
    (rows.script_params.select fun r => r.script_id = id).insertionSort
      fun a b => a.position ≤ b.position
  return rows.map param_to_model

def load_callable (id : Uuid) : Fetch (BTreeMap String Slug) := do
  let rows ← select fun rows => rows.script_api_calls.select fun r => r.script_id = id
  let pairs ← rows.mapM fun row => do
    let slug ← api_call.slug_by_id row.api_call_id
    return (row.alias_name, slug)
  return BTreeMap.collect pairs

def assemble (row : scripts.Model) : Fetch TaggedScript := do
  let params ← load_script_params row.id
  let callable ← load_callable row.id
  let tags ← tag.tags_for_script row.id
  return { script := to_model row params callable, tags }

def get (owner_id : Uuid) (slug : Slug) : Fetch (Option TaggedScript) := do
  let row ← select fun rows => rows.scripts.find fun r => r.owner_id = owner_id && r.slug = slug
  match row with
  | none => return none
  | some row => return some (← assemble row)

def list_all (owner_id : Uuid) : Fetch (List TaggedScript) := do
  let rows ← select fun rows =>
    order_by_slug scripts.Model.slug (rows.scripts.select fun r => r.owner_id = owner_id)
  rows.mapM assemble

def id_by_slug (owner_id : Uuid) (slug : Slug) : Fetch Uuid := do
  let row ← select fun rows => rows.scripts.find fun r => r.owner_id = owner_id && r.slug = slug
  ok_or .NotFound (row.map (·.id))

def create (tag_id : Tag → Uuid) (script : ScriptDef) (tags : BTreeSet Tag) (id : Uuid) :
    Fetch Write := do
  if (← get script.owner_id script.slug).isSome then
    throw (.Conflict ("script " ++ fmt.debug script.slug.as_str ++ " already exists"))
  return .create_script tag_id script tags id

def update (tag_id : Tag → Uuid) (script : ScriptDef) (tags : BTreeSet Tag) : Fetch Write := do
  let id ← id_by_slug script.owner_id script.slug
  return .update_script tag_id script tags id

def remove (owner_id : Uuid) (slug : Slug) : Fetch Write := do
  let id ← id_by_slug owner_id slug
  return .delete_script id

end script

namespace endpoint

def load_aliases (id : Uuid) : Fetch (BTreeMap String EndpointTarget) := do
  let rows ← select fun rows => rows.endpoint_aliases.select fun r => r.endpoint_id = id
  return BTreeMap.collect (rows.map fun r => (r.alias_name, r.target))

def load_auth_providers (id : Uuid) : Fetch (BTreeSet Slug) := do
  let rows ← select fun rows => rows.endpoint_auth_providers.select fun r => r.endpoint_id = id
  let slugs ← rows.mapM fun row => auth_provider.slug_by_id row.auth_provider_id
  return BTreeSet.collect slugs

def assemble (row : endpoints.Model) : Fetch EndpointDef := do
  let aliases ← load_aliases row.id
  let auth_providers ← load_auth_providers row.id
  return to_model row aliases auth_providers

def get (owner_id : Uuid) (slug : Slug) : Fetch (Option EndpointDef) := do
  let row ← select fun rows => rows.endpoints.find fun r => r.owner_id = owner_id && r.slug = slug
  match row with
  | none => return none
  | some row => return some (← assemble row)

def list_all (owner_id : Uuid) : Fetch (List EndpointDef) := do
  let rows ← select fun rows =>
    order_by_slug endpoints.Model.slug (rows.endpoints.select fun r => r.owner_id = owner_id)
  rows.mapM assemble

def id_by_slug (owner_id : Uuid) (slug : Slug) : Fetch Uuid := do
  let row ← select fun rows => rows.endpoints.find fun r => r.owner_id = owner_id && r.slug = slug
  ok_or .NotFound (row.map (·.id))

def slug_by_id (id : Uuid) : Fetch Slug := do
  let row ← select fun rows => rows.endpoints.find fun r => r.id = id
  ok_or .NotFound (row.map (·.slug))

def create (endpoint : EndpointDef) (id : Uuid) : Fetch Write := do
  if (← get endpoint.owner_id endpoint.slug).isSome then
    throw (.Conflict ("endpoint " ++ fmt.debug endpoint.slug.as_str ++ " already exists"))
  return .create_endpoint endpoint id

def update (endpoint : EndpointDef) : Fetch Write := do
  let id ← id_by_slug endpoint.owner_id endpoint.slug
  return .update_endpoint endpoint id

def remove (owner_id : Uuid) (slug : Slug) : Fetch Write := do
  let id ← id_by_slug owner_id slug
  return .delete_endpoint id

end endpoint

end api2mcp.store
