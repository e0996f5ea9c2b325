import Api2Mcp.Store.Definitions

namespace api2mcp.store.service_token

open relational btree concurrent
open api2mcp.model api2mcp.entity

structure ServiceTokenRecord where
  id : Uuid
  token_prefix : String
  owner_id : Uuid
  label : String
  last_used_at : Option DateTime
  expires_at : Option DateTime
  revoked_at : Option DateTime
  created_at : DateTime
  restricted : Bool
  endpoints : BTreeSet Slug
  control_plane : Bool
  deriving DecidableEq

structure MintedServiceToken where
  record : ServiceTokenRecord
  plaintext : String
  deriving DecidableEq

/-- What `mint` is asked for, with the plaintext and the key it draws. -/
structure MintArgs where
  owner_id : Uuid
  label : String
  expires_at : Option DateTime
  endpoints : BTreeSet Slug
  control_plane : Bool
  plaintext : String
  id : Uuid

def display_prefix (plaintext : String) : String := String.ofList (plaintext.toList.take 8)

def to_model (row : service_tokens.Model) (endpoints : BTreeSet Slug) : ServiceTokenRecord where
  id := row.id
  token_prefix := row.token_prefix
  owner_id := row.owner_id
  label := row.label
  last_used_at := row.last_used_at
  expires_at := row.expires_at
  revoked_at := row.revoked_at
  created_at := row.created_at
  restricted := row.restricted
  endpoints
  control_plane := row.control_plane

/-- `Utc::now()`. -/
def utc_now : DbTask DateTime := .read .now (·.now)

/-- Time passes. -/
def tick (span : Int) : DbTask Unit := .exec .tick fun db => ((), { db with now := db.now + span })

def resolve_endpoint_ids (owner_id : Uuid) (slugs : BTreeSet Slug) : Fetch (BTreeSet Uuid) :=
  slugs.foldlM (fun ids slug => do
    let id ← ExceptT.mk do
      match ← (endpoint.id_by_slug owner_id slug).run with
      | .error .NotFound =>
        return .error (.Conflict ("unknown endpoint " ++ fmt.debug slug.as_str))
      | answer => return answer
    return BTreeSet.insert id ids) []

/-- The slugs of the endpoints a grant row of the token still names. -/
def load_endpoint_grants (token_id : Uuid) : Fetch (BTreeSet Slug) := do
  let rows ← select fun rows =>
    rows.service_token_endpoints.select fun r => r.service_token_id = token_id
  let slugs ← rows.mapM fun row => endpoint.slug_by_id row.endpoint_id
  return BTreeSet.collect slugs

def get_by_id (id : Uuid) : Fetch (Option ServiceTokenRecord) := do
  match ← select fun rows => rows.service_tokens.find fun r => r.id = id with
  | none => return none
  | some row => return some (to_model row (← load_endpoint_grants id))

/-- The rows after the grants are inserted; each must name an endpoint. -/
def insert_grants (id : Uuid) (endpoint_ids : List Uuid) (rows : Rows) : Except StoreError Rows := do
  let table ← endpoint_ids.foldlM (fun table endpoint_id => do
      require (rows.endpoints.find fun r => r.id = endpoint_id).isSome
      db_err (table.insert ⟨id, endpoint_id⟩)) rows.service_token_endpoints
  return { rows with service_token_endpoints := table }

/-- The rows after the transaction of `mint`. -/
def insert (row : service_tokens.Model) (endpoint_ids : List Uuid) (rows : Rows) :
    Except StoreError Rows := do
  let service_tokens ← db_err (rows.service_tokens.insert row)
  insert_grants row.id endpoint_ids { rows with service_tokens }

/-- A token's row with the column `last_used_at` set. -/
def set_last_used_at (now : DateTime) (r : service_tokens.Model) : service_tokens.Model :=
  { r with last_used_at := some now }

/-- A token's row with the column `revoked_at` set. -/
def set_revoked_at (now : DateTime) (r : service_tokens.Model) : service_tokens.Model :=
  { r with revoked_at := some now }

/-- `UPDATE service_tokens … WHERE id = …`; it is an error if there is no row. -/
def update_token (id : Uuid) (set : service_tokens.Model → service_tokens.Model)
    (hset : ∀ a b, service_tokens.indexes.clash (set a) b = service_tokens.indexes.clash a b)
    (db : Db) : Except StoreError Unit × Db :=
  (require (db.rows.service_tokens.find fun r => r.id = id).isSome,
   { db with rows := { db.rows with
      service_tokens := db.rows.service_tokens.update (fun r => r.id = id) set hset } })

section

variable (sha256_hex : String → String)

/-- The row `mint` inserts. It is restricted if any endpoint was asked for,
whatever becomes of the endpoints. -/
def mintedRow (args : MintArgs) (created_at : DateTime) : service_tokens.Model where
  id := args.id
  token_hash := sha256_hex args.plaintext
  token_prefix := display_prefix args.plaintext
  owner_id := args.owner_id
  label := args.label
  restricted := !args.endpoints.isEmpty
  control_plane := args.control_plane
  last_used_at := none
  expires_at := args.expires_at
  revoked_at := none
  created_at

/-- `BEGIN`, the token and its grants, `COMMIT`. -/
def insert_token (args : MintArgs) (endpoint_ids : List Uuid) : DbTask (Except StoreError Unit) :=
  .exec (.insert_token args.id endpoint_ids) fun db =>
    match insert (mintedRow sha256_hex args db.now) endpoint_ids db.rows with
    | .error e => (.error e, db)
    | .ok rows => (.ok (), { db with rows })

def mint (args : MintArgs) : DbTask (Except StoreError MintedServiceToken) := do
  match ← fetch (resolve_endpoint_ids args.owner_id args.endpoints) with
  | .error e => return .error e
  | .ok endpoint_ids =>
    match ← insert_token sha256_hex args endpoint_ids with
    | .error e => return .error e
    | .ok () =>
      match ← fetch (get_by_id args.id) with
      | .error e => return .error e
      | .ok none => return .error (.Internal "service token disappeared after insert")
      | .ok (some record) => return .ok { record, plaintext := args.plaintext }

def find_by_hash (hash : String) : DbTask (Option service_tokens.Model) :=
  .read .select fun db => db.rows.service_tokens.find fun r => r.token_hash = hash

/-- Whether the token has expired; the clock is read only if it can. -/
def expired (row : service_tokens.Model) : DbTask Bool :=
  match row.expires_at with
  | none => return false
  | some expires_at => do
    let now ← utc_now
    return expires_at ≤ now

def resolve (plaintext : String) : DbTask (Except StoreError (Option ServiceTokenRecord)) := do
  match ← find_by_hash (sha256_hex plaintext) with
  | none => return .ok none
  | some row =>
    if row.revoked_at.isSome then return .ok none
    if ← expired row then return .ok none
    let now ← utc_now
    match ← .exec (.set_last_used_at row.id) (update_token row.id (set_last_used_at now)
        fun _ _ => rfl) with
    | .error e => return .error e
    | .ok () =>
      match ← fetch (load_endpoint_grants row.id) with
      | .error e => return .error e
      | .ok endpoints => return .ok (some { to_model row endpoints with last_used_at := some now })

end

def revoke (id : Uuid) : DbTask (Except StoreError Unit) := do
  match ← (.read .select fun db => db.rows.service_tokens.find fun r => r.id = id :
      DbTask (Option service_tokens.Model)) with
  | none => return .error .NotFound
  | some row =>
    let now ← utc_now
    .exec (.set_revoked_at row.id) (update_token row.id (set_revoked_at now) fun _ _ => rfl)

end api2mcp.store.service_token
