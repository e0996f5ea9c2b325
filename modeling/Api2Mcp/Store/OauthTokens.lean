import Api2Mcp.Store.Oauth

namespace api2mcp.store

open relational concurrent
open api2mcp.entity

structure IssuedOauthToken where
  access_token : String
  refresh_token : Option String
  family_id : Uuid
  deriving DecidableEq

structure TokenGrant where
  client_id : Uuid
  user_id : Uuid
  scope : Option String
  resource : Option String

/-- The random values an issuing call draws: the two plaintexts and, for a
first issue, the family. -/
structure Draws where
  access_token : String
  refresh_token : String
  family_id : Uuid

/-- `Option<Result<T, E>>::transpose`. -/
def transpose {ε α : Type} : Option (Except ε α) → Except ε (Option α)
  | none => .ok none
  | some (.ok a) => .ok (some a)
  | some (.error e) => .error e

def find_by_refresh_hash (hash : String) : OauthTask (Option oauth_tokens.Model) :=
  .read (.find_by_refresh_hash hash) fun s =>
    s.oauth_tokens.find fun r => r.refresh_token_hash = some hash

/-- The tokens after `UPDATE oauth_tokens SET revoked = TRUE WHERE id = …`. -/
def revokeId (id : Int) (t : Table oauth_tokens.indexes) : Table oauth_tokens.indexes :=
  t.update (fun r => r.id = id) oauth_tokens.Model.revoke oauth_tokens.Model.clash_revoke

/-- The update both `rotate_refresh_token` and `revoke_family` make. -/
def set_revoked (label : OauthStmt) (id : Int) : OauthTask (Except StoreError Unit) :=
  .exec label fun s =>
    (match s.oauth_tokens.find fun r => r.id = id with
      | none => .error .Db
      | some _ => .ok (),
     { s with oauth_tokens := revokeId id s.oauth_tokens })

def list_family (family_id : Uuid) : OauthTask (List oauth_tokens.Model) :=
  .read (.list_family family_id) fun s => s.oauth_tokens.select fun r => r.family_id = family_id

def revoke_rows : List oauth_tokens.Model → OauthTask (Except StoreError Unit)
  | [] => return .ok ()
  | row :: rows =>
    if row.revoked then revoke_rows rows
    else do
      match ← set_revoked (.revoke_member row.family_id row.id) row.id with
      | .error e => return .error e
      | .ok () => revoke_rows rows

def revoke_family (family_id : Uuid) : OauthTask (Except StoreError Unit) := do
  revoke_rows (← list_family family_id)

/-- The `created_at` of the family's oldest row. -/
def family_started_at (family_id : Uuid) : OauthTask (Option DateTime) :=
  .read (.family_started_at family_id) fun s =>
    ((s.oauth_tokens.select fun r => r.family_id = family_id).map (·.created_at)).min?

/-- The store after `INSERT INTO oauth_tokens`: the sequence gives the id, also
to a row that is then refused, and the database's clock `created_at`. -/
def insertToken (row : Int → DateTime → oauth_tokens.Model) (s : OauthDb) :
    Except StoreError Unit × OauthDb :=
  match s.oauth_tokens.insert (row s.next_id s.db_now) with
  | none => (.error .Db, { s with next_id := s.next_id + 1 })
  | some t => (.ok (), { s with oauth_tokens := t, next_id := s.next_id + 1 })

section

variable (sha256_hex : String → String)

/-- The row `issue_in_family` inserts. -/
def issuedRow (grant : TokenGrant) (family_id : Uuid) (refresh_token : Option String)
    (access_expires_at : DateTime) (refresh_expires_at : Option DateTime) (draws : Draws)
    (id : Int) (created_at : DateTime) : oauth_tokens.Model where
  id
  access_token_hash := sha256_hex draws.access_token
  refresh_token_hash := refresh_token.map sha256_hex
  client_id := grant.client_id
  user_id := grant.user_id
  family_id
  scope := grant.scope
  resource := grant.resource
  revoked := false
  access_expires_at
  refresh_expires_at
  created_at

def issue_in_family (grant : TokenGrant) (family_id : Uuid) (access_ttl : Duration)
    (refresh_ttl : Option Duration) (draws : Draws) :
    OauthTask (Except StoreError IssuedOauthToken) := do
  let now ← utc_now
  match chrono.from_std access_ttl with
  | .error e => return .error (.Internal ("oauth_tokens: access_ttl out of range: " ++ e))
  | .ok access_span =>
    match transpose (refresh_ttl.map chrono.from_std) with
    | .error e => return .error (.Internal ("oauth_tokens: refresh_ttl out of range: " ++ e))
    | .ok refresh_span =>
      let refresh_token := refresh_ttl.map fun _ => draws.refresh_token
      let row := issuedRow sha256_hex grant family_id refresh_token (now + access_span)
        (refresh_span.map (now + ·)) draws
      match ← Task.exec (.issue_in_family family_id) (insertToken row) with
      | .error e => return .error e
      | .ok () => return .ok { access_token := draws.access_token, refresh_token, family_id }

def issue_token (grant : TokenGrant) (access_ttl : Duration) (refresh_ttl : Option Duration)
    (draws : Draws) : OauthTask (Except StoreError IssuedOauthToken) :=
  issue_in_family sha256_hex grant draws.family_id access_ttl refresh_ttl draws

/-- Both lifetimes of a row, which its successor inherits. -/
def ttls (row : oauth_tokens.Model) : Except StoreError (Duration × Option Duration) :=
  match chrono.to_std (row.access_expires_at - row.created_at) with
  | .error e => .error (.Internal ("oauth_tokens: negative access TTL: " ++ e))
  | .ok access_ttl =>
    match transpose (row.refresh_expires_at.map fun exp => chrono.to_std (exp - row.created_at)) with
    | .error e => .error (.Internal ("oauth_tokens: negative refresh TTL: " ++ e))
    | .ok refresh_ttl => .ok (access_ttl, refresh_ttl)

/-- The refresh token's own expiry, if it has one; the clock is read only then. -/
def refresh_expired (row : oauth_tokens.Model) : OauthTask Bool :=
  match row.refresh_expires_at with
  | none => return false
  | some exp => do
    let now ← utc_now
    return exp ≤ now

/-- The part of `rotate_refresh_token` after the row passed its checks. -/
def exchange_row (row : oauth_tokens.Model) (draws : Draws) :
    OauthTask (Except StoreError (Option IssuedOauthToken)) :=
  match ttls row with
  | .error e => return .error e
  | .ok (access_ttl, refresh_ttl) => do
    match ← set_revoked (.revoke_rotated row.family_id row.id) row.id with
    | .error e => return .error e
    | .ok () =>
      let grant : TokenGrant :=
        { client_id := row.client_id, user_id := row.user_id, scope := row.scope
          resource := row.resource }
      match ← issue_in_family sha256_hex grant row.family_id access_ttl refresh_ttl draws with
      | .error e => return .error e
      | .ok issued => return .ok (some issued)

def rotate_refresh_token (refresh_token : String) (draws : Draws) :
    OauthTask (Except StoreError (Option IssuedOauthToken)) := do
  match ← find_by_refresh_hash (sha256_hex refresh_token) with
  | none => return .ok none
  | some row =>
    if row.revoked then
      match ← revoke_family row.family_id with
      | .error e => return .error e
      | .ok () => return .ok none
    else if ← refresh_expired row then return .ok none
    else exchange_row sha256_hex row draws

end

end api2mcp.store
