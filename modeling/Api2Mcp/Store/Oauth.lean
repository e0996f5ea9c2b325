import Api2Mcp.Entity.Oauth

namespace api2mcp.store

open relational concurrent
open api2mcp.entity

/-- The tables of the authorization server, the sequence that numbers tokens,
and the clocks of the application and of the database. -/
structure OauthDb where
  oauth_codes : Table oauth_codes.indexes
  oauth_tokens : Table oauth_tokens.indexes
  next_id : Int
  now : DateTime
  db_now : DateTime

/-- What a statement of the authorization server is about. -/
inductive OauthStmt where
  | now
  | find_code (code_hash : String)
  | mark_used (code_hash : String)
  | find_by_refresh_hash (hash : String)
  | revoke_rotated (family_id : Uuid) (id : Int)
  | list_family (family_id : Uuid)
  | revoke_member (family_id : Uuid) (id : Int)
  | family_started_at (family_id : Uuid)
  | issue_in_family (family_id : Uuid)
  | tick
  deriving DecidableEq

/-- A call of the authorization server's store. -/
abbrev OauthTask := Task OauthStmt OauthDb

structure OauthCode where
  client_id : Uuid
  user_id : Uuid
  redirect_uri : String
  code_challenge : String
  code_challenge_method : String
  resource : Option String
  scope : Option String
  deriving DecidableEq

/-- `Utc::now()`. -/
def utc_now : OauthTask DateTime := .read .now (·.now)

/-- Time passes, on both clocks. -/
def tick (app db : Int) : OauthTask Unit :=
  .exec .tick fun s => ((), { s with now := s.now + app, db_now := s.db_now + db })

def find_code (code_hash : String) : OauthTask (Option oauth_codes.Model) :=
  .read (.find_code code_hash) fun s => s.oauth_codes.find fun r => r.code_hash = code_hash

/-- The codes after `UPDATE oauth_codes SET used = TRUE WHERE code_hash = …`. -/
def markUsed (code_hash : String) (t : Table oauth_codes.indexes) : Table oauth_codes.indexes :=
  t.update (fun r => r.code_hash = code_hash) (fun r => { r with used := true }) fun _ _ => rfl

/-- An update that matches no row is an error of its own. -/
def mark_used (code_hash : String) : OauthTask (Except StoreError Unit) :=
  .exec (.mark_used code_hash) fun s =>
    (match s.oauth_codes.find fun r => r.code_hash = code_hash with
      | none => .error .Db
      | some _ => .ok (),
     { s with oauth_codes := markUsed code_hash s.oauth_codes })

section

variable (sha256_hex : String → String)

def consume_code (code : String) : OauthTask (Except StoreError (Option OauthCode)) := do
  match ← find_code (sha256_hex code) with
  | none => return .ok none
  | some row =>
    if row.used then return .ok none
    let now ← utc_now
    if row.expires_at ≤ now then return .ok none
    match ← mark_used row.code_hash with
    | .error e => return .error e
    | .ok () =>
      return .ok <| some {
        client_id := row.client_id
        user_id := row.user_id
        redirect_uri := row.redirect_uri
        code_challenge := row.code_challenge
        code_challenge_method := row.code_challenge_method
        resource := row.resource
        scope := row.scope }

end

end api2mcp.store
