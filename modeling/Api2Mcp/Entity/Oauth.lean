import Api2Mcp.Store.Basic

namespace api2mcp.entity

open relational

namespace oauth_codes

structure Model where
  code_hash : String
  client_id : Uuid
  user_id : Uuid
  redirect_uri : String
  code_challenge : String
  code_challenge_method : String
  resource : Option String
  scope : Option String
  used : Bool
  expires_at : DateTime
  deriving DecidableEq

/-- The primary key. -/
def indexes : Indexes Model := .on Model.code_hash

end oauth_codes

namespace oauth_tokens

structure Model where
  id : Int
  access_token_hash : String
  refresh_token_hash : Option String
  client_id : Uuid
  user_id : Uuid
  family_id : Uuid
  scope : Option String
  resource : Option String
  revoked : Bool
  access_expires_at : DateTime
  refresh_expires_at : Option DateTime
  created_at : DateTime
  deriving DecidableEq

/-- Two rows share a hash; a null never equals another. -/
def sameHash : Option String → Option String → Bool
  | some h, some h' => decide (h = h')
  | _, _ => false

theorem sameHash_comm (h h' : Option String) : sameHash h h' = sameHash h' h := by
  cases h <;> cases h' <;> simp [sameHash, eq_comm]

/-- The primary key, `ux_oauth_tokens_access_hash` and
`ux_oauth_tokens_refresh_hash`. -/
def indexes : Indexes Model where
  clash a b := decide (a.id = b.id) || decide (a.access_token_hash = b.access_token_hash) ||
    sameHash a.refresh_token_hash b.refresh_token_hash
  symm a b := by
    rw [sameHash_comm, decide_eq_decide.mpr (eq_comm (a := a.id)),
      decide_eq_decide.mpr (eq_comm (a := a.access_token_hash))]

/-- The row with the column `revoked` set. -/
def Model.revoke (r : Model) : Model := { r with revoked := true }

theorem Model.clash_revoke (a b : Model) : indexes.clash a.revoke b = indexes.clash a b := rfl

@[simp] theorem Model.revoke_id (r : Model) : r.revoke.id = r.id := rfl

@[simp] theorem Model.revoke_family_id (r : Model) : r.revoke.family_id = r.family_id := rfl

@[simp] theorem Model.revoke_revoked (r : Model) : r.revoke.revoked = true := rfl

@[simp] theorem Model.revoke_refresh_token_hash (r : Model) :
    r.revoke.refresh_token_hash = r.refresh_token_hash := rfl

theorem eq_of_id {t : Table indexes} {a b : Model} (ha : a ∈ t.rows) (hb : b ∈ t.rows)
    (hid : a.id = b.id) : a = b :=
  Table.eq_of_clash ha hb (by simp [indexes, hid])

theorem eq_of_refresh_hash {t : Table indexes} {a b : Model} {h : String} (ha : a ∈ t.rows)
    (hb : b ∈ t.rows) (hah : a.refresh_token_hash = some h) (hbh : b.refresh_token_hash = some h) :
    a = b :=
  Table.eq_of_clash ha hb (by simp [indexes, hah, hbh, sameHash])

end oauth_tokens

namespace oauth_clients

structure Model where
  id : Uuid
  client_secret_hash : Option String
  client_name : String
  redirect_uris : List String
  grant_types : List String
  token_endpoint_auth_method : String
  scope : Option String
  created_at : DateTime
  deriving DecidableEq

/-- The primary key. -/
def indexes : Indexes Model := .on Model.id

end oauth_clients

namespace oauth_consents

structure Model where
  id : Uuid
  user_id : Uuid
  client_id : Uuid
  scope : String
  deriving DecidableEq

/-- The primary key and `ux_oauth_consents_user_client`. -/
def indexes : Indexes Model := (Indexes.on Model.id).or (.on fun r => (r.user_id, r.client_id))

end oauth_consents

namespace oauth_consent_requests

structure Model where
  id : Uuid
  client_id : Uuid
  redirect_uri : String
  scope : Option String
  resource : Option String
  code_challenge : String
  code_challenge_method : String
  state : Option String
  expires_at : DateTime
  deriving DecidableEq

/-- The primary key. -/
def indexes : Indexes Model := .on Model.id

end oauth_consent_requests

end api2mcp.entity
