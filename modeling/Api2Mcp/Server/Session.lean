import Api2Mcp.Concurrent.RelyGuarantee
import Api2Mcp.Concurrent.Trace
import Api2Mcp.Server.Auth
import Api2Mcp.Server.Login
import Api2Mcp.Store.UserRuns

namespace api2mcp.entity.sessions

open relational

structure Model where
  token_hash : String
  user_id : Uuid
  expires_at : DateTime
  deriving DecidableEq

def indexes : Indexes Model := .on (·.token_hash)

theorem eq_of_token_hash {t : Table indexes} {a b : Model} (ha : a ∈ t.rows) (hb : b ∈ t.rows)
    (hhash : a.token_hash = b.token_hash) : a = b :=
  Table.eq_of_clash ha hb (by simp [indexes, Indexes.on, hhash])

end api2mcp.entity.sessions

namespace api2mcp.store

open relational concurrent
open api2mcp.entity

/-- The users, the sessions, and the clock of the server. -/
structure SessionDb where
  user_db : UserDb
  sessions : Table sessions.indexes
  now : DateTime

/-- What a statement on the users and the sessions is about. -/
inductive SessionStmt where
  | users (stmt : UserStmt)
  | now
  | find (token_hash : String)
  | insert (token_hash : String)
  | delete (token_hash : String)
  | purge
  | find_user (id : Uuid)
  | delete_user (id : Uuid)
  | verify_password (email : String)
  | tick
  deriving DecidableEq

def SessionStmt.is_insert : SessionStmt → Bool
  | .insert _ => true
  | _ => false

abbrev SessionTask := Task SessionStmt SessionDb

def SessionDb.set_user_db (db : SessionDb) (user_db : UserDb) : SessionDb := { db with user_db }

@[simp] theorem SessionDb.set_user_db_sessions (db : SessionDb) (user_db : UserDb) :
    (db.set_user_db user_db).sessions = db.sessions := rfl

@[simp] theorem SessionDb.set_user_db_user_db (db : SessionDb) (user_db : UserDb) :
    (db.set_user_db user_db).user_db = user_db := rfl

/-- A call of the users' store. -/
def on_users {α : Type} (t : UserTask α) : SessionTask α :=
  (t.zoom SessionDb.user_db SessionDb.set_user_db).relabel .users

namespace user

/-- `DELETE FROM users`, with `fk_sessions_user`. -/
def delete (id : Uuid) : SessionTask (Except StoreError Unit) :=
  .exec (.delete_user id) fun db =>
    (if (db.user_db.users.find fun r => r.id = id).isSome then .ok () else .error .NotFound,
     { db with
        user_db := { db.user_db with users := db.user_db.users.delete fun r => r.id = id }
        sessions := db.sessions.delete fun r => r.user_id = id })

/-- `argon2` says whether the password is the one that was hashed, or why the
stored text is no hash. -/
def verify_password (argon2 : String → String → Except String Bool) (email password : String) :
    SessionTask (Except StoreError (Option UserRecord)) :=
  .read (.verify_password email) fun db =>
    match db.user_db.users.find fun r => r.email = email with
    | none => .ok none
    | some row =>
      match row.password_hash with
      | none => .ok none
      | some stored_hash =>
        match argon2 stored_hash password with
        | .error e => .error (.Internal ("stored password hash for " ++ fmt.debug email ++ " is unparsable: " ++ e))
        | .ok verified => .ok (if verified then some (to_model row) else none)

end user

namespace session

structure SessionUser where
  user_id : Uuid
  deriving DecidableEq

/-- `Utc::now()`. -/
def utc_now : SessionTask DateTime := .read .now fun db => db.now

/-- Time passes. -/
def tick (span : Int) : SessionTask Unit := .exec .tick fun db => ((), { db with now := db.now + span })

/-- `INSERT INTO sessions`, with `fk_sessions_user`. -/
def insert (row : sessions.Model) (db : SessionDb) : Except StoreError (Table sessions.indexes) := do
  require (db.user_db.users.find fun r => r.id = row.user_id).isSome
  db_err (db.sessions.insert row)

/-- `DELETE FROM sessions WHERE …`. -/
def delete_where (p : sessions.Model → Bool) (db : SessionDb) : Unit × SessionDb :=
  ((), { db with sessions := db.sessions.delete p })

/-- Every session whose expiry has passed is dropped. -/
def purge_expired : SessionTask Unit := do
  let now ← utc_now
  .exec .purge (delete_where fun r => r.expires_at < now)

section

variable (sha256_hex : String → String)

def create (plaintext : String) (user_id : Uuid) (expires_at : DateTime) :
    SessionTask (Except StoreError Unit) :=
  .exec (.insert (sha256_hex plaintext)) fun db =>
    match insert ⟨sha256_hex plaintext, user_id, expires_at⟩ db with
    | .error e => (.error e, db)
    | .ok sessions => (.ok (), { db with sessions })

/-- No such session, an expired one and one of a deleted user are all none. -/
def resolve (plaintext : String) : SessionTask (Option SessionUser) := do
  match ← (.read (.find (sha256_hex plaintext)) fun db =>
      db.sessions.find fun r => r.token_hash = sha256_hex plaintext : SessionTask (Option sessions.Model)) with
  | none => return none
  | some row =>
    let now ← utc_now
    if row.expires_at ≤ now then return none
    match ← (.read (.find_user row.user_id) fun db =>
        db.user_db.users.find fun r => r.id = row.user_id : SessionTask (Option users.Model)) with
    | none => return none
    | some user => return some ⟨user.id⟩

def delete (plaintext : String) : SessionTask Unit :=
  .exec (.delete (sha256_hex plaintext)) (delete_where fun r => r.token_hash = sha256_hex plaintext)

end

end session

end api2mcp.store

namespace api2mcp.server

open concurrent
open api2mcp.store api2mcp.entity

section

variable (sha256_hex : String → String)

namespace auth

/-- The token is the one that was drawn for the session. -/
def create_session (user_id : Uuid) (ttl : Duration) (token : String) : SessionTask (Except String String) :=
  match chrono.from_std ttl with
  | .error _ => return .error "session TTL out of range"
  | .ok ttl => do
    let now ← session.utc_now
    match ← session.create sha256_hex token user_id (now + ttl) with
    | .error _ => return .error "creating session"
    | .ok () => return .ok token

def resolve_session (plaintext : String) : SessionTask (Option Caller) := do
  let found ← session.resolve sha256_hex plaintext
  return found.map fun u => { kind := .Session, id := u.user_id }

def delete_session (plaintext : String) : SessionTask Unit := session.delete sha256_hex plaintext

/-- The session's token in a `Cookie` header. -/
def session_token (cookie_header : Option String) : Option String :=
  cookie_header.bind fun h => cookie_value h login.SESSION_COOKIE_NAME

end auth

namespace identity

/-- `Caller::from_request_parts`: who a request of the browser comes from, or
the answer it is turned away with. -/
def from_request_parts (cookie_header : Option String) : SessionTask (Except (Nat × String) Caller) :=
  match auth.session_token cookie_header with
  | none => return .error (401, "no session cookie")
  | some token => do
    match ← auth.resolve_session sha256_hex token with
    | some caller => return .ok caller
    | none => return .error (401, "invalid or expired session")

end identity

namespace login

/-- What `post_login` does with the database: a session for the user the
password is right for. -/
def post_login_session (argon2 : String → String → Except String Bool) (ttl : Duration)
    (email password token : String) : SessionTask (Except String (Option String)) := do
  match ← user.verify_password argon2 email password with
  | .error e => return .error e.to_string
  | .ok none => return .ok none
  | .ok (some user) => return (← auth.create_session sha256_hex user.id ttl token).map some

/-- What `get_oidc_callback` does with it, for the identity that was fetched. -/
def oidc_callback_session (ttl : Duration) (s : user.SignIn) (token : String) :
    SessionTask (Except String (Option String)) := do
  match ← on_users s.task with
  | .error e => return .error e.to_string
  | .ok user => return (← auth.create_session sha256_hex user.id ttl token).map some

/-- What `get_logout` does with it. -/
def get_logout_session (cookie_header : Option String) : SessionTask Unit :=
  match auth.session_token cookie_header with
  | none => return ()
  | some token => auth.delete_session sha256_hex token

end login

end

end api2mcp.server
