import Api2Mcp.Concurrent.Trace
import Api2Mcp.Entity.Users
import Api2Mcp.Text.Fmt

namespace api2mcp.store

open relational concurrent
open api2mcp.entity

/-- The users, and the clock of the database. -/
structure UserDb where
  users : Table users.indexes
  now : DateTime

/-- What a statement on the users is about. -/
inductive UserStmt where
  | get_by_oidc_identity (issuer subject : String)
  | get_unlinked_by_email (email : String)
  | get_by_email (email : String)
  | get_by_id (id : Uuid)
  | refresh_email (id : Uuid) (email : String)
  | claim_unlinked (id : Uuid) (issuer subject email : String)
  | insert (id : Uuid)
  | set_password (email : String)
  | tick
  deriving DecidableEq

def UserStmt.is_claim : UserStmt → Bool
  | .claim_unlinked .. => true
  | _ => false

/-- A call of the users' store. -/
abbrev UserTask := Task UserStmt UserDb

namespace user

structure UserRecord where
  id : Uuid
  email : String
  has_password : Bool
  oidc_issuer : Option String
  oidc_subject : Option String
  created_at : DateTime
  deriving DecidableEq

def to_model (row : users.Model) : UserRecord where
  id := row.id
  email := row.email
  has_password := row.password_hash.isSome
  oidc_issuer := row.oidc_issuer
  oidc_subject := row.oidc_subject
  created_at := row.created_at

def get_by_oidc_identity (issuer subject : String) : UserTask (Option UserRecord) :=
  .read (.get_by_oidc_identity issuer subject) fun db =>
    (db.users.find fun r => r.oidc_issuer = some issuer ∧ r.oidc_subject = some subject).map to_model

def get_unlinked_by_email (email : String) : UserTask (Option UserRecord) :=
  .read (.get_unlinked_by_email email) fun db =>
    (db.users.find fun r => r.email = email ∧ r.oidc_issuer.isNone).map to_model

def get_by_email (email : String) : UserTask (Option UserRecord) :=
  .read (.get_by_email email) fun db => (db.users.find fun r => r.email = email).map to_model

def get_by_id (id : Uuid) : UserTask (Option UserRecord) :=
  .read (.get_by_id id) fun db => (db.users.find fun r => r.id = id).map to_model

/-- `UPDATE users SET … WHERE …`, and how many rows it affects; it does nothing
when a unique index would break. -/
def updateMany (p : users.Model → Bool) (set : users.Model → users.Model) (db : UserDb) :
    Except StoreError Nat × UserDb :=
  match db.users.modify p set with
  | none => (.error .Db, db)
  | some users => (.ok (db.users.select p).length, { db with users })

/-- `INSERT INTO users`; it does nothing when a unique index would break. -/
def insertRow (row : DateTime → users.Model) (db : UserDb) : Except StoreError Unit × UserDb :=
  match db.users.insert (row db.now) with
  | none => (.error .Db, db)
  | some users => (.ok (), { db with users })

/-- The update of `refresh_linked`. -/
def refresh_email (id : Uuid) (email : String) : UserTask (Except StoreError Nat) :=
  .exec (.refresh_email id email) (updateMany (fun r => r.id = id) (users.Model.set_email email))

/-- The update of `claim_unlinked`. -/
def claim (id : Uuid) (issuer subject email : String) (db : UserDb) : Except StoreError Bool × UserDb :=
  match updateMany (fun r => r.id = id ∧ r.oidc_issuer.isNone) (users.Model.link issuer subject email) db with
  | (.error e, db') => (.error e, db')
  | (.ok affected, db') => (.ok (affected == 1), db')

def claim_unlinked (id : Uuid) (issuer subject email : String) : UserTask (Except StoreError Bool) :=
  .exec (.claim_unlinked id issuer subject email) (claim id issuer subject email)

/-- `INSERT`, by the key of the row. -/
def insert (id : Uuid) (row : DateTime → users.Model) : UserTask (Except StoreError Unit) :=
  .exec (.insert id) (insertRow row)

/-- A row that a statement just before left there. -/
def get_back (id : Uuid) (message : String) : UserTask (Except StoreError UserRecord) := do
  match ← get_by_id id with
  | none => return .error (.Internal message)
  | some user => return .ok user

/-- The row of a new user: with a password, with an identity, or with neither. -/
def newRow (id : Uuid) (email : String) (password_hash : Option String)
    (identity : Option (String × String)) (created_at : DateTime) : users.Model where
  id
  email
  password_hash
  oidc_issuer := identity.map (·.1)
  oidc_subject := identity.map (·.2)
  created_at
  ck_users_oidc_pair := by cases identity <;> rfl

def already_exists (email : String) : StoreError :=
  .Conflict ("a user with email " ++ fmt.debug email ++ " already exists")

/-- The password is given by its hash, or by why it has none. -/
def create (email : String) (hash : Except StoreError String) (id : Uuid) :
    UserTask (Except StoreError UserRecord) := do
  match ← get_by_email email with
  | some _ => return .error (already_exists email)
  | none =>
    match hash with
    | .error e => return .error e
    | .ok hash =>
      match ← insert id (newRow id email (some hash) none) with
      | .error e => return .error e
      | .ok () => get_back id "user disappeared immediately after insert"

def create_pending_oidc (email : String) (id : Uuid) : UserTask (Except StoreError UserRecord) := do
  match ← get_by_email email with
  | some _ => return .error (already_exists email)
  | none =>
    match ← insert id (newRow id email none none) with
    | .error e => return .error e
    | .ok () => get_back id "user disappeared immediately after insert"

def set_password (email : String) (hash : Except StoreError String) : UserTask (Except StoreError Unit) := do
  match hash with
  | .error e => return .error e
  | .ok hash =>
    match ← (.exec (.set_password email)
        (updateMany (fun r => r.email = email) (users.Model.set_password_hash hash)) :
        UserTask (Except StoreError Nat)) with
    | .error e => return .error e
    | .ok affected => return if affected = 0 then .error .NotFound else .ok ()

/-- Time passes. -/
def tick (span : Int) : UserTask Unit := .exec .tick fun db => ((), { db with now := db.now + span })

/-- What `refresh_linked` does with the row it found. -/
def refresh (existing : UserRecord) (email : String) : UserTask (Except StoreError (Option UserRecord)) := do
  match ← (if existing.email ≠ email then refresh_email existing.id email else .done (.ok 0) :
      UserTask (Except StoreError Nat)) with
  | .error e => return .error e
  | .ok _ =>
    let user ← get_back existing.id "user disappeared after email refresh"
    return user.map some

/-- Outcome 1 of `find_or_create_by_oidc`. -/
def refresh_linked (issuer subject email : String) : UserTask (Except StoreError (Option UserRecord)) := do
  match ← get_by_oidc_identity issuer subject with
  | none => return .ok none
  | some existing => refresh existing email

/-- Outcome 2: the claim of a row that a verified address names. -/
def claim_by_email (issuer subject email : String) : UserTask (Except StoreError (Option UserRecord)) := do
  match ← get_unlinked_by_email email with
  | none => return .ok none
  | some candidate =>
    match ← claim_unlinked candidate.id issuer subject email with
    | .error e => return .error e
    | .ok true =>
      let user ← get_back candidate.id "user disappeared immediately after being claimed"
      return user.map some
    | .ok false => refresh_linked issuer subject email

/-- Outcome 3. -/
def create_linked (issuer subject email : String) (id : Uuid) : UserTask (Except StoreError UserRecord) := do
  match ← get_by_email email with
  | some _ =>
    return .error (.Conflict ("a user with email " ++ fmt.debug email ++
      " already exists and cannot be claimed for this sign-in (its email is unverified, or the existing " ++
      "account is linked to a different identity)"))
  | none =>
    match ← insert id (newRow id email none (some (issuer, subject))) with
    | .error e => return .error e
    | .ok () => get_back id "user disappeared immediately after insert"

/-- `id` is the key that a new row would get. -/
def find_or_create_by_oidc (issuer subject email : String) (email_verified : Bool) (id : Uuid) :
    UserTask (Except StoreError UserRecord) := do
  match ← refresh_linked issuer subject email with
  | .error e => return .error e
  | .ok (some user) => return .ok user
  | .ok none =>
    match ← (if email_verified then claim_by_email issuer subject email else .done (.ok none) :
        UserTask (Except StoreError (Option UserRecord))) with
    | .error e => return .error e
    | .ok (some user) => return .ok user
    | .ok none => create_linked issuer subject email id

end user

end api2mcp.store
