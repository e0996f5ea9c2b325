import Api2Mcp.Server.Session

namespace api2mcp.store.user

open relational concurrent

section

variable {st : Nat → UserDb} {n m : Nat} {issuer subject email : String} {id : Uuid} {user : UserRecord}

theorem get_back_id {message : String} (hran : Task.Ran st n (get_back id message) m (.done (.ok user))) :
    user.id = id := by
  obtain ⟨k, -, -, -, hrest⟩ := Task.ran_read_bind.mp hran
  cases hfind : (st k).users.find fun r => r.id = id with
  | none =>
    rw [hfind] at hrest
    cases hrest
  | some r =>
    rw [hfind] at hrest
    obtain ⟨-, hid⟩ := Table.mem_of_find hfind
    obtain rfl : to_model r = user := by cases hrest; rfl
    exact of_decide_eq_true hid

theorem refresh_id {existing : UserRecord}
    (hran : Task.Ran st n (refresh existing email) m (.done (.ok (some user)))) : user.id = existing.id := by
  obtain ⟨k, refreshed, -, hrest⟩ := hran.bind
  cases refreshed with
  | error e => cases hrest
  | ok _ =>
    obtain ⟨k', found, hback, hrest⟩ := hrest.bind
    cases found with
    | error e => cases hrest
    | ok found =>
      obtain ⟨-, heq⟩ := Task.ran_done.mp hrest
      obtain rfl : found = user := by simpa [Except.map] using heq
      exact get_back_id hback

theorem refresh_linked_linked (hran : Task.Ran st n (refresh_linked issuer subject email) m (.done (.ok (some user)))) :
    ∃ k, n ≤ k ∧ k < m ∧ Linked (st k) issuer subject user.id := by
  obtain ⟨k, hnk, hkm, -, hrest⟩ := Task.ran_read_bind.mp hran
  cases hfind : (st k).users.find fun r => r.oidc_issuer = some issuer ∧ r.oidc_subject = some subject with
  | none =>
    rw [hfind] at hrest
    cases hrest
  | some r =>
    rw [hfind] at hrest
    obtain ⟨hr, hp⟩ := Table.mem_of_find hfind
    exact ⟨k, hnk, hkm, r, hr, (refresh_id hrest).symm, of_decide_eq_true hp⟩

theorem claim_by_email_linked (hran : Task.Ran st n (claim_by_email issuer subject email) m (.done (.ok (some user)))) :
    ∃ k, n ≤ k ∧ k ≤ m ∧ Linked (st k) issuer subject user.id := by
  obtain ⟨k, hnk, hkm, -, hrest⟩ := Task.ran_read_bind.mp hran
  cases hfind : (st k).users.find fun r => r.email = email ∧ r.oidc_issuer.isNone with
  | none =>
    rw [hfind] at hrest
    cases hrest
  | some candidate =>
    rw [hfind] at hrest
    obtain ⟨k', hkk', hk'm, hwrite, hrest⟩ := Task.ran_exec_bind.mp hrest
    split at hrest
    · cases hrest
    · rename_i hwon
      obtain ⟨k'', found, hback, hrest⟩ := hrest.bind
      cases found with
      | error e => cases hrest
      | ok found =>
        obtain ⟨-, heq⟩ := Task.ran_done.mp hrest
        obtain rfl : found = user := by simpa [Except.map] using heq
        have hlinked := (claim_won (Prod.ext hwon hwrite.symm)).2
        exact ⟨k' + 1, by omega, hk'm, (get_back_id hback).symm ▸ hlinked⟩
    · obtain ⟨i, hi, him, hlinked⟩ := refresh_linked_linked hrest
      exact ⟨i, by omega, by omega, hlinked⟩

theorem create_linked_linked (hran : Task.Ran st n (create_linked issuer subject email id) m (.done (.ok user))) :
    ∃ k, n ≤ k ∧ k ≤ m ∧ Linked (st k) issuer subject user.id := by
  obtain ⟨k, hnk, -, -, hrest⟩ := Task.ran_read_bind.mp hran
  cases hfind : (st k).users.find fun r => r.email = email with
  | some _ =>
    rw [hfind] at hrest
    cases hrest
  | none =>
    rw [hfind] at hrest
    obtain ⟨k', hkk', hk'm, hwrite, hrest⟩ := Task.ran_exec_bind.mp hrest
    split at hrest
    · cases hrest
    · rename_i hinserted
      obtain ⟨hrow, -⟩ := insertRow_ok (Prod.ext hinserted hwrite.symm)
      exact ⟨k' + 1, by omega, hk'm, _, hrow, (get_back_id hrest).symm, rfl, rfl⟩

/-- A sign-in answers with a user who had its identity while it ran, whatever
the others did to the users meanwhile. -/
theorem sign_in_linked {s : SignIn} (hran : Task.Ran st n s.task m (.done (.ok user))) :
    ∃ k, n ≤ k ∧ k ≤ m ∧ Linked (st k) s.issuer s.subject user.id := by
  obtain ⟨k, found, hfound, hrest⟩ := hran.bind
  have hnk := hfound.le
  split at hrest
  · cases hrest
  · obtain ⟨hkm, heq⟩ := Task.ran_done.mp hrest
    cases heq
    obtain ⟨i, hi, hik, hlinked⟩ := refresh_linked_linked hfound
    exact ⟨i, hi, by omega, hlinked⟩
  obtain ⟨k', claimed, hclaimed, hrest⟩ := hrest.bind
  have hkk' := hclaimed.le
  split at hrest
  · cases hrest
  · obtain ⟨hk'm, heq⟩ := Task.ran_done.mp hrest
    cases heq
    split at hclaimed
    · obtain ⟨i, hi, hik, hlinked⟩ := claim_by_email_linked hclaimed
      exact ⟨i, by omega, by omega, hlinked⟩
    · cases hclaimed
  · obtain ⟨i, hi, him, hlinked⟩ := create_linked_linked hrest
    exact ⟨i, by omega, him, hlinked⟩

end

end api2mcp.store.user

namespace api2mcp.server.session

open relational concurrent
open api2mcp.store api2mcp.entity

/-- The calls under way: sign-ins, requests of browsers, the sweep, what an
operator does to the users, and the passing of time. -/
inductive Call where
  | post_login (email password token : String)
  | oidc_callback (s : user.SignIn) (token : String)
  | request (cookie_header : Option String)
  | get_logout (cookie_header : Option String)
  | sweep
  | delete_user (id : Uuid)
  | users (call : user.Call)
  | tick (span : Int)

inductive Reply where
  | signed_in (answer : Except String (Option String))
  | caller (answer : Except (Nat × String) Caller)
  | done

/-- The token that is drawn for the session of a sign-in. -/
def Call.token : Call → Option String
  | .post_login _ _ token => some token
  | .oidc_callback _ token => some token
  | _ => none

/-- The token that a browser presents. -/
def Call.presented : Call → Option String
  | .request cookie_header => auth.session_token cookie_header
  | .get_logout cookie_header => auth.session_token cookie_header
  | _ => none

/-- The hash tells a token that is presented from the tokens that are drawn. -/
def Apart {ι : Type} (sha256_hex : String → String) (calls : ι → Call) : Prop :=
  ∀ i j drawn presented, (calls i).token = some drawn → (calls j).presented = some presented →
    sha256_hex presented = sha256_hex drawn → presented = drawn

section

variable (sha256_hex : String → String) (argon2 : String → String → Except String Bool) (ttl : Duration)

def Call.task : Call → SessionTask Reply
  | .post_login email password token => do
    return .signed_in (← login.post_login_session sha256_hex argon2 ttl email password token)
  | .oidc_callback s token => do return .signed_in (← login.oidc_callback_session sha256_hex ttl s token)
  | .request cookie_header => do return .caller (← identity.from_request_parts sha256_hex cookie_header)
  | .get_logout cookie_header => do
    login.get_logout_session sha256_hex cookie_header
    return .done
  | .sweep => do
    session.purge_expired
    return .done
  | .delete_user id => do
    let _ ← user.delete id
    return .done
  | .users call => do
    let _ ← on_users call.task
    return .done
  | .tick span => do
    session.tick span
    return .done

/-- Any number of calls, all of them about to start. -/
def start {ι : Type} (db : SessionDb) (calls : ι → Call) : Pool ι SessionStmt SessionDb Reply where
  store := db
  task i := (calls i).task sha256_hex argon2 ttl

/-- What a sign-in has shown of its user: the password of its row, or an
identity its row has. -/
inductive Call.Proves (db : UserDb) : Call → Uuid → Prop
  | password {email password token stored_hash : String} {r : users.Model} : r ∈ db.users.rows →
      r.email = email → r.password_hash = some stored_hash → argon2 stored_hash password = .ok true →
      Proves db (.post_login email password token) r.id
  | identity {s : user.SignIn} {token : String} {id : Uuid} : user.Linked db s.issuer s.subject id →
      Proves db (.oidc_callback s token) id

/-- At time `opened` the call put a session's row there, for a user it has
been proved to speak for, that lasts from a time before. -/
structure Opened (st : Nat → SessionDb) (call : Call) (opened : Nat) (row : sessions.Model) : Prop where
  token : ∃ token, call.token = some token ∧ row.token_hash = sha256_hex token
  proved : ∃ k ≤ opened, call.Proves argon2 (st k).user_db row.user_id
  expires_at : ∃ k < opened, row.expires_at = (st k).now + ttl
  inserted : row ∈ (st (opened + 1)).sessions.rows

end

/-! What the statements of the calls do. -/

/-- The users that are there stay, and nothing else is touched. -/
structure OnUsers (db db' : SessionDb) : Prop where
  users : ∀ r ∈ db.user_db.users.rows, ∃ r' ∈ db'.user_db.users.rows, r'.id = r.id
  sessions : db'.sessions = db.sessions
  now : db'.now = db.now

/-- The sessions that are there stay, and nothing else is touched. -/
structure OnSessions (db db' : SessionDb) : Prop where
  sessions : ∀ r ∈ db.sessions.rows, r ∈ db'.sessions.rows
  user_db : db'.user_db = db.user_db
  now : db'.now = db.now

/-- The statements of a call. -/
inductive Call.Does (sha256_hex : String → String) (call : Call) : SessionStmt → (SessionDb → SessionDb) → Prop
  | read {l : SessionStmt} : l.is_insert = false → Does sha256_hex call l id
  | users {l : UserStmt} {write : SessionDb → SessionDb} : (∀ db, OnUsers db (write db)) →
      Does sha256_hex call (.users l) write
  | insert {token token_hash : String} {write : SessionDb → SessionDb} : call.token = some token →
      (∀ db, OnSessions db (write db)) → Does sha256_hex call (.insert token_hash) write
  | delete {cookie_header : Option String} {token : String} : call = .get_logout cookie_header →
      auth.session_token cookie_header = some token →
      Does sha256_hex call (.delete (sha256_hex token))
        fun db => (session.delete_where (fun r => r.token_hash = sha256_hex token) db).2
  | purge (before : DateTime) : call = .sweep →
      Does sha256_hex call .purge fun db => (session.delete_where (fun r => r.expires_at < before) db).2
  | delete_user {id : Uuid} : call = .delete_user id →
      Does sha256_hex call (.delete_user id) fun db => { db with
        user_db := { db.user_db with users := db.user_db.users.delete fun r => r.id = id }
        sessions := db.sessions.delete fun r => r.user_id = id }
  | tick {span : Int} : call = .tick span →
      Does sha256_hex call .tick fun db => { db with now := db.now + span }

theorem all_on_users {α : Type} {t : UserTask α} (ht : t.All fun _ write => ∀ db, user.Keeps db (write db)) :
    (on_users t).All fun l write => l.is_insert = false ∧ (∃ stmt, l = .users stmt) ∧ ∀ db, OnUsers db (write db) := by
  have hzoom : (t.zoom SessionDb.user_db SessionDb.set_user_db).All fun _ write => ∀ db, OnUsers db (write db) := by
    refine ht.zoom fun l write hkeeps db => ⟨fun r hr => ?_, rfl, rfl⟩
    obtain ⟨r', hr', hid, -⟩ := hkeeps db.user_db r hr
    exact ⟨r', hr', hid⟩
  exact hzoom.relabel fun l write hon => ⟨rfl, ⟨l, rfl⟩, hon⟩

theorem all_sign_in (s : user.SignIn) :
    (on_users s.task).All fun l write =>
      l.is_insert = false ∧ (∃ stmt, l = .users stmt) ∧ ∀ db, OnUsers db (write db) :=
  all_on_users ((user.sign_in_own s).mono fun _ _ h => h.1)

section

variable {sha256_hex : String → String} {argon2 : String → String → Except String Bool} {ttl : Duration}

theorem Call.Does.of_users {call : Call} {l : SessionStmt} {write : SessionDb → SessionDb}
    (h : l.is_insert = false ∧ (∃ stmt, l = .users stmt) ∧ ∀ db, OnUsers db (write db)) :
    call.Does sha256_hex l write := by
  obtain ⟨-, ⟨stmt, rfl⟩, hon⟩ := h
  exact .users hon

/-- Only the insert of a sign-in adds a session. -/
theorem Call.Does.mem {call : Call} {l : SessionStmt} {write : SessionDb → SessionDb}
    (h : call.Does sha256_hex l write) {db : SessionDb} {r : sessions.Model} (hr : r ∈ (write db).sessions.rows) :
    r ∈ db.sessions.rows ∨ ∃ token token_hash, call.token = some token ∧ l = .insert token_hash := by
  cases h with
  | read => exact .inl hr
  | users hon =>
    rw [(hon db).sessions] at hr
    exact .inl hr
  | insert htoken => exact .inr ⟨_, _, htoken, rfl⟩
  | delete | purge | delete_user => exact .inl (Table.mem_delete.mp hr).1
  | tick => exact .inl hr

theorem all_verify_password (email password : String) :
    (user.verify_password argon2 email password).All fun l write => l.is_insert = false ∧ write = id :=
  Task.all_read ⟨rfl, rfl⟩ _

theorem all_create_session {call : Call} {token : String} (htoken : call.token = some token) (user_id : Uuid) :
    (auth.create_session sha256_hex user_id ttl token).All (call.Does sha256_hex) := by
  unfold auth.create_session
  split
  · exact .done _
  · refine (Task.all_read (.read rfl) _).bind fun now => ?_
    refine Task.All.bind (Task.all_exec (.insert htoken fun db => ?_)) fun created => ?_
    · split
      · exact ⟨fun _ h => h, rfl, rfl⟩
      · rename_i sessions hinsert
        simp only [session.insert, except.bind_eq_ok, db_err_eq_ok] at hinsert
        obtain ⟨-, -, hinsert⟩ := hinsert
        exact ⟨fun r hr => (Table.mem_of_insert hinsert).mpr (.inl hr), rfl, rfl⟩
    · cases created <;> exact .done _

theorem all_resolve_session (call : Call) (plaintext : String) :
    (auth.resolve_session sha256_hex plaintext).All (call.Does sha256_hex) := by
  refine Task.All.bind ?_ fun _ => .done _
  refine (Task.all_read (.read rfl) _).bind fun row => ?_
  cases row with
  | none => exact .done _
  | some row =>
    refine (Task.all_read (.read rfl) _).bind fun now => ?_
    split
    · exact .done _
    refine (Task.all_read (.read rfl) _).bind fun user => ?_
    cases user <;> exact .done _

theorem Call.all_does (call : Call) : (call.task sha256_hex argon2 ttl).All (call.Does sha256_hex) := by
  cases call with
  | post_login email password token =>
    refine Task.All.bind ?_ fun _ => .done _
    refine ((all_verify_password email password).mono fun _ _ h => h.2 ▸ .read h.1).bind fun verified => ?_
    obtain _ | _ | user := verified
    · exact .done _
    · exact .done _
    · exact (all_create_session rfl _).bind fun _ => .done _
  | oidc_callback s token =>
    refine Task.All.bind ?_ fun _ => .done _
    refine ((all_sign_in s).mono fun _ _ h => .of_users h).bind fun user => ?_
    cases user with
    | error e => exact .done _
    | ok user => exact (all_create_session rfl _).bind fun _ => .done _
  | request cookie_header =>
    refine Task.All.bind ?_ fun _ => .done _
    unfold identity.from_request_parts
    split
    · exact .done _
    · refine (all_resolve_session _ _).bind fun caller => ?_
      cases caller <;> exact .done _
  | get_logout cookie_header =>
    refine Task.All.bind ?_ fun _ => .done _
    unfold login.get_logout_session
    split
    · exact .done _
    · rename_i token htoken
      exact Task.all_exec (.delete rfl htoken)
  | sweep =>
    refine Task.All.bind ?_ fun _ => .done _
    exact (Task.all_read (.read rfl) _).bind fun before => Task.all_exec (.purge before rfl)
  | delete_user id => exact Task.All.bind (Task.all_exec (.delete_user rfl)) fun _ => .done _
  | users call =>
    have hkeeps := call.all_statements.mono fun _ _ h db => user.Call.keeps_of_statements h db
    exact ((all_on_users hkeeps).mono fun _ _ h => .of_users h).bind fun _ => .done _
  | tick span => exact Task.All.bind (Task.all_exec (.tick rfl)) fun _ => .done _

/-! What a sign-in that stands before its insert has done. -/

variable {st : Nat → SessionDb} {n m : Nat} {token_hash : String} {ready : SessionDb → Bool}
  {write : SessionDb → SessionDb} {α β : Type} {next : SessionDb → SessionTask β}

theorem ne_insert {l : SessionStmt} (h : l.is_insert = false) : l ≠ .insert token_hash := by
  rintro rfl
  cases h

theorem create_session_insert {user_id : Uuid} {token : String} {f : Except String String → SessionTask β}
    (hf : ∀ a, ∃ b, f a = .done b)
    (hran : Task.Ran st n (auth.create_session sha256_hex user_id ttl token >>= f) m
      (.stmt (.insert token_hash) ready write next)) :
    ∃ k, n ≤ k ∧ k < m ∧ ∀ db, ∀ r ∈ (write db).sessions.rows, r ∈ db.sessions.rows ∨
      r = ⟨sha256_hex token, user_id, (st k).now + ttl⟩ := by
  have hstuck : ∀ {n : Nat} {a : Except String String},
      ¬ Task.Ran st n (f a) m (.stmt (.insert token_hash) ready write next) := by
    intro n a hran
    obtain ⟨b, hb⟩ := hf a
    rw [hb] at hran
    cases hran
  cases hspan : chrono.from_std ttl with
  | error e =>
    rw [auth.create_session, hspan] at hran
    exact absurd hran hstuck
  | ok span =>
    obtain rfl : (ttl : Int) = span := by
      unfold chrono.from_std at hspan
      split at hspan
      · exact Except.ok.inj hspan
      · cases hspan
    rw [auth.create_session, hspan] at hran
    obtain ⟨k, hnk, hkm, -, hran⟩ := hran.stmt_to (ne_insert rfl)
    refine ⟨k, hnk, hkm, ?_⟩
    cases hran with
    | stmt _ _ _ _ hrest =>
      -- the insert is past, and what is left is done
      dsimp only [Task.stmt_bind, Task.done_bind] at hrest
      split at hrest
      · exact absurd hrest hstuck
      · exact absurd hrest hstuck
    | idle hle =>
      intro db r hr
      dsimp only at hr
      split at hr
      · exact .inl hr
      · rename_i sessions hinsert
        simp only [session.insert, except.bind_eq_ok, db_err_eq_ok] at hinsert
        obtain ⟨-, -, hinsert⟩ := hinsert
        exact (Table.mem_of_insert hinsert).mp hr

theorem verify_password_proves {email password token : String} {found : user.UserRecord}
    (hran : Task.Ran st n (user.verify_password argon2 email password) m (.done (.ok (some found)))) :
    ∃ k, n ≤ k ∧ k < m ∧ (Call.post_login email password token).Proves argon2 (st k).user_db found.id := by
  rw [← Task.bind_done (user.verify_password argon2 email password)] at hran
  obtain ⟨k, hnk, hkm, -, hrest⟩ := Task.ran_read_bind.mp hran
  obtain ⟨-, heq⟩ := Task.ran_done.mp hrest
  refine ⟨k, hnk, hkm, ?_⟩
  cases hfind : (st k).user_db.users.find fun r => r.email = email with
  | none =>
    rw [hfind] at heq
    cases heq
  | some row =>
    obtain ⟨hrow, hemail⟩ := Table.mem_of_find hfind
    rw [hfind] at heq
    dsimp only at heq
    cases hhash : row.password_hash with
    | none =>
      rw [hhash] at heq
      cases heq
    | some stored_hash =>
      rw [hhash] at heq
      dsimp only at heq
      cases hverify : argon2 stored_hash password with
      | error e =>
        rw [hverify] at heq
        cases heq
      | ok verified =>
        rw [hverify] at heq
        cases verified with
        | false => cases heq
        | true =>
          obtain rfl : user.to_model row = found := by simpa using heq
          exact .password hrow (of_decide_eq_true hemail) hhash hverify

/-- The statement that puts a row there is the insert of a sign-in, and the row
is the session it was about to open. -/
theorem Call.opened {call : Call} {row : sessions.Model} {l : SessionStmt} {next : SessionDb → SessionTask Reply}
    (hran : Task.Ran st 0 (call.task sha256_hex argon2 ttl) m (.stmt l ready write next))
    (hwrite : st (m + 1) = write (st m)) (habsent : row ∉ (st m).sessions.rows)
    (hinserted : row ∈ (st (m + 1)).sessions.rows) : Opened sha256_hex argon2 ttl st call m row := by
  have hadded : row ∈ (write (st m)).sessions.rows := by rwa [← hwrite]
  cases (Call.all_does call).ran hran with
  | stmt hdoes _ =>
    obtain hold | ⟨token, token_hash, htoken, rfl⟩ := hdoes.mem hadded
    · exact absurd hold habsent
    cases call with
    | post_login email password token' =>
      obtain rfl : token' = token := Option.some.inj htoken
      rw [Call.task, login.post_login_session, Task.bind_assoc] at hran
      obtain ⟨k, verified, hverified, hran⟩ := hran.bind_to
        ((all_verify_password email password).mono fun _ _ h => ne_insert h.1)
      obtain e | _ | user := verified
      · cases hran
      · cases hran
      · obtain ⟨k', -, hk'k, hproves⟩ := verify_password_proves hverified
        dsimp only at hran
        rw [Task.bind_assoc] at hran
        obtain ⟨c, hkc, hcm, hrow⟩ := create_session_insert (fun _ => ⟨_, rfl⟩) hran
        obtain hold | rfl := hrow _ row hadded
        · exact absurd hold habsent
        · exact ⟨⟨token', rfl, rfl⟩, ⟨k', by omega, hproves⟩, ⟨c, hcm, rfl⟩, hinserted⟩
    | oidc_callback s token' =>
      obtain rfl : token' = token := Option.some.inj htoken
      rw [Call.task, login.oidc_callback_session, Task.bind_assoc] at hran
      obtain ⟨k, signed_in, hsigned, hran⟩ := hran.bind_to
        ((all_sign_in s).mono fun _ _ h => ne_insert h.1)
      cases signed_in with
      | error e => cases hran
      | ok found =>
        obtain ⟨k', -, hk'k, hlinked⟩ := user.sign_in_linked (hsigned.of_relabel.of_zoom SessionDb.set_user_db_user_db)
        dsimp only at hran
        rw [Task.bind_assoc] at hran
        obtain ⟨c, hkc, hcm, hrow⟩ := create_session_insert (fun _ => ⟨_, rfl⟩) hran
        obtain hold | rfl := hrow _ row hadded
        · exact absurd hold habsent
        · exact ⟨⟨token', rfl, rfl⟩, ⟨k', by omega, .identity hlinked⟩, ⟨c, hcm, rfl⟩, hinserted⟩
    | request | get_logout | sweep | delete_user | users | tick => cases htoken

/-- What a request that is let in has read: a session of its token, a clock
before its expiry, and its user. -/
structure Read (st : Nat → SessionDb) (n m : Nat) (row : sessions.Model) (k : Nat) : Prop where
  since : n ≤ k
  before : k < m
  found : row ∈ (st k).sessions.rows
  unexpired : ∃ c, k < c ∧ c < m ∧ (st c).now < row.expires_at
  user : ∃ c, k < c ∧ c < m ∧ ∃ r ∈ (st c).user_db.users.rows, r.id = row.user_id

theorem request_read {cookie_header : Option String} {caller : Caller}
    (hran : Task.Ran st n ((Call.request cookie_header).task sha256_hex argon2 ttl) m (.done (.caller (.ok caller)))) :
    ∃ token row k, auth.session_token cookie_header = some token ∧ row.token_hash = sha256_hex token ∧
      caller = ⟨.Session, row.user_id⟩ ∧ Read st n m row k := by
  obtain ⟨i, answer, hran, hrest⟩ := hran.bind
  obtain ⟨him, heq⟩ := Task.ran_done.mp hrest
  obtain rfl : answer = .ok caller := by injection heq
  unfold identity.from_request_parts at hran
  split at hran
  · cases hran
  rename_i token htoken
  obtain ⟨i', found, hresolve, hrest⟩ := hran.bind
  cases found with
  | none => cases hrest
  | some found =>
    obtain ⟨hi'i, heq⟩ := Task.ran_done.mp hrest
    obtain rfl : found = caller := Except.ok.inj heq
    obtain ⟨e, resolved, hran, hrest⟩ := hresolve.bind
    obtain ⟨hei', heq⟩ := Task.ran_done.mp hrest
    obtain ⟨k, hnk, -, -, hran⟩ := Task.ran_read_bind.mp hran
    cases hfind : (st k).sessions.find fun r => r.token_hash = sha256_hex token with
    | none =>
      rw [hfind] at hran
      obtain ⟨-, rfl⟩ := Task.ran_done.mp hran
      cases heq
    | some row =>
      obtain ⟨hrow, hhash⟩ := Table.mem_of_find hfind
      rw [hfind] at hran
      obtain ⟨c, hkc, -, -, hran⟩ := Task.ran_read_bind.mp hran
      split at hran
      · obtain ⟨-, rfl⟩ := Task.ran_done.mp hran
        cases heq
      rename_i hunexpired
      obtain ⟨u, hcu, hue, -, hran⟩ := Task.ran_read_bind.mp hran
      cases huser : (st u).user_db.users.find fun r => r.id = row.user_id with
      | none =>
        rw [huser] at hran
        obtain ⟨-, rfl⟩ := Task.ran_done.mp hran
        cases heq
      | some r =>
        obtain ⟨hr, hid⟩ := Table.mem_of_find huser
        have hid := of_decide_eq_true hid
        rw [huser] at hran
        obtain ⟨-, rfl⟩ := Task.ran_done.mp hran
        obtain rfl : (⟨.Session, r.id⟩ : Caller) = found := Option.some.inj heq
        exact ⟨token, row, k, htoken, of_decide_eq_true hhash, by rw [hid], {
          since := hnk
          before := by omega
          found := hrow
          unexpired := ⟨c, by omega, by omega, Int.not_le.mp hunexpired⟩
          user := ⟨u, by omega, by omega, r, hr, hid⟩ }⟩

end

/-! What a run shows. -/

section

variable {sha256_hex : String → String} {argon2 : String → String → Except String Bool} {ttl : Duration}
  {ι : Type} [DecidableEq ι] {db : SessionDb} {calls : ι → Call} {sched : List ι}

/-- A session that is there in a run that began with none was opened by a
sign-in, and has been there since. -/
theorem exists_opened (hnone : db.sessions.rows = []) {row : sessions.Model} {k : Nat} (hk : k ≤ sched.length)
    (hrow : row ∈ (((start sha256_hex argon2 ttl db calls).stores sched) k).sessions.rows) :
    let st := (start sha256_hex argon2 ttl db calls).stores sched
    ∃ opened i, opened < k ∧ sched[opened]? = some i ∧ Opened sha256_hex argon2 ttl st (calls i) opened row ∧
      row ∉ (st opened).sessions.rows ∧ ∀ c, opened < c → c ≤ k → row ∈ (st c).sessions.rows := by
  intro st
  have hfirst : row ∉ (st 0).sessions.rows := by
    show row ∉ db.sessions.rows
    rw [hnone]
    exact List.not_mem_nil
  obtain ⟨opened, hlt, habsent, hsince⟩ := exists_onset (P := fun c => row ∈ (st c).sessions.rows) hfirst hrow
  have hlen : opened < sched.length := by omega
  have hinserted := hsince (opened + 1) (Nat.lt_succ_self opened) hlt
  refine ⟨opened, sched[opened], hlt, List.getElem?_eq_getElem hlen, ?_, habsent, hsince⟩
  obtain hsame | ⟨l, ready, write, next, hran, hwrite⟩ :=
    (start sha256_hex argon2 ttl db calls).stores_turn sched hlen
  · have hsame : st (opened + 1) = st opened := hsame
    rw [hsame] at hinserted
    exact absurd hinserted habsent
  · exact Call.opened hran hwrite habsent hinserted

omit [DecidableEq ι] in
theorem task_start (i : ι) : (start sha256_hex argon2 ttl db calls).task i = (calls i).task sha256_hex argon2 ttl := rfl

/-- A request that is let in as a user carries the token of a sign-in that has
shown to be that user's; its session has stood since that sign-in opened it, up
to when the request looked at it, and had not expired; and the user was there. -/
theorem admitted_was_signed_in (hapart : Apart sha256_hex calls) (hnone : db.sessions.rows = [])
    {j : ι} {cookie_header : Option String} {caller : Caller} {n : Nat} (hcall : calls j = .request cookie_header)
    (hn : n ≤ sched.length) (hbegan : j ∉ sched.take n)
    (hadmitted : (((start sha256_hex argon2 ttl db calls).run sched).task j).result? =
      some (.caller (.ok caller))) :
    let st := (start sha256_hex argon2 ttl db calls).stores sched
    ∃ token i opened looked row, auth.session_token cookie_header = some token ∧ (calls i).token = some token ∧
      caller = ⟨.Session, row.user_id⟩ ∧ sched[opened]? = some i ∧
      Opened sha256_hex argon2 ttl st (calls i) opened row ∧ Read st n sched.length row looked ∧
      opened < looked ∧ ∀ k, opened < k → k ≤ looked → row ∈ (st k).sessions.rows := by
  intro st
  have hran := (start sha256_hex argon2 ttl db calls).ran_since sched hn hbegan
  rw [Task.result?_eq_some.mp hadmitted, task_start, hcall] at hran
  obtain ⟨token, row, looked, htoken, hhash, hcaller, hread⟩ := request_read hran
  obtain ⟨opened, i, hlt, hturn, hopened, -, hsince⟩ :=
    exists_opened hnone (Nat.le_of_lt hread.before) hread.found
  obtain ⟨token', htoken', hhash'⟩ := hopened.token
  obtain rfl : token = token' :=
    hapart i j token' token htoken' (by rw [hcall]; exact htoken) (hhash.symm.trans hhash')
  exact ⟨token, i, opened, looked, row, htoken, htoken', hcaller, hturn, hopened, hread, hlt, hsince⟩

/-- A request with a token is let in, or turned away as one without a session. -/
theorem request_reply {st : Nat → SessionDb} {n m : Nat} {cookie_header : Option String} {token : String}
    {reply : Reply} (htoken : auth.session_token cookie_header = some token)
    (hran : Task.Ran st n ((Call.request cookie_header).task sha256_hex argon2 ttl) m (.done reply)) :
    (∃ caller, reply = .caller (.ok caller)) ∨ reply = .caller (.error (401, "invalid or expired session")) := by
  obtain ⟨i, answer, hauth, hrest⟩ := hran.bind
  obtain ⟨-, rfl⟩ := Task.ran_done.mp hrest
  unfold identity.from_request_parts at hauth
  rw [htoken] at hauth
  obtain ⟨i', found, -, hrest⟩ := hauth.bind
  cases found with
  | none =>
    obtain ⟨-, rfl⟩ := Task.ran_done.mp hrest
    exact .inr rfl
  | some found =>
    obtain ⟨-, rfl⟩ := Task.ran_done.mp hrest
    exact .inl ⟨found, rfl⟩

/-- A logout that is over deleted the session of its token. -/
theorem logout_deleted {st : Nat → SessionDb} {n m : Nat} {cookie_header : Option String} {token : String}
    {reply : Reply} (htoken : auth.session_token cookie_header = some token)
    (hran : Task.Ran st n ((Call.get_logout cookie_header).task sha256_hex argon2 ttl) m (.done reply)) :
    ∃ k, n ≤ k ∧ k < m ∧ ∀ r ∈ (st (k + 1)).sessions.rows, r.token_hash ≠ sha256_hex token := by
  rw [Call.task, login.get_logout_session, htoken] at hran
  obtain ⟨k, hnk, hkm, hwrite, -⟩ := Task.ran_exec_bind.mp hran
  refine ⟨k, hnk, hkm, fun r hr => ?_⟩
  rw [hwrite] at hr
  exact of_decide_eq_false (Table.mem_delete.mp hr).2

/-- Once a logout is over that began when its sign-in was over, no request with
that token is let in, whatever else runs. -/
theorem logged_out_is_refused (hapart : Apart sha256_hex calls) (hnone : db.sessions.rows = [])
    {token : String} {i l j : ι} (hdrawn : ∀ i', (calls i').token = some token → i' = i)
    {logout_header cookie_header : Option String} (hlogout : calls l = .get_logout logout_header)
    (hlogoutToken : auth.session_token logout_header = some token) (hrequest : calls j = .request cookie_header)
    (hrequestToken : auth.session_token cookie_header = some token) {a n : Nat} (han : a ≤ n) (hn : n ≤ sched.length)
    (hsigned : (((start sha256_hex argon2 ttl db calls).run (sched.take a)).task i).result?.isSome)
    (hlogoutBegan : l ∉ sched.take a)
    (hlogoutDone : (((start sha256_hex argon2 ttl db calls).run (sched.take n)).task l).result?.isSome)
    (hrequestBegan : j ∉ sched.take n) {reply : Reply}
    (hreply : (((start sha256_hex argon2 ttl db calls).run sched).task j).result? = some reply) :
    reply = .caller (.error (401, "invalid or expired session")) := by
  let st := (start sha256_hex argon2 ttl db calls).stores sched
  have hran := (start sha256_hex argon2 ttl db calls).ran_since sched hn hrequestBegan
  rw [Task.result?_eq_some.mp hreply, task_start, hrequest] at hran
  obtain ⟨caller, rfl⟩ | hrefused := request_reply hrequestToken hran
  swap
  · exact hrefused
  exfalso
  obtain ⟨token', row, looked, htoken', hhash, -, hread⟩ := request_read hran
  obtain rfl : token = token' := by
    rw [hrequestToken] at htoken'
    exact Option.some.inj htoken'
  obtain ⟨opened, i', hlt, hturn, hopened, habsent, hsince⟩ :=
    exists_opened hnone (Nat.le_of_lt hread.before) hread.found
  obtain ⟨token', htoken', hhash'⟩ := hopened.token
  obtain rfl : token = token' :=
    hapart i' j token' token htoken' (by rw [hrequest]; exact hrequestToken) (hhash.symm.trans hhash')
  obtain rfl := hdrawn i' htoken'
  -- the logout deleted the session
  obtain ⟨ended, hended⟩ := Option.isSome_iff_exists.mp hlogoutDone
  have hlogoutRan := (start sha256_hex argon2 ttl db calls).ran_between sched l han hn
  rw [Task.result?_eq_some.mp hended, Pool.run_task_of_notMem _ hlogoutBegan, task_start, hlogout] at hlogoutRan
  obtain ⟨k, hak, hkn, hdeleted⟩ := logout_deleted hlogoutToken hlogoutRan
  have hsince' := hread.since
  have hreopened : a ≤ opened := by
    by_contra hbefore
    exact hdeleted row (hsince (k + 1) (by omega) (by omega)) hhash
  -- and the sign-in that had opened it was over
  obtain ⟨answer, hanswer⟩ := Option.isSome_iff_exists.mp hsigned
  have hsame : st (opened + 1) = st opened :=
    (start sha256_hex argon2 ttl db calls).stores_of_done sched hanswer hreopened hturn
  have hinserted : row ∈ (st (opened + 1)).sessions.rows := hopened.inserted
  rw [hsame] at hinserted
  exact habsent hinserted

/-! What keeps a session. -/

/-- A session of a user who stays is there until it has expired, and the clock
does not go back. -/
structure Kept (row : sessions.Model) (db db' : SessionDb) : Prop where
  now : db.now ≤ db'.now
  stands : row ∈ db.sessions.rows → db'.now ≤ row.expires_at → row ∈ db'.sessions.rows
  user : (∃ r ∈ db.user_db.users.rows, r.id = row.user_id) → ∃ r ∈ db'.user_db.users.rows, r.id = row.user_id

theorem Kept.refl (row : sessions.Model) (db : SessionDb) : Kept row db db := ⟨Int.le_refl _, fun h _ => h, id⟩

theorem Kept.trans {row : sessions.Model} {a b c : SessionDb} (hab : Kept row a b) (hbc : Kept row b c) :
    Kept row a c where
  now := Int.le_trans hab.now hbc.now
  stands h hnow := hbc.stands (hab.stands h (Int.le_trans hbc.now hnow)) hnow
  user h := hbc.user (hab.user h)

/-- The call neither ends the session, nor deletes its user, nor turns the
clock back. -/
def Call.Spares (sha256_hex : String → String) (row : sessions.Model) : Call → Prop
  | .get_logout cookie_header => ∀ token, auth.session_token cookie_header = some token →
      row.token_hash ≠ sha256_hex token
  | .delete_user id => row.user_id ≠ id
  | .tick span => 0 ≤ span
  | _ => True

theorem Call.Does.kept {call : Call} {row : sessions.Model} {l : SessionStmt} {write : SessionDb → SessionDb}
    (h : call.Does sha256_hex l write) (hspares : call.Spares sha256_hex row) (hsweep : call ≠ .sweep)
    (db : SessionDb) : Kept row db (write db) := by
  cases h with
  | read => exact .refl row db
  | users hon =>
    refine ⟨Int.le_of_eq (hon db).now.symm, fun h _ => by rwa [(hon db).sessions], ?_⟩
    rintro ⟨r, hr, hid⟩
    obtain ⟨r', hr', hid'⟩ := (hon db).users r hr
    exact ⟨r', hr', hid'.trans hid⟩
  | insert _ hon =>
    exact ⟨Int.le_of_eq (hon db).now.symm, fun h _ => (hon db).sessions row h, by rw [(hon db).user_db]; exact id⟩
  | delete hcall htoken =>
    subst hcall
    have hother := hspares _ htoken
    exact ⟨Int.le_refl _, fun h _ => Table.mem_delete.mpr ⟨h, decide_eq_false hother⟩, id⟩
  | purge before hcall => exact absurd hcall hsweep
  | delete_user hcall =>
    subst hcall
    refine ⟨Int.le_refl _, fun h _ => Table.mem_delete.mpr ⟨h, decide_eq_false hspares⟩, ?_⟩
    rintro ⟨r, hr, hid⟩
    exact ⟨r, Table.mem_delete.mpr ⟨hr, decide_eq_false (hid.trans_ne hspares)⟩, hid⟩
  | @tick span hcall =>
    subst hcall
    have hspan : 0 ≤ span := hspares
    exact ⟨Int.le_add_of_nonneg_right hspan, fun h _ => h, id⟩

/-- The others are relied on to keep the session, and the call keeps it. -/
def keepSpec (row : sessions.Model) : concurrent.Spec SessionStmt SessionDb Reply Unit where
  rely := Kept row
  advance _ _ := ()
  guar _ _ := Kept row
  post _ _ _ := True

/-- The sweep drops what has expired at a time that is past. -/
theorem sweep_meets (row : sessions.Model) (w : SessionDb) :
    Task.Meets (keepSpec row) () w (Call.task sha256_hex argon2 ttl .sweep) := by
  refine .stmt (fun s _ _ => .refl row s) fun before _ _ => .stmt (fun s hrely _ => ?_) fun _ _ _ =>
    .done fun _ _ => trivial
  refine ⟨Int.le_refl _, fun h hnow => Table.mem_delete.mpr ⟨h, decide_eq_false ?_⟩, id⟩
  have hpast : before.now ≤ s.now := hrely.now
  have hnow : s.now ≤ row.expires_at := hnow
  exact Int.not_lt.mpr (Int.le_trans hpast hnow)

theorem Call.meets {call : Call} {row : sessions.Model} (hspares : call.Spares sha256_hex row) (w : SessionDb) :
    Task.Meets (keepSpec row) () w (call.task sha256_hex argon2 ttl) := by
  by_cases hsweep : call = .sweep
  · subst hsweep
    exact sweep_meets row w
  · exact .of_all (fun _ _ _ => trivial) (fun _ _ _ hdoes s => hdoes.kept hspares hsweep s) (Call.all_does call)

/-- A run whose calls all spare a session keeps it until it has expired. -/
theorem kept_run {row : sessions.Model} (hspares : ∀ i, (calls i).Spares sha256_hex row) {k n : Nat} (hkn : k ≤ n) :
    Kept row ((start sha256_hex argon2 ttl db calls).stores sched k)
      ((start sha256_hex argon2 ttl db calls).stores sched n) := by
  have hsound : (start sha256_hex argon2 ttl db calls).Sound (fun _ => keepSpec row) fun _ _ => True :=
    ⟨fun _ => (), fun i => Call.meets (hspares i) _, trivial⟩
  refine ((start sha256_hex argon2 ttl db calls).along_true sched).stores (Kept row) (Kept.refl row)
    (fun hab hbc => hab.trans hbc) (fun p i hp _ => ⟨?_, ?_⟩) hsound hkn
  · have hcond : p.Respects (fun _ _ _ => True) i := fun _ _ => trivial
    exact hp.step (fun _ => Kept.refl row) (fun _ => Kept.trans) (fun _ _ _ _ _ _ h => h)
      (fun _ _ _ _ _ _ _ _ => trivial) hcond
  · obtain hsame | ⟨_, _, -, -, -, -, hguar⟩ := hp.turn (fun _ => Kept.refl row) i
    · rw [hsame]
      exact .refl row _
    · exact hguar

theorem create_session_ran {st : Nat → SessionDb} {n m : Nat} {user_id : Uuid} {token answer : String}
    (hran : Task.Ran st n (auth.create_session sha256_hex user_id ttl token) m (.done (.ok answer))) :
    ∃ k opened, n ≤ k ∧ k < opened ∧ opened < m ∧
      ⟨sha256_hex token, user_id, (st k).now + ttl⟩ ∈ (st (opened + 1)).sessions.rows ∧
      ∃ r ∈ (st (opened + 1)).user_db.users.rows, r.id = user_id := by
  cases hspan : chrono.from_std ttl with
  | error e =>
    rw [auth.create_session, hspan] at hran
    cases hran
  | ok span =>
    obtain rfl : (ttl : Int) = span := by
      unfold chrono.from_std at hspan
      split at hspan
      · exact Except.ok.inj hspan
      · cases hspan
    rw [auth.create_session, hspan] at hran
    obtain ⟨k, hnk, -, -, hran⟩ := Task.ran_read_bind.mp hran
    obtain ⟨opened, hko, hom, hwrite, hran⟩ := Task.ran_exec_bind.mp hran
    refine ⟨k, opened, hnk, by omega, hom, ?_⟩
    cases hinsert : session.insert ⟨sha256_hex token, user_id, (st k).now + ttl⟩ (st opened) with
    | error e =>
      rw [hinsert] at hran
      cases hran
    | ok sessions =>
      rw [hinsert] at hwrite
      simp only [session.insert, except.bind_eq_ok, require_eq_ok, db_err_eq_ok, Option.isSome_iff_exists] at hinsert
      obtain ⟨-, ⟨r, hfind⟩, hinsert⟩ := hinsert
      obtain ⟨hr, hid⟩ := Table.mem_of_find hfind
      rw [hwrite]
      exact ⟨(Table.mem_of_insert hinsert).mpr (.inr rfl), r, hr, of_decide_eq_true hid⟩

/-- A sign-in that has answered with its token opened a session for a user it
had shown to be its own, and who was there then. -/
theorem sign_in_ran {st : Nat → SessionDb} {n m : Nat} {call : Call} {token answer : String}
    (htoken : call.token = some token)
    (hran : Task.Ran st n (call.task sha256_hex argon2 ttl) m (.done (.signed_in (.ok (some answer))))) :
    ∃ row opened, opened < m ∧ row.token_hash = sha256_hex token ∧ row ∈ (st (opened + 1)).sessions.rows ∧
      (∃ k ≤ opened, call.Proves argon2 (st k).user_db row.user_id) ∧
      (∃ k, n ≤ k ∧ k ≤ opened ∧ row.expires_at = (st k).now + ttl) ∧
      ∃ r ∈ (st (opened + 1)).user_db.users.rows, r.id = row.user_id := by
  cases call with
  | post_login email password token' =>
    obtain rfl : token' = token := Option.some.inj htoken
    obtain ⟨i, signed, hran, hrest⟩ := hran.bind
    obtain ⟨him, heq⟩ := Task.ran_done.mp hrest
    obtain ⟨i', verified, hverified, hran⟩ := hran.bind
    have hni := hverified.le
    obtain e | _ | user := verified
    · obtain ⟨-, rfl⟩ := Task.ran_done.mp hran
      cases heq
    · obtain ⟨-, rfl⟩ := Task.ran_done.mp hran
      cases heq
    · obtain ⟨k, -, hki', hproves⟩ := verify_password_proves hverified
      obtain ⟨c, created, hcreated, hran⟩ := hran.bind
      obtain ⟨hci, rfl⟩ := Task.ran_done.mp hran
      cases created with
      | error e => cases heq
      | ok created =>
        obtain ⟨clock, opened, hclock, hco, hoc, hrow, huser⟩ := create_session_ran hcreated
        exact ⟨_, opened, by omega, rfl, hrow, ⟨k, by omega, hproves⟩, ⟨clock, by omega, by omega, rfl⟩, huser⟩
  | oidc_callback s token' =>
    obtain rfl : token' = token := Option.some.inj htoken
    obtain ⟨i, signed, hran, hrest⟩ := hran.bind
    obtain ⟨him, heq⟩ := Task.ran_done.mp hrest
    obtain ⟨i', found, hfound, hran⟩ := hran.bind
    have hni := hfound.le
    cases found with
    | error e =>
      obtain ⟨-, rfl⟩ := Task.ran_done.mp hran
      cases heq
    | ok found =>
      obtain ⟨k, -, hki', hlinked⟩ := user.sign_in_linked (hfound.of_relabel.of_zoom SessionDb.set_user_db_user_db)
      obtain ⟨c, created, hcreated, hran⟩ := hran.bind
      obtain ⟨hci, rfl⟩ := Task.ran_done.mp hran
      cases created with
      | error e => cases heq
      | ok created =>
        obtain ⟨clock, opened, hclock, hco, hoc, hrow, huser⟩ := create_session_ran hcreated
        exact ⟨_, opened, by omega, rfl, hrow, ⟨k, by omega, .identity hlinked⟩, ⟨clock, by omega, by omega, rfl⟩, huser⟩
  | request | get_logout | sweep | delete_user | users | tick => cases htoken

/-- A request whose session is there, unexpired, and of a user who is there, is
let in as that user. -/
theorem request_admitted {st : Nat → SessionDb} {n m : Nat} {cookie_header : Option String} {token : String}
    {row : sessions.Model} {reply : Reply} (htoken : auth.session_token cookie_header = some token)
    (hhash : row.token_hash = sha256_hex token)
    (hlive : ∀ k, n ≤ k → k < m → row ∈ (st k).sessions.rows ∧ (st k).now < row.expires_at ∧
      ∃ r ∈ (st k).user_db.users.rows, r.id = row.user_id)
    (hran : Task.Ran st n ((Call.request cookie_header).task sha256_hex argon2 ttl) m (.done reply)) :
    reply = .caller (.ok ⟨.Session, row.user_id⟩) := by
  obtain ⟨i, answer, hauth, hrest⟩ := hran.bind
  obtain ⟨him, rfl⟩ := Task.ran_done.mp hrest
  unfold identity.from_request_parts at hauth
  rw [htoken] at hauth
  obtain ⟨i', found, hresolve, hrest⟩ := hauth.bind
  obtain ⟨e, resolved, hlook, hfound⟩ := hresolve.bind
  obtain ⟨hei', rfl⟩ := Task.ran_done.mp hfound
  have hi'i : i' ≤ i := hrest.le
  obtain ⟨k, hnk, hke, -, hlook⟩ := Task.ran_read_bind.mp hlook
  have hfind : (st k).sessions.find (fun r => r.token_hash = sha256_hex token) = some row :=
    Table.find_of_mem (hlive k hnk (by omega)).1 (decide_eq_true hhash) fun a _ ha => by
      simp [sessions.indexes, Indexes.on, of_decide_eq_true ha, hhash]
  rw [hfind] at hlook
  obtain ⟨c, hkc, hce, -, hlook⟩ := Task.ran_read_bind.mp hlook
  rw [if_neg (Int.not_le.mpr (hlive c (by omega) (by omega)).2.1)] at hlook
  obtain ⟨u, hcu, hue, -, hlook⟩ := Task.ran_read_bind.mp hlook
  obtain ⟨r, hr, hid⟩ := (hlive u (by omega) (by omega)).2.2
  have hfindUser : (st u).user_db.users.find (fun r => r.id = row.user_id) = some r :=
    Table.find_of_mem hr (decide_eq_true hid) fun a _ ha => by
      simp [users.indexes, of_decide_eq_true ha, hid]
  rw [hfindUser] at hlook
  obtain ⟨-, rfl⟩ := Task.ran_done.mp hlook
  obtain ⟨-, rfl⟩ := Task.ran_done.mp hrest
  rw [← hid]

/-- A sign-in lasts: until its lifetime is over since it began, every request
with its token is let in as the user it was for, unless that token is logged
out or that user deleted. No sweep, no other sign-in and no other logout ends
it. -/
theorem session_lasts (hapart : Apart sha256_hex calls) {token answer : String} {i : ι} {a n : Nat}
    (htoken : (calls i).token = some token) (han : a ≤ n) (hn : n ≤ sched.length) (hbegan : i ∉ sched.take a)
    (hsigned : (((start sha256_hex argon2 ttl db calls).run (sched.take n)).task i).result? =
      some (.signed_in (.ok (some answer))))
    (hforward : ∀ k span, calls k = .tick span → 0 ≤ span)
    (hlogout : ∀ k cookie_header, calls k = .get_logout cookie_header →
      auth.session_token cookie_header ≠ some token)
    (htime : ((start sha256_hex argon2 ttl db calls).stores sched sched.length).now <
      ((start sha256_hex argon2 ttl db calls).stores sched a).now + ttl) :
    ∃ user_id, (∃ k < n, (calls i).Proves argon2
        ((start sha256_hex argon2 ttl db calls).stores sched k).user_db user_id) ∧
      ((∀ k, calls k ≠ .delete_user user_id) →
        ∀ j cookie_header reply, calls j = .request cookie_header → auth.session_token cookie_header = some token →
          j ∉ sched.take n → (((start sha256_hex argon2 ttl db calls).run sched).task j).result? = some reply →
            reply = .caller (.ok ⟨.Session, user_id⟩)) := by
  let st := (start sha256_hex argon2 ttl db calls).stores sched
  have hran := (start sha256_hex argon2 ttl db calls).ran_between sched i han hn
  rw [Task.result?_eq_some.mp hsigned, Pool.run_task_of_notMem _ hbegan, task_start] at hran
  obtain ⟨row, opened, hopened, hhash, hrow, ⟨k, hko, hproves⟩, ⟨c, hac, hco, hexpires⟩, huser⟩ :=
    sign_in_ran htoken hran
  refine ⟨row.user_id, ⟨k, by omega, hproves⟩, fun hstays j cookie_header reply hcall hcookie hlater hreply => ?_⟩
  have hspares : ∀ k, (calls k).Spares sha256_hex row := by
    intro k
    cases hcalls : calls k with
    | get_logout header =>
      intro token' htoken' hsame
      obtain rfl : token' = token :=
        hapart i k token token' htoken (by rw [hcalls]; exact htoken') (hsame.symm.trans hhash)
      exact hlogout k header hcalls htoken'
    | delete_user id =>
      rintro rfl
      exact hstays k hcalls
    | tick span => exact hforward k span hcalls
    | post_login | oidc_callback | request | sweep | users => trivial
  have hkept : ∀ {b e : Nat}, b ≤ e → Kept row (st b) (st e) := fun hbe => kept_run hspares hbe
  have hreqRan := (start sha256_hex argon2 ttl db calls).ran_since sched hn hlater
  rw [Task.result?_eq_some.mp hreply, task_start, hcall] at hreqRan
  refine request_admitted hcookie hhash (fun b hnb hb => ?_) hreqRan
  -- the clock is before the expiry all the way
  have hnow : (st b).now < row.expires_at := by
    have hlast := (hkept (Nat.le_of_lt hb)).now
    have hfirst := (hkept hac).now
    rw [hexpires]
    exact Int.lt_of_le_of_lt hlast (Int.lt_of_lt_of_le htime (Int.add_le_add_right hfirst _))
  have hsince := hkept (b := opened + 1) (e := b) (by omega)
  exact ⟨hsince.stands hrow (Int.le_of_lt hnow), hnow, hsince.user huser⟩

end

/-! One user, who signs in with a password. -/

def sampleUser : users.Model := user.newRow 1 "ada@example.com" (some "hash of pw") none 0

def sampleDb : SessionDb := ⟨⟨.single sampleUser, 0⟩, .empty, 100⟩

def sampleArgon2 (stored_hash password : String) : Except String Bool := .ok (stored_hash = "hash of " ++ password)

/-- A sign-in, a request, a logout and another request. -/
def sampleCalls : Fin 4 → Call
  | 0 => .post_login "ada@example.com" "pw" "t0k3n"
  | 1 => .request (some "a2m_session=t0k3n")
  | 2 => .get_logout (some "theme=dark; a2m_session=t0k3n")
  | 3 => .request (some "a2m_session=t0k3n")

theorem sample_presented : auth.session_token (some "a2m_session=t0k3n") = some "t0k3n" ∧
    auth.session_token (some "theme=dark; a2m_session=t0k3n") = some "t0k3n" := by
  decide

/-- The calls about to start, for sessions of a thousand microseconds. -/
def samplePool : Pool (Fin 4) SessionStmt SessionDb Reply := start id sampleArgon2 1000 sampleDb sampleCalls

theorem sample_apart : Apart id sampleCalls := fun _ _ _ _ _ _ h => h

theorem sample_token (i : Fin 4) (h : (sampleCalls i).token = some "t0k3n") : i = 0 := by
  revert i
  decide

theorem sample_request_admitted :
    ∃ i row opened, (sampleCalls i).token = some "t0k3n" ∧ row.user_id = 1 ∧
      Opened id sampleArgon2 1000 (samplePool.stores [0, 0, 0, 1, 1, 1]) (sampleCalls i) opened row := by
  obtain ⟨token, i, opened, looked, row, htoken, hdrawn, hcaller, hturn, hopened, -⟩ :=
    @admitted_was_signed_in id sampleArgon2 1000 (Fin 4) _ sampleDb sampleCalls [0, 0, 0, 1, 1, 1] sample_apart rfl
      1 (some "a2m_session=t0k3n") ⟨.Session, 1⟩ 3 rfl (by decide) (by decide) rfl
  obtain rfl : "t0k3n" = token := Option.some.inj (sample_presented.1.symm.trans htoken)
  exact ⟨i, row, opened, hdrawn, (congrArg Caller.id hcaller).symm, hopened⟩

theorem sample_logged_out : ((samplePool.run [0, 0, 0, 1, 1, 1, 2, 3]).task 3).result? =
    some (.caller (.error (401, "invalid or expired session"))) := by
  have hreply : ((samplePool.run [0, 0, 0, 1, 1, 1, 2, 3]).task 3).result? =
      some (.caller (.error (401, "invalid or expired session"))) := rfl
  exact hreply.trans (congrArg some (@logged_out_is_refused id sampleArgon2 1000 (Fin 4) _ sampleDb sampleCalls
    [0, 0, 0, 1, 1, 1, 2, 3] sample_apart rfl "t0k3n" 0 2 3 sample_token _ _ rfl sample_presented.2 rfl
    sample_presented.1 3 7 (by decide) (by decide) rfl (by decide) rfl (by decide) _ hreply))

/-- The same sign-in and request, and a sweep meanwhile. -/
def sampleStay : Fin 3 → Call
  | 0 => .post_login "ada@example.com" "pw" "t0k3n"
  | 1 => .request (some "a2m_session=t0k3n")
  | 2 => .sweep

theorem sample_stay (k : Fin 3) : sampleStay k = .post_login "ada@example.com" "pw" "t0k3n" ∨
    sampleStay k = .request (some "a2m_session=t0k3n") ∨ sampleStay k = .sweep := by
  obtain ⟨_ | _ | _ | k, hk⟩ := k
  · exact .inl rfl
  · exact .inr (.inl rfl)
  · exact .inr (.inr rfl)
  · omega

theorem sample_session_lasts :
    ∃ user_id, (∃ k < 3, (sampleStay 0).Proves sampleArgon2
        (((start id sampleArgon2 1000 sampleDb sampleStay).stores [0, 0, 0, 2, 1, 2, 1, 1] k).user_db) user_id) ∧
      (((start id sampleArgon2 1000 sampleDb sampleStay).run [0, 0, 0, 2, 1, 2, 1, 1]).task 1).result? =
        some (.caller (.ok ⟨.Session, user_id⟩)) := by
  obtain ⟨user_id, hproves, hadmitted⟩ :=
    @session_lasts id sampleArgon2 1000 (Fin 3) _ sampleDb sampleStay [0, 0, 0, 2, 1, 2, 1, 1]
      (fun _ _ _ _ _ _ h => h) "t0k3n" "t0k3n" 0 0 3 rfl (by decide) (by decide) (by decide) rfl
      (fun k span h => by obtain hk | hk | hk := sample_stay k <;> cases hk.symm.trans h)
      (fun k cookie_header h => by obtain hk | hk | hk := sample_stay k <;> cases hk.symm.trans h) (by decide)
  refine ⟨user_id, hproves, ?_⟩
  have hreply : (((start id sampleArgon2 1000 sampleDb sampleStay).run [0, 0, 0, 2, 1, 2, 1, 1]).task 1).result? =
      some (.caller (.ok ⟨.Session, 1⟩)) := rfl
  have hstays : ∀ k, sampleStay k ≠ .delete_user user_id := by
    intro k h
    obtain hk | hk | hk := sample_stay k <;> cases hk.symm.trans h
  exact hreply.trans (congrArg some (hadmitted hstays 1 _ _ rfl sample_presented.1 (by decide) hreply))

end api2mcp.server.session
