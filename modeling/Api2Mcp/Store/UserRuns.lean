import Api2Mcp.Store.User

namespace api2mcp.store.user

open relational concurrent
open api2mcp.entity

/-- A row is kept: its key stays, and so does its identity once it has one. -/
def Keeps (db db' : UserDb) : Prop :=
  ∀ r ∈ db.users.rows, ∃ r' ∈ db'.users.rows, r'.id = r.id ∧
    (r.oidc_issuer.isSome → r'.oidc_issuer = r.oidc_issuer ∧ r'.oidc_subject = r.oidc_subject)

/-- No row is given an identity, or loses one. -/
def BindsNone (db db' : UserDb) : Prop :=
  ∀ r ∈ db.users.rows, ∃ r' ∈ db'.users.rows, r'.id = r.id ∧ r'.oidc_issuer = r.oidc_issuer ∧
    r'.oidc_subject = r.oidc_subject

/-- A row is there with that identity. -/
def Linked (db : UserDb) (issuer subject : String) (id : Uuid) : Prop :=
  ∃ r ∈ db.users.rows, r.id = id ∧ r.oidc_issuer = some issuer ∧ r.oidc_subject = some subject

theorem Keeps.refl (db : UserDb) : Keeps db db := fun r hr => ⟨r, hr, rfl, fun _ => ⟨rfl, rfl⟩⟩

theorem Keeps.trans {a b c : UserDb} (hab : Keeps a b) (hbc : Keeps b c) : Keeps a c := by
  intro r hr
  obtain ⟨r', hr', hid', hsame'⟩ := hab r hr
  obtain ⟨r'', hr'', hid'', hsame''⟩ := hbc r' hr'
  refine ⟨r'', hr'', hid''.trans hid', fun hlinked => ?_⟩
  obtain ⟨hissuer', hsubject'⟩ := hsame' hlinked
  obtain ⟨hissuer'', hsubject''⟩ := hsame'' (hissuer' ▸ hlinked)
  exact ⟨hissuer''.trans hissuer', hsubject''.trans hsubject'⟩

theorem BindsNone.refl (db : UserDb) : BindsNone db db := fun r hr => ⟨r, hr, rfl, rfl, rfl⟩

theorem BindsNone.keeps {db db' : UserDb} (h : BindsNone db db') : Keeps db db' := by
  intro r hr
  obtain ⟨r', hr', hid, hissuer, hsubject⟩ := h r hr
  exact ⟨r', hr', hid, fun _ => ⟨hissuer, hsubject⟩⟩

theorem Linked.kept {db db' : UserDb} {issuer subject : String} {id : Uuid}
    (h : Linked db issuer subject id) (hkeeps : Keeps db db') : Linked db' issuer subject id := by
  obtain ⟨r, hr, hid, hissuer, hsubject⟩ := h
  obtain ⟨r', hr', hid', hsame⟩ := hkeeps r hr
  obtain ⟨hissuer', hsubject'⟩ := hsame (by rw [hissuer]; rfl)
  exact ⟨r', hr', hid'.trans hid, hissuer'.trans hissuer, hsubject'.trans hsubject⟩

/-! What each statement does to the rows. -/

/-- An update of columns other than the key and the identity binds no row. -/
theorem bindsNone_updateMany {p : users.Model → Bool} {set : users.Model → users.Model}
    (hset : ∀ r, (set r).id = r.id ∧ (set r).oidc_issuer = r.oidc_issuer ∧
      (set r).oidc_subject = r.oidc_subject) (db : UserDb) : BindsNone db (updateMany p set db).2 := by
  unfold updateMany
  split
  · exact .refl db
  · rename_i users hmodify
    intro r hr
    refine ⟨if p r then set r else r, ?_, ?_⟩
    · rw [Table.rows_of_modify hmodify]
      exact List.mem_map_of_mem hr
    · split
      · exact hset r
      · exact ⟨rfl, rfl, rfl⟩

theorem bindsNone_insertRow (row : DateTime → users.Model) (db : UserDb) :
    BindsNone db (insertRow row db).2 := by
  unfold insertRow
  split
  · exact .refl db
  · rename_i users hinsert
    intro r hr
    exact ⟨r, (Table.mem_of_insert hinsert).mpr (.inl hr), rfl, rfl, rfl⟩

/-- A claim changes an unlinked row only. -/
theorem keeps_claim (id : Uuid) (issuer subject email : String) (db : UserDb) :
    Keeps db (claim id issuer subject email db).2 := by
  unfold claim updateMany
  cases hmodify : db.users.modify (fun r => r.id = id ∧ r.oidc_issuer.isNone)
    (users.Model.link issuer subject email) with
  | none => exact .refl db
  | some users =>
    intro r hr
    refine ⟨_, by rw [Table.rows_of_modify hmodify]; exact List.mem_map_of_mem hr, ?_⟩
    split
    · rename_i hp
      obtain ⟨-, hnone⟩ := of_decide_eq_true hp
      refine ⟨rfl, fun hsome => ?_⟩
      rw [Option.isNone_iff_eq_none.mp hnone] at hsome
      cases hsome
    · exact ⟨rfl, fun _ => ⟨rfl, rfl⟩⟩

/-- The claim that is told it won found its row unlinked, and linked it. -/
theorem claim_won {id : Uuid} {issuer subject email : String} {db db' : UserDb}
    (h : claim id issuer subject email db = (.ok true, db')) :
    (∃ r ∈ db.users.rows, r.id = id ∧ r.oidc_issuer = none) ∧ Linked db' issuer subject id := by
  unfold claim updateMany at h
  cases hmodify : db.users.modify (fun r => r.id = id ∧ r.oidc_issuer.isNone)
    (users.Model.link issuer subject email) with
  | none =>
    rw [hmodify] at h
    cases h
  | some users =>
    rw [hmodify] at h
    obtain ⟨haffected, rfl⟩ := Prod.mk.inj h
    have hone : (db.users.select fun r => r.id = id ∧ r.oidc_issuer.isNone).length = 1 :=
      beq_iff_eq.mp (Except.ok.inj haffected)
    obtain ⟨r, hr⟩ := List.length_eq_one_iff.mp hone
    obtain ⟨hmem, hp⟩ := Table.mem_select.mp (hr ▸ List.mem_singleton_self r)
    obtain ⟨hid, hnone⟩ := of_decide_eq_true hp
    refine ⟨⟨r, hmem, hid, Option.isNone_iff_eq_none.mp hnone⟩, ?_⟩
    refine ⟨r.link issuer subject email, ?_, hid, rfl, rfl⟩
    rw [Table.rows_of_modify hmodify]
    exact List.mem_map.mpr ⟨r, hmem, if_pos hp⟩

theorem insertRow_ok {row : DateTime → users.Model} {db db' : UserDb}
    (h : insertRow row db = (.ok (), db')) :
    row db.now ∈ db'.users.rows ∧ ∀ r ∈ db.users.rows, r.id ≠ (row db.now).id := by
  unfold insertRow at h
  split at h
  · cases h
  · rename_i users hinsert
    obtain ⟨-, rfl⟩ := Prod.mk.inj h
    refine ⟨(Table.mem_of_insert hinsert).mpr (.inr rfl), fun r hr hid => ?_⟩
    have hclash := Table.not_clash_of_insert hinsert hr
    simp [entity.users.indexes, hid] at hclash

/-! What each call's statements are. -/

/-- A sign-in, with the key that a new row would get. -/
structure SignIn where
  issuer : String
  subject : String
  email : String
  email_verified : Bool
  id : Uuid

/-- A statement on behalf of a sign-in: if it is a claim, then for a verified
address and of the sign-in's own identity. -/
def Own (s : SignIn) (l : UserStmt) (write : UserDb → UserDb) : Prop :=
  (∀ db, Keeps db (write db)) ∧ (s.email_verified = false → ∀ db, BindsNone db (write db)) ∧
    ∀ id issuer subject email, l = .claim_unlinked id issuer subject email →
      s.email_verified = true ∧ issuer = s.issuer ∧ subject = s.subject ∧
        write = fun db => (claim id issuer subject email db).2

/-- A statement that binds no row, and is no claim. -/
def Plain (l : UserStmt) (write : UserDb → UserDb) : Prop :=
  (∀ db, BindsNone db (write db)) ∧ l.is_claim = false

theorem Plain.own {l : UserStmt} {write : UserDb → UserDb} (h : Plain l write) (s : SignIn) :
    Own s l write :=
  ⟨fun db => (h.1 db).keeps, fun _ => h.1, fun _ _ _ _ hl => by cases hl ▸ h.2⟩

theorem plain_read {l : UserStmt} (hl : l.is_claim = false) : Plain l id := ⟨BindsNone.refl, hl⟩

theorem get_back_plain (id : Uuid) (message : String) : (get_back id message).All Plain := by
  refine (Task.all_read (plain_read rfl) _).bind fun user => ?_
  split
  · exact .done _
  · exact .done _

theorem insert_plain (id : Uuid) (row : DateTime → users.Model) : (insert id row).All Plain :=
  Task.all_exec ⟨bindsNone_insertRow row, rfl⟩

theorem insert_back_plain (id : Uuid) (row : DateTime → users.Model) (message : String) :
    (do
      match ← insert id row with
      | .error e => return .error e
      | .ok () => get_back id message : UserTask (Except StoreError UserRecord)).All Plain := by
  refine (insert_plain id row).bind fun inserted => ?_
  split
  · exact .done _
  · exact get_back_plain id message

theorem refresh_plain (existing : UserRecord) (email : String) : (refresh existing email).All Plain := by
  refine Task.All.bind ?_ fun refreshed => ?_
  · split
    · exact Task.all_exec ⟨bindsNone_updateMany fun r => ⟨rfl, rfl, rfl⟩, rfl⟩
    · exact .done _
  · split
    · exact .done _
    · exact (get_back_plain _ _).bind fun _ => .done _

theorem refresh_linked_plain (issuer subject email : String) :
    (refresh_linked issuer subject email).All Plain := by
  refine (Task.all_read (plain_read rfl) _).bind fun existing => ?_
  cases existing with
  | none => exact .done _
  | some existing => exact refresh_plain existing email

theorem create_linked_plain (issuer subject email : String) (id : Uuid) :
    (create_linked issuer subject email id).All Plain := by
  refine (Task.all_read (plain_read rfl) _).bind fun taken => ?_
  cases taken with
  | some _ => exact .done _
  | none => exact insert_back_plain _ _ _

theorem create_plain (email : String) (hash : Except StoreError String) (id : Uuid) :
    (create email hash id).All Plain := by
  refine (Task.all_read (plain_read rfl) _).bind fun taken => ?_
  cases taken with
  | some _ => exact .done _
  | none =>
    cases hash with
    | error e => exact .done _
    | ok hash => exact insert_back_plain _ _ _

theorem create_pending_oidc_plain (email : String) (id : Uuid) : (create_pending_oidc email id).All Plain := by
  refine (Task.all_read (plain_read rfl) _).bind fun taken => ?_
  cases taken with
  | some _ => exact .done _
  | none => exact insert_back_plain _ _ _

theorem set_password_plain (email : String) (hash : Except StoreError String) :
    (set_password email hash).All Plain := by
  cases hash with
  | error e => exact .done _
  | ok hash =>
    refine Task.All.bind (Task.all_exec ⟨bindsNone_updateMany fun r => ⟨rfl, rfl, rfl⟩, rfl⟩) fun _ => ?_
    split
    · exact .done _
    · exact .done _

/-- The sign-in of a caller with an identity. -/
def SignIn.task (s : SignIn) : UserTask (Except StoreError UserRecord) :=
  find_or_create_by_oidc s.issuer s.subject s.email s.email_verified s.id

theorem claim_by_email_own {s : SignIn} (hverified : s.email_verified = true) (email : String) :
    (claim_by_email s.issuer s.subject email).All (Own s) := by
  refine (Task.all_read ((plain_read rfl).own s) _).bind fun candidate => ?_
  cases candidate with
  | none => exact .done _
  | some candidate =>
    have hclaim : Own s (.claim_unlinked candidate.id s.issuer s.subject email)
        fun db => (claim candidate.id s.issuer s.subject email db).2 := by
      refine ⟨keeps_claim _ _ _ _, fun h => ?_, ?_⟩
      · rw [hverified] at h
        cases h
      · rintro _ _ _ _ ⟨⟩
        exact ⟨hverified, rfl, rfl, rfl⟩
    refine (Task.all_exec hclaim).bind fun claimed => ?_
    · split
      · exact .done _
      · exact ((get_back_plain _ _).mono fun _ _ h => h.own s).bind fun _ => .done _
      · exact (refresh_linked_plain _ _ _).mono fun _ _ h => h.own s

theorem sign_in_own (s : SignIn) : s.task.All (Own s) := by
  refine ((refresh_linked_plain _ _ _).mono fun _ _ h => h.own s).bind fun found => ?_
  split
  · exact .done _
  · exact .done _
  · refine Task.All.bind ?_ fun claimed => ?_
    · split
      · rename_i hverified
        exact claim_by_email_own hverified _
      · exact .done _
    · split
      · exact .done _
      · exact .done _
      · exact (create_linked_plain _ _ _ _).mono fun _ _ h => h.own s

/-- The calls under way: sign-ins, what an operator does to the users, and the
passing of time. -/
inductive Call where
  | sign_in (s : SignIn)
  | create (email : String) (hash : Except StoreError String) (id : Uuid)
  | create_pending_oidc (email : String) (id : Uuid)
  | set_password (email : String) (hash : Except StoreError String)
  | tick (span : Int)

/-- The user a call answers with; the others answer with none. -/
abbrev Reply := Option (Except StoreError UserRecord)

def Call.task : Call → UserTask Reply
  | .sign_in s => do return some (← s.task)
  | .create email hash id => do return some (← user.create email hash id)
  | .create_pending_oidc email id => do return some (← user.create_pending_oidc email id)
  | .set_password email hash => do
    let _ ← user.set_password email hash
    return none
  | .tick span => do
    user.tick span
    return none

/-- What the statements of a call are. -/
def Call.statements : Call → UserStmt → (UserDb → UserDb) → Prop
  | .sign_in s => Own s
  | _ => Plain

theorem Call.all_statements (call : Call) : call.task.All call.statements := by
  cases call with
  | sign_in s => exact (sign_in_own s).bind fun _ => .done _
  | create email hash id => exact (create_plain email hash id).bind fun _ => .done _
  | create_pending_oidc email id => exact (create_pending_oidc_plain email id).bind fun _ => .done _
  | set_password email hash => exact (set_password_plain email hash).bind fun _ => .done _
  | tick span => exact (Task.all_exec ⟨BindsNone.refl, rfl⟩).bind fun _ => .done _

theorem Call.keeps_of_statements {call : Call} {l : UserStmt} {write : UserDb → UserDb}
    (h : call.statements l write) (db : UserDb) : Keeps db (write db) := by
  cases call with
  | sign_in s => exact h.1 db
  | create | create_pending_oidc | set_password | tick => exact (h.1 db).keeps

/-- Any number of calls, all of them about to start. -/
def start {ι : Type} (db : UserDb) (calls : ι → Call) : Pool ι UserStmt UserDb Reply where
  store := db
  task i := (calls i).task

/-- A turn's statement is a claim of the row, and it is told that it won. -/
def Claims {ι : Type} (p : Pool ι UserStmt UserDb Reply) (i : ι) (id : Uuid) : Prop :=
  ∃ issuer subject email, p.turn i = some (.claim_unlinked id issuer subject email) ∧
    (claim id issuer subject email p.store).1 = .ok true

section

variable {ι : Type} [DecidableEq ι] {db : UserDb} {calls : ι → Call}

variable (db calls) in
/-- A turn runs one of its call's statements, or does nothing. -/
theorem step_statement (sched : List ι) (i : ι) :
    let p := (start db calls).run sched
    (p.turn i = none ∧ p.step i = p) ∨
      ∃ l write, p.turn i = some l ∧ (calls i).statements l write ∧ (p.step i).store = write p.store := by
  intro p
  have hall : (p.task i).All (calls i).statements :=
    ((calls i).all_statements).ran ((start db calls).ran sched i)
  obtain hidle | ⟨l, ready, write, next, hturn, htask, hstep⟩ := p.turn_cases i
  · exact .inl hidle
  · rw [htask] at hall
    cases hall with
    | stmt hwrite _ => exact .inr ⟨l, write, hturn, hwrite, by rw [hstep]⟩

theorem keeps_step (sched : List ι) (i : ι) :
    Keeps ((start db calls).run sched).store (((start db calls).run sched).step i).store := by
  obtain ⟨-, hstep⟩ | ⟨l, write, -, hwrite, hstep⟩ := step_statement db calls sched i
  · rw [hstep]
    exact .refl _
  · rw [hstep]
    exact (calls i).keeps_of_statements hwrite _

variable (db calls) in
/-- Rows and identities are kept over any part of a run. -/
theorem keeps_run (before after : List ι) :
    Keeps ((start db calls).run before).store ((start db calls).run (before ++ after)).store := by
  induction after generalizing before with
  | nil =>
    rw [List.append_nil]
    exact .refl _
  | cons i after ih =>
    have hrest := ih (before ++ [i])
    rw [List.append_assoc, List.singleton_append, Pool.run_append _ before [i]] at hrest
    exact (keeps_step before i).trans hrest

/-- Only a sign-in with a verified address claims a row, and it links it to its
own identity. -/
theorem claims_own {sched : List ι} {i : ι} {id : Uuid} (h : Claims ((start db calls).run sched) i id) :
    ∃ s, calls i = .sign_in s ∧ s.email_verified = true ∧
      (∃ r ∈ ((start db calls).run sched).store.users.rows, r.id = id ∧ r.oidc_issuer = none) ∧
      Linked (((start db calls).run sched).step i).store s.issuer s.subject id := by
  obtain ⟨issuer, subject, email, hturn, hwon⟩ := h
  obtain ⟨hnone, -⟩ | ⟨l, write, hl, hwrite, hstep⟩ := step_statement db calls sched i
  · rw [hnone] at hturn
    cases hturn
  obtain rfl := Option.some.inj (hl.symm.trans hturn)
  cases hcall : calls i with
  | sign_in s =>
    rw [hcall] at hwrite
    obtain ⟨hverified, rfl, rfl, rfl⟩ := hwrite.2.2 id issuer subject email rfl
    obtain ⟨hunlinked, hlinked⟩ := claim_won (Prod.ext hwon rfl)
    exact ⟨s, rfl, hverified, hunlinked, hstep ▸ hlinked⟩
  | create | create_pending_oidc | set_password | tick =>
    rw [hcall] at hwrite
    cases hwrite.2

/-- A row is claimed at one turn of a run at most. -/
theorem claims_once {a b : List ι} {i j : ι} {id : Uuid} (hi : Claims ((start db calls).run a) i id)
    (hj : Claims ((start db calls).run (a ++ i :: b)) j id) : False := by
  obtain ⟨s, -, -, -, hlinked⟩ := claims_own hi
  obtain ⟨-, -, -, ⟨r, hr, hid, hnone⟩, -⟩ := claims_own hj
  have hkeeps : Keeps (((start db calls).run a).step i).store ((start db calls).run (a ++ i :: b)).store := by
    have h := keeps_run db calls (a ++ [i]) b
    rwa [List.append_assoc, List.singleton_append, Pool.run_append _ a [i]] at h
  obtain ⟨r', hr', hid', hissuer, -⟩ := hlinked.kept hkeeps
  obtain rfl := users.eq_of_id hr hr' (hid.trans hid'.symm)
  rw [hnone] at hissuer
  cases hissuer

/-- A statement of a sign-in with an unverified address binds no row. -/
theorem unverified_binds_none {sched : List ι} {i : ι} {s : SignIn} (hcall : calls i = .sign_in s)
    (hunverified : s.email_verified = false) :
    BindsNone ((start db calls).run sched).store (((start db calls).run sched).step i).store := by
  obtain ⟨-, hstep⟩ | ⟨l, write, -, hwrite, hstep⟩ := step_statement db calls sched i
  · rw [hstep]
    exact .refl _
  · rw [hcall] at hwrite
    rw [hstep]
    exact hwrite.2.1 hunverified _

end

/-! Whom a sign-in is told it is. -/

/-- The user is linked to that identity, and so is its row. -/
structure SignedIn (db : UserDb) (issuer subject : String) (user : UserRecord) : Prop where
  oidc_issuer : user.oidc_issuer = some issuer
  oidc_subject : user.oidc_subject = some subject
  linked : Linked db issuer subject user.id

theorem SignedIn.kept {db db' : UserDb} {issuer subject : String} {user : UserRecord}
    (h : SignedIn db issuer subject user) (hkeeps : Keeps db db') : SignedIn db' issuer subject user :=
  ⟨h.oidc_issuer, h.oidc_subject, h.linked.kept hkeeps⟩

section

variable {st : Nat → UserDb} (hkeeps : ∀ a b, a ≤ b → Keeps (st a) (st b))
  {n m : Nat} {issuer subject email : String} {id : Uuid} {user : UserRecord}
include hkeeps

theorem get_back_signed_in {message : String} (hlinked : Linked (st n) issuer subject id)
    (hran : Task.Ran st n (get_back id message) m (.done (.ok user))) :
    user.id = id ∧ SignedIn (st m) issuer subject user := by
  obtain ⟨k, hnk, hkm, -, hrest⟩ := Task.ran_read_bind.mp hran
  obtain ⟨r, hr, hid, hissuer, hsubject⟩ := hlinked.kept (hkeeps n k hnk)
  have hfind : (st k).users.find (fun r => r.id = id) = some r :=
    Table.find_of_mem hr (decide_eq_true hid) fun a _ ha => by
      simp [entity.users.indexes, of_decide_eq_true ha, hid]
  rw [hfind] at hrest
  obtain rfl : to_model r = user := by cases hrest; rfl
  have hlinked : Linked (st k) issuer subject r.id := ⟨r, hr, rfl, hissuer, hsubject⟩
  exact ⟨hid, hissuer, hsubject, hlinked.kept (hkeeps k m (Nat.le_of_lt hkm))⟩

/-- The row that was found is the one that is signed in as. -/
theorem refresh_signed_in {existing : UserRecord} (hlinked : Linked (st n) issuer subject existing.id)
    (hran : Task.Ran st n (refresh existing email) m (.done (.ok (some user)))) :
    user.id = existing.id ∧ SignedIn (st m) issuer subject user := by
  obtain ⟨k, refreshed, hrefresh, hrest⟩ := hran.bind
  cases refreshed with
  | error e => cases hrest
  | ok _ =>
    obtain ⟨k', found, hback, hrest⟩ := hrest.bind
    cases found with
    | error e => cases hrest
    | ok found =>
      cases hrest with
      | idle hle =>
        obtain ⟨hid, hsigned⟩ := get_back_signed_in hkeeps (hlinked.kept (hkeeps _ _ hrefresh.le)) hback
        exact ⟨hid, hsigned.kept (hkeeps _ _ hle)⟩

theorem refresh_linked_signed_in
    (hran : Task.Ran st n (refresh_linked issuer subject email) m (.done (.ok (some user)))) :
    SignedIn (st m) issuer subject user := by
  obtain ⟨k, -, -, -, hrest⟩ := Task.ran_read_bind.mp hran
  cases hfind : (st k).users.find fun r => r.oidc_issuer = some issuer ∧ r.oidc_subject = some subject with
  | none =>
    rw [hfind] at hrest
    cases hrest
  | some r =>
    rw [hfind] at hrest
    obtain ⟨hr, hp⟩ := Table.mem_of_find hfind
    have hlinked : Linked (st k) issuer subject r.id := ⟨r, hr, rfl, of_decide_eq_true hp⟩
    exact (refresh_signed_in hkeeps (hlinked.kept (hkeeps _ _ (Nat.le_succ k))) hrest).2

theorem claim_by_email_signed_in
    (hran : Task.Ran st n (claim_by_email issuer subject email) m (.done (.ok (some user)))) :
    SignedIn (st m) issuer subject user := by
  obtain ⟨k, -, -, -, hrest⟩ := Task.ran_read_bind.mp hran
  cases hfind : (st k).users.find fun r => r.email = email ∧ r.oidc_issuer.isNone with
  | none =>
    rw [hfind] at hrest
    cases hrest
  | some candidate =>
    rw [hfind] at hrest
    obtain ⟨k', -, -, hwrite, hrest⟩ := Task.ran_exec_bind.mp hrest
    split at hrest
    · cases hrest
    · rename_i hwon
      obtain ⟨k'', found, hback, hrest⟩ := hrest.bind
      cases found with
      | error e => cases hrest
      | ok found =>
        cases hrest with
        | idle hle =>
          have hlinked := (claim_won (Prod.ext hwon hwrite.symm)).2
          exact (get_back_signed_in hkeeps hlinked hback).2.kept (hkeeps _ _ hle)
    · exact refresh_linked_signed_in hkeeps hrest

/-- The row that was created is the one that is signed in as, and was not there
before. -/
theorem create_linked_signed_in
    (hran : Task.Ran st n (create_linked issuer subject email id) m (.done (.ok user))) :
    user.id = id ∧ (∀ r ∈ (st n).users.rows, r.id ≠ id) ∧ SignedIn (st m) issuer subject user := by
  obtain ⟨k, hnk, -, -, hrest⟩ := Task.ran_read_bind.mp hran
  cases hfind : (st k).users.find fun r => r.email = email with
  | some _ =>
    rw [hfind] at hrest
    cases hrest
  | none =>
    rw [hfind] at hrest
    obtain ⟨k', hkk', -, hwrite, hrest⟩ := Task.ran_exec_bind.mp hrest
    split at hrest
    · cases hrest
    · rename_i hinserted
      obtain ⟨hrow, hnew⟩ := insertRow_ok (Prod.ext hinserted hwrite.symm)
      have hlinked : Linked (st (k' + 1)) issuer subject id := ⟨_, hrow, rfl, rfl, rfl⟩
      obtain ⟨hid, hsigned⟩ := get_back_signed_in hkeeps hlinked hrest
      refine ⟨hid, fun r hr hrid => ?_, hsigned⟩
      obtain ⟨r', hr', hid', -⟩ := hkeeps n k' (by omega) r hr
      exact hnew r' hr' (hid'.trans hrid)

/-- A sign-in is told of a user linked to its own identity. -/
theorem sign_in_signed_in {s : SignIn} (hran : Task.Ran st n s.task m (.done (.ok user))) :
    SignedIn (st m) s.issuer s.subject user := by
  obtain ⟨k, found, hfound, hrest⟩ := hran.bind
  split at hrest
  · cases hrest
  · cases hrest with
    | idle hle => exact (refresh_linked_signed_in hkeeps hfound).kept (hkeeps _ _ hle)
  obtain ⟨k', claimed, hclaimed, hrest⟩ := hrest.bind
  split at hrest
  · cases hrest
  · cases hrest with
    | idle hle =>
      split at hclaimed
      · exact (claim_by_email_signed_in hkeeps hclaimed).kept (hkeeps _ _ hle)
      · cases hclaimed
  · exact (create_linked_signed_in hkeeps hrest).2.2

end

section

variable {ι : Type} [DecidableEq ι] {db : UserDb} {calls : ι → Call}

variable (db calls) in
theorem keeps_stores (sched : List ι) (a b : Nat) (hle : a ≤ b) :
    Keeps ((start db calls).stores sched a) ((start db calls).stores sched b) := by
  have hsplit : sched.take b = sched.take a ++ (sched.drop a).take (b - a) := by
    rw [← List.take_add, Nat.add_sub_cancel' hle]
  rw [Pool.stores, Pool.stores, hsplit]
  exact keeps_run db calls _ _

/-- The answer of a call that answers with a user is the user's. -/
theorem ran_reply {st : Nat → UserDb} {n m : Nat} {user : UserRecord} {t : UserTask (Except StoreError UserRecord)}
    (hran : Task.Ran st n (do return some (← t) : UserTask Reply) m (.done (some (.ok user)))) :
    ∃ k ≤ m, Task.Ran st n t k (.done (.ok user)) := by
  obtain ⟨k, answer, hanswer, hrest⟩ := hran.bind
  cases hrest with
  | idle hle => exact ⟨k, hle, hanswer⟩

omit [DecidableEq ι] in
theorem start_task {i : ι} {s : SignIn} (hcall : calls i = .sign_in s) :
    (start db calls).task i = (do return some (← s.task)) := by
  show (calls i).task = _
  rw [hcall]
  rfl

/-- A sign-in that returns a user returns one linked to its own identity. -/
theorem signed_in_of_result {sched : List ι} {i : ι} {s : SignIn} {user : UserRecord}
    (hcall : calls i = .sign_in s)
    (hresult : (((start db calls).run sched).task i).result? = some (some (.ok user))) :
    SignedIn ((start db calls).run sched).store s.issuer s.subject user := by
  have hran := (start db calls).ran sched i
  rw [Task.result?_eq_some.mp hresult, start_task hcall] at hran
  obtain ⟨k, hle, hran⟩ := ran_reply hran
  rw [← Pool.stores_run]
  exact (sign_in_signed_in (keeps_stores db calls sched) hran).kept (keeps_stores db calls sched k _ hle)

/-- A sign-in with an unverified address returns a row that was linked to its
own identity when it began, or one that was not there then. -/
theorem unverified_signed_in {before after : List ι} {i : ι} {s : SignIn} {user : UserRecord}
    (hcall : calls i = .sign_in s) (hunverified : s.email_verified = false) (hfirst : i ∉ before)
    (hresult : (((start db calls).run (before ++ i :: after)).task i).result? = some (some (.ok user))) :
    Linked ((start db calls).run before).store s.issuer s.subject user.id ∨
      ∀ r ∈ ((start db calls).run before).store.users.rows, r.id ≠ user.id := by
  let p := (start db calls).run before
  have hkeeps : ∀ a b, a ≤ b → Keeps ((p.step i).stores after a) ((p.step i).stores after b) := by
    intro a b hle
    have h := keeps_stores db calls (before ++ i :: after) (before.length + (a + 1))
      (before.length + (b + 1)) (by omega)
    rwa [Pool.stores_append, Pool.stores_append, Pool.stores_succ, Pool.stores_succ] at h
  have htask : p.task i = (do return some (← s.task)) := by
    rw [Pool.run_task_of_notMem _ hfirst, start_task hcall]
  have hran := (p.step i).ran after i
  have hresult : (((p.step i).run after).task i).result? = some (some (.ok user)) := by
    rwa [Pool.run_append] at hresult
  rw [Task.result?_eq_some.mp hresult, Pool.step_task_of_ready htask rfl] at hran
  have hstore : (p.step i).stores after 0 = p.store := by
    rw [Pool.stores_zero, Pool.step_of_ready htask rfl]
    rfl
  obtain ⟨k, -, hran⟩ := ran_reply hran
  obtain ⟨k', found, hfound, hrest⟩ := hran.bind
  split at hrest
  · cases hrest
  · -- a row was found, so it is linked
    cases hrest
    left
    cases hfind : p.store.users.find fun r => r.oidc_issuer = some s.issuer ∧ r.oidc_subject = some s.subject with
    | none =>
      dsimp only at hfound
      rw [hfind] at hfound
      cases hfound
    | some r =>
      dsimp only at hfound
      rw [hfind] at hfound
      obtain ⟨hr, hp⟩ := Table.mem_of_find hfind
      have hlinked : Linked p.store s.issuer s.subject r.id := ⟨r, hr, rfl, of_decide_eq_true hp⟩
      obtain ⟨hid, -⟩ := refresh_signed_in hkeeps (hstore ▸ hlinked) hfound
      exact hid ▸ hlinked
  · -- none may be claimed, so one was created
    right
    intro r hr hrid
    obtain ⟨k'', claimed, hclaimed, hrest⟩ := hrest.bind
    rw [if_neg (by rw [hunverified]; nofun)] at hclaimed
    obtain rfl : claimed = .ok none := by cases hclaimed; rfl
    obtain ⟨hid, hnew, -⟩ := create_linked_signed_in hkeeps hrest
    have hr : r ∈ ((p.step i).stores after 0).users.rows := hstore ▸ hr
    obtain ⟨r', hr', hid', -⟩ := hkeeps 0 k'' (Nat.zero_le _) r hr
    exact hnew r' hr' (hid'.trans (hrid.trans hid))

/-- What sign-ins keep to in a run: a row's identity never changes once it is
set; a row is claimed once at most; a statement of a sign-in with an unverified
address binds no row, and such a sign-in returns no row that was there when it
began but one that had its own identity; and none returns a user with an
identity other than its own. -/
structure BindsSoundly (db : UserDb) (calls : ι → Call) (sched : List ι) : Prop where
  kept : ∀ before after, sched = before ++ after →
    Keeps ((start db calls).run before).store ((start db calls).run sched).store
  claimed_once : ∀ a i b j c id, sched = a ++ i :: b ++ j :: c → Claims ((start db calls).run a) i id →
    ¬ Claims ((start db calls).run (a ++ i :: b)) j id
  claimed_own : ∀ before i after id, sched = before ++ i :: after → Claims ((start db calls).run before) i id →
    ∃ s, calls i = .sign_in s ∧ s.email_verified = true ∧
      (∃ r ∈ ((start db calls).run before).store.users.rows, r.id = id ∧ r.oidc_issuer = none) ∧
      Linked ((start db calls).run (before ++ [i])).store s.issuer s.subject id
  unverified_binds_none : ∀ before i after s, sched = before ++ i :: after → calls i = .sign_in s →
    s.email_verified = false →
      BindsNone ((start db calls).run before).store ((start db calls).run (before ++ [i])).store
  unverified_signed_in : ∀ before i after s user, sched = before ++ i :: after → i ∉ before →
    calls i = .sign_in s → s.email_verified = false →
      (((start db calls).run sched).task i).result? = some (some (.ok user)) →
        Linked ((start db calls).run before).store s.issuer s.subject user.id ∨
          ∀ r ∈ ((start db calls).run before).store.users.rows, r.id ≠ user.id
  signed_in : ∀ i s user, calls i = .sign_in s →
    (((start db calls).run sched).task i).result? = some (some (.ok user)) →
      SignedIn ((start db calls).run sched).store s.issuer s.subject user

/-- In every run, whatever the order of the statements. -/
theorem sign_ins_bind_soundly (db : UserDb) (calls : ι → Call) (sched : List ι) : BindsSoundly db calls sched where
  kept := by
    rintro before after rfl
    exact keeps_run _ _ before after
  claimed_once := by
    rintro a i b j c id - hi hj
    exact claims_once hi hj
  claimed_own := by
    rintro before i after id - hclaims
    rw [Pool.run_append]
    exact claims_own hclaims
  unverified_binds_none := by
    rintro before i after s - hcall hunverified
    rw [Pool.run_append]
    exact user.unverified_binds_none hcall hunverified
  unverified_signed_in := by
    rintro before i after s found rfl hfirst hcall hunverified hresult
    exact user.unverified_signed_in hcall hunverified hfirst hresult
  signed_in i s user hcall hresult := signed_in_of_result hcall hresult

end

def linked_user : users.Model where
  id := 1
  email := "old@example.com"
  password_hash := none
  oidc_issuer := some "https://issuer"
  oidc_subject := some "sub"
  created_at := 0
  ck_users_oidc_pair := rfl

def linked_db : UserDb where
  users := ⟨[linked_user], List.pairwise_singleton _ _⟩
  now := 0

def unverified_sign_in : SignIn where
  issuer := "https://issuer"
  subject := "sub"
  email := "new@example.com"
  email_verified := false
  id := 2

/-- A sign-in with an unverified address returns a row that was there, and
leaves that address in it: the row has the identity of the sign-in. -/
theorem unverified_email_refreshed :
    ∃ user, linked_user ∈ linked_db.users.rows ∧ user.id = linked_user.id ∧
      user.email = unverified_sign_in.email ∧ unverified_sign_in.email_verified = false ∧
      (((start linked_db fun _ : Unit => .sign_in unverified_sign_in).run [(), (), ()]).task ()).result? =
        some (some (.ok user)) :=
  ⟨{ to_model linked_user with email := "new@example.com" }, List.mem_singleton_self _, rfl, rfl, rfl, rfl⟩

end api2mcp.store.user
