import Api2Mcp.Store.UserOutcomes

namespace api2mcp.store.user

open relational concurrent
open api2mcp.entity

/-- A sign-in with a verified address is let in on its linked row, when nobody
else holds the address, on the unlinked row of the address, or on a new one. -/
inductive SignIn.Admitted (a : SignIn) (db : UserDb) : Uuid → Prop
  | linked (r : users.Model) : r ∈ db.users.rows → a.Owns r →
      (∀ holder ∈ db.users.rows, holder.email = a.email → holder.id = r.id) → Admitted a db r.id
  | unlinked (r : users.Model) : (∀ r ∈ db.users.rows, ¬ a.Owns r) → r ∈ db.users.rows →
      r.oidc_issuer = none → r.email = a.email → Admitted a db r.id
  | new : (∀ r ∈ db.users.rows, ¬ a.Owns r) → (∀ r ∈ db.users.rows, r.email ≠ a.email) →
      (∀ r ∈ db.users.rows, r.id ≠ a.id) → Admitted a db a.id

/-- It is turned away when another identity holds the address, or when the key
of the row that it needs is taken. -/
inductive SignIn.Refused (a : SignIn) (db : UserDb) : Prop
  | held (holder : users.Model) : holder ∈ db.users.rows → holder.email = a.email → ¬ a.Owns holder →
      (holder.oidc_issuer ≠ none ∨ ∃ r ∈ db.users.rows, a.Owns r) → Refused a db
  | key_taken (holder : users.Model) : (∀ r ∈ db.users.rows, ¬ a.Owns r) →
      (∀ r ∈ db.users.rows, r.email ≠ a.email) → holder ∈ db.users.rows → holder.id = a.id → Refused a db

section Answer

variable {db db' : UserDb} {a : SignIn}

theorem eq_of_owns {r r' : users.Model} (hr : r ∈ db.users.rows) (hr' : r' ∈ db.users.rows)
    (howns : a.Owns r) (howns' : a.Owns r') : r = r' :=
  Option.some.inj ((find_owned hr howns).symm.trans (find_owned hr' howns'))

theorem eq_of_email {r r' : users.Model} (hr : r ∈ db.users.rows) (hr' : r' ∈ db.users.rows)
    (hemail : r.email = r'.email) : r = r' :=
  Table.eq_of_clash hr hr' (by simp [users.indexes, hemail])

/-- A refresh that is not refused leaves nobody else with the address. -/
theorem holder_of_refreshed {r holder : users.Model} {t : Table users.indexes} (hr : r ∈ db.users.rows)
    (hmodify : db.users.modify (fun b => b.id = r.id) (users.Model.set_email a.email) = some t)
    (hholder : holder ∈ db.users.rows) (hemail : holder.email = a.email) : holder.id = r.id := by
  by_contra hid
  have hrows := Table.rows_of_modify hmodify
  have hset : r.set_email a.email ∈ t.rows := by
    rw [hrows]
    exact List.mem_map.mpr ⟨r, hr, if_pos (decide_eq_true rfl)⟩
  have hkept : holder ∈ t.rows := by
    rw [hrows]
    exact List.mem_map.mpr ⟨holder, hholder, if_neg (by simpa using hid)⟩
  have hsame : holder = r.set_email a.email :=
    Table.eq_of_clash hkept hset (by simp [users.indexes, hemail, users.Model.set_email])
  exact hid (by rw [hsame, users.Model.set_email_id])

theorem admitted_of_ok {u : UserRecord} (h : a.Outcome db (.ok u) db') : a.Admitted db u.id := by
  cases h with
  | known r hr howns hemail =>
    exact .linked r hr howns fun holder hholder heq => by rw [eq_of_email hholder hr (heq.trans hemail.symm)]
  | refreshed r t hr howns hmodify =>
    exact .linked r hr howns fun holder hholder heq => holder_of_refreshed hr hmodify hholder heq
  | claimed r t hnone hverified hr hunlinked hemail hmodify => exact .unlinked r hnone hr hunlinked hemail
  | created t hnone hfree hinsert =>
    refine .new hnone hfree fun r hr hid => ?_
    have hclash := Table.not_clash_of_insert hinsert hr
    simp [users.indexes, newRow, hid] at hclash

theorem refused_of_error {e : StoreError} (hverified : a.email_verified = true)
    (h : a.Outcome db (.error e) db') : a.Refused db := by
  cases h with
  | refresh_refused r holder hr howns hholder hemail hother =>
    exact .held holder hholder hemail hother (.inr ⟨r, hr, howns⟩)
  | conflict holder e hnone hholder hemail hlinked =>
    exact .held holder hholder hemail (hnone holder hholder) (.inl (hlinked hverified))
  | key_taken holder hnone hfree hholder hid => exact .key_taken holder hnone hfree hholder hid

theorem not_refused {id : Uuid} (hadmitted : a.Admitted db id) : ¬ a.Refused db := by
  intro hrefused
  cases hadmitted with
  | linked r hr howns hall =>
    cases hrefused with
    | held holder hholder hemail hother _ =>
      exact hother (users.eq_of_id hholder hr (hall holder hholder hemail) ▸ howns)
    | key_taken holder hnone _ _ _ => exact hnone r hr howns
  | unlinked r hnone hr hunlinked hemail =>
    cases hrefused with
    | held holder hholder hheld _ hlinked =>
      obtain rfl := eq_of_email hholder hr (hheld.trans hemail.symm)
      obtain hlinked | ⟨r', hr', howns⟩ := hlinked
      · exact hlinked hunlinked
      · exact hnone r' hr' howns
    | key_taken holder _ hfree _ _ => exact hfree r hr hemail
  | new hnone hfree hkey =>
    cases hrefused with
    | held holder hholder hheld _ _ => exact hfree holder hholder hheld
    | key_taken holder _ _ hholder hid => exact hkey holder hholder hid

theorem admitted_unique {id id' : Uuid} (h : a.Admitted db id) (h' : a.Admitted db id') : id = id' := by
  cases h with
  | linked r hr howns hall =>
    cases h' with
    | linked r' hr' howns' _ => rw [eq_of_owns hr hr' howns howns']
    | unlinked r' hnone _ _ _ => exact absurd howns (hnone r hr)
    | new hnone _ _ => exact absurd howns (hnone r hr)
  | unlinked r hnone hr hunlinked hemail =>
    cases h' with
    | linked r' hr' howns' _ => exact absurd howns' (hnone r' hr')
    | unlinked r' _ hr' _ hemail' => rw [eq_of_email hr hr' (hemail.trans hemail'.symm)]
    | new _ hfree _ => exact absurd hemail (hfree r hr)
  | new hnone hfree hkey =>
    cases h' with
    | linked r' hr' howns' _ => exact absurd howns' (hnone r' hr')
    | unlinked r' _ hr' _ hemail' => exact absurd hemail' (hfree r' hr')
    | new => rfl

/-- A sign-in that would be let in is. -/
theorem ok_of_admitted (hverified : a.email_verified = true) {id : Uuid} (h : a.Admitted db id) :
    ∃ u, (a.task.alone db).1 = .ok u ∧ u.id = id := by
  have houtcome := a.outcome_alone db
  cases hanswer : (a.task.alone db).1 with
  | error e => exact absurd (refused_of_error hverified (hanswer ▸ houtcome)) (not_refused h)
  | ok u => exact ⟨u, rfl, admitted_unique (admitted_of_ok (hanswer ▸ houtcome)) h⟩

theorem admitted_of_answer {u : UserRecord} (h : (a.task.alone db).1 = .ok u) : a.Admitted db u.id :=
  admitted_of_ok (h ▸ a.outcome_alone db)

theorem refused_of_answer (hverified : a.email_verified = true) {e : StoreError}
    (h : (a.task.alone db).1 = .error e) : a.Refused db :=
  refused_of_error hverified (h ▸ a.outcome_alone db)

end Answer

/-! What sign-ins with one unverified address leave. -/

/-- The rows that change are rows of those identities, which get the address. -/
structure Confined (S : SignIn → Prop) (email : String) (db db' : UserDb) : Prop where
  kept : ∀ r ∈ db.users.rows, (∀ s, S s → ¬ s.Owns r) ∨ r.email = email → r ∈ db'.users.rows
  key_kept : ∀ r ∈ db.users.rows, ∃ r' ∈ db'.users.rows, r'.id = r.id
  written : ∀ r ∈ db'.users.rows, r ∈ db.users.rows ∨ (∃ s, S s ∧ s.Owns r) ∧ r.email = email

section Confined

variable {S : SignIn → Prop} {email : String}

theorem Confined.refl (db : UserDb) : Confined S email db db where
  kept _ hr _ := hr
  key_kept r hr := ⟨r, hr, rfl⟩
  written _ hr := .inl hr

theorem Confined.trans {a b c : UserDb} (hab : Confined S email a b) (hbc : Confined S email b c) :
    Confined S email a c where
  kept r hr h := hbc.kept r (hab.kept r hr h) h
  key_kept r hr := by
    obtain ⟨r', hr', hid'⟩ := hab.key_kept r hr
    obtain ⟨r'', hr'', hid''⟩ := hbc.key_kept r' hr'
    exact ⟨r'', hr'', hid''.trans hid'⟩
  written r hr := by
    obtain hr | hnew := hbc.written r hr
    · exact hab.written r hr
    · exact .inr hnew

theorem confined_sign_in {s : SignIn} (hs : S s) (hemail : s.email = email)
    (hunverified : s.email_verified = false) (db : UserDb) : Confined S email db (s.task.alone db).2 := by
  have houtcome := s.outcome_alone db
  revert houtcome
  generalize (s.task.alone db).1 = answer
  generalize (s.task.alone db).2 = db'
  intro houtcome
  cases houtcome with
  | known | refresh_refused | conflict | key_taken => exact .refl db
  | claimed r t hnone hverified => simp [hunverified] at hverified
  | refreshed r t hr howns hmodify =>
    have hrows := Table.rows_of_modify hmodify
    constructor
    · intro b hb h
      show b ∈ t.rows
      rw [hrows]
      refine List.mem_map.mpr ⟨b, hb, ?_⟩
      split
      · rename_i hid
        obtain rfl := users.eq_of_id hb hr (of_decide_eq_true hid)
        obtain hother | hsame := h
        · exact absurd howns (hother s hs)
        · rw [hemail, ← hsame]
          rfl
      · rfl
    · intro b hb
      refine ⟨_, (hrows ▸ List.mem_map_of_mem hb : _ ∈ t.rows), ?_⟩
      split
      · rfl
      · rfl
    · intro b hb
      obtain ⟨b, hmem, rfl⟩ := List.mem_map.mp (hrows ▸ hb : b ∈ List.map _ db.users.rows)
      split
      · rename_i hid
        obtain rfl := users.eq_of_id hmem hr (of_decide_eq_true hid)
        exact .inr ⟨⟨s, hs, howns⟩, hemail⟩
      · exact .inl hmem
  | created t hnone hfree hinsert =>
    constructor
    · exact fun b hb _ => (Table.mem_of_insert hinsert).mpr (.inl hb)
    · exact fun b hb => ⟨b, (Table.mem_of_insert hinsert).mpr (.inl hb), rfl⟩
    · intro b hb
      obtain hold | rfl := (Table.mem_of_insert hinsert).mp hb
      · exact .inl hold
      · exact .inr ⟨⟨s, hs, rfl, rfl⟩, hemail⟩

/-- The store that calls leave one after the other. -/
def after (db : UserDb) (calls : List Call) : UserDb := calls.foldl (fun db call => (call.task.alone db).2) db

theorem sign_in_alone (s : SignIn) (db : UserDb) : ((Call.sign_in s).task.alone db).2 = (s.task.alone db).2 := by
  simp only [Call.task, Task.alone_bind]
  rfl

theorem confined_after {others : List SignIn} (h : ∀ s ∈ others, S s ∧ s.email = email ∧ s.email_verified = false)
    (db : UserDb) : Confined S email db (after db (others.map .sign_in)) := by
  induction others generalizing db with
  | nil => exact .refl db
  | cons s others ih =>
    obtain ⟨hs, hemail, hunverified⟩ := h s (List.mem_cons_self ..)
    have hfirst := confined_sign_in hs hemail hunverified db
    rw [← sign_in_alone] at hfirst
    exact hfirst.trans (ih (fun s hs => h s (List.mem_cons_of_mem _ hs)) _)

/-- An address that is stored already changes nothing when it comes unverified. -/
theorem unverified_idle {s : SignIn} (hunverified : s.email_verified = false) {db : UserDb}
    (hstored : ∃ r ∈ db.users.rows, r.email = s.email) : (s.task.alone db).2 = db := by
  have houtcome := s.outcome_alone db
  revert houtcome
  generalize (s.task.alone db).1 = answer
  generalize (s.task.alone db).2 = db'
  intro houtcome
  obtain ⟨holder, hholder, hemail⟩ := hstored
  cases houtcome with
  | known | refresh_refused | conflict | key_taken => rfl
  | claimed r t hnone hverified => simp [hunverified] at hverified
  | refreshed r t hr howns hmodify =>
    obtain rfl := users.eq_of_id hholder hr (holder_of_refreshed hr hmodify hholder hemail)
    refine congrArg (fun t => { db with users := t }) (Table.ext_rows ?_)
    rw [Table.rows_of_modify hmodify]
    refine (List.map_congr_left fun b hb => ?_).trans (List.map_id _)
    split
    · rename_i hid
      obtain rfl := users.eq_of_id hb hr (of_decide_eq_true hid)
      rw [← hemail]
      rfl
    · rfl
  | created t hnone hfree hinsert => exact absurd hemail (hfree holder hholder)

end Confined

/-! What the unverified addresses of others do to a sign-in. -/

/-- Another identity asserts the address of the sign-in, unverified. -/
def SignIn.Asserts (a s : SignIn) : Prop :=
  ¬ (s.issuer = a.issuer ∧ s.subject = a.subject) ∧ s.email = a.email ∧ s.email_verified = false

instance (a s : SignIn) : Decidable (a.Asserts s) := inferInstanceAs (Decidable (_ ∧ _ ∧ _))

def SignIn.asserts (a : SignIn) : Call → Bool
  | .sign_in s => decide (a.Asserts s)
  | _ => false

/-- Each of them finds the address stored. -/
def SignIn.FindsStored (a : SignIn) (db : UserDb) (calls : List Call) : Prop :=
  ∀ before call later, calls = before ++ call :: later → a.asserts call →
    ∃ r ∈ (after db before).users.rows, r.email = a.email

section Influence

variable {a : SignIn} {others : List SignIn}

theorem after_cons (db : UserDb) (call : Call) (calls : List Call) :
    after db (call :: calls) = after (call.task.alone db).2 calls := rfl

theorem asserts_idle {call : Call} (hasserts : a.asserts call = true) {db : UserDb}
    (hstored : ∃ r ∈ db.users.rows, r.email = a.email) : (call.task.alone db).2 = db := by
  cases call with
  | sign_in s =>
    obtain ⟨-, hemail, hunverified⟩ := of_decide_eq_true hasserts
    rw [sign_in_alone]
    exact unverified_idle hunverified (hemail ▸ hstored)
  | create | create_pending_oidc | set_password | tick => cases hasserts

theorem after_filter {calls : List Call} {db : UserDb} (h : a.FindsStored db calls) :
    after db (calls.filter fun call => !a.asserts call) = after db calls := by
  induction calls generalizing db with
  | nil => rfl
  | cons call calls ih =>
    have hrest : a.FindsStored (call.task.alone db).2 calls := by
      rintro before call' later rfl hasserts
      exact h (call :: before) call' later rfl hasserts
    rw [after_cons, ← ih hrest]
    cases hasserts : a.asserts call with
    | true =>
      have hidle : (call.task.alone db).2 = db := asserts_idle hasserts (h [] call calls rfl hasserts)
      rw [hidle, List.filter_cons_of_neg (by simp [hasserts])]
    | false =>
      rw [List.filter_cons_of_pos (by simp [hasserts]), after_cons]

/-- The rows of others are not those of the sign-in, and are linked. -/
theorem foreign (h : ∀ s ∈ others, a.Asserts s) {s : SignIn} (hs : s ∈ others) {r : users.Model}
    (howns : s.Owns r) : ¬ a.Owns r ∧ r.oidc_issuer ≠ none := by
  constructor
  · intro hown
    refine (h s hs).1 ⟨?_, ?_⟩
    · exact Option.some.inj (howns.1.symm.trans hown.1)
    · exact Option.some.inj (howns.2.symm.trans hown.2)
  · rw [howns.1]
    nofun

variable {db db' : UserDb}

theorem Confined.owned_iff (hconfined : Confined (· ∈ others) a.email db db') (h : ∀ s ∈ others, a.Asserts s)
    {r : users.Model} (howns : a.Owns r) : r ∈ db'.users.rows ↔ r ∈ db.users.rows := by
  constructor
  · intro hr
    obtain hold | ⟨⟨s, hs, hother⟩, -⟩ := hconfined.written r hr
    · exact hold
    · exact absurd howns (foreign h hs hother).1
  · exact fun hr => hconfined.kept r hr (.inl fun s hs hother => (foreign h hs hother).1 howns)

theorem Confined.unlinked_iff (hconfined : Confined (· ∈ others) a.email db db') (h : ∀ s ∈ others, a.Asserts s)
    {r : users.Model} (hunlinked : r.oidc_issuer = none) : r ∈ db'.users.rows ↔ r ∈ db.users.rows := by
  constructor
  · intro hr
    obtain hold | ⟨⟨s, hs, hother⟩, -⟩ := hconfined.written r hr
    · exact hold
    · exact absurd hunlinked (foreign h hs hother).2
  · exact fun hr => hconfined.kept r hr (.inl fun s hs hother => (foreign h hs hother).2 hunlinked)

theorem Confined.none_owned (hconfined : Confined (· ∈ others) a.email db db') (h : ∀ s ∈ others, a.Asserts s) :
    (∀ r ∈ db'.users.rows, ¬ a.Owns r) ↔ ∀ r ∈ db.users.rows, ¬ a.Owns r :=
  ⟨fun hnone r hr howns => hnone r ((hconfined.owned_iff h howns).mpr hr) howns,
    fun hnone r hr howns => hnone r ((hconfined.owned_iff h howns).mp hr) howns⟩

/-- Who is let in after them is let in without them, as the same user. -/
theorem Confined.admitted (hconfined : Confined (· ∈ others) a.email db db') (h : ∀ s ∈ others, a.Asserts s)
    {id : Uuid} (hadmitted : a.Admitted db' id) : a.Admitted db id := by
  cases hadmitted with
  | linked r hr howns hall =>
    exact .linked r ((hconfined.owned_iff h howns).mp hr) howns fun holder hholder hemail =>
      hall holder (hconfined.kept holder hholder (.inr hemail)) hemail
  | unlinked r hnone hr hunlinked hemail =>
    exact .unlinked r ((hconfined.none_owned h).mp hnone) ((hconfined.unlinked_iff h hunlinked).mp hr) hunlinked
      hemail
  | new hnone hfree hkey =>
    refine .new ((hconfined.none_owned h).mp hnone) (fun r hr hemail => ?_) fun r hr hid => ?_
    · exact hfree r (hconfined.kept r hr (.inr hemail)) hemail
    · obtain ⟨r', hr', hid'⟩ := hconfined.key_kept r hr
      exact hkey r' hr' (hid'.trans hid)

/-- Who is turned away after them and not without them meets a row of theirs. -/
theorem Confined.refused (hconfined : Confined (· ∈ others) a.email db db') (h : ∀ s ∈ others, a.Asserts s)
    {id : Uuid} (hadmitted : a.Admitted db id) (hrefused : a.Refused db') :
    ∃ r ∈ db'.users.rows, (∃ s ∈ others, s.Owns r) ∧ (r.email = a.email ∨ r.id = a.id) := by
  cases hrefused with
  | held holder hholder hemail hother hwhy =>
    obtain hold | ⟨howned, -⟩ := hconfined.written holder hholder
    · refine absurd (.held holder hold hemail hother ?_) (not_refused hadmitted)
      obtain hlinked | ⟨r, hr, howns⟩ := hwhy
      · exact .inl hlinked
      · exact .inr ⟨r, (hconfined.owned_iff h howns).mp hr, howns⟩
    · exact ⟨holder, hholder, howned, .inl hemail⟩
  | key_taken holder hnone hfree hholder hid =>
    obtain hold | ⟨howned, -⟩ := hconfined.written holder hholder
    · refine absurd (.key_taken holder ((hconfined.none_owned h).mp hnone) (fun r hr hemail => ?_) hold hid)
        (not_refused hadmitted)
      exact hfree r (hconfined.kept r hr (.inr hemail)) hemail
    · exact ⟨holder, hholder, howned, .inr hid⟩

end Influence

/-- Others that assert the address of a sign-in unverified leave no trace where
it is stored already. Otherwise they store it in rows of their own only: the
sign-in is let in as the user it is without them, or it is turned away where
it is let in without them, for a row of theirs that holds its address (or the
key it drew). -/
theorem unverified_emails_confined (db : UserDb) (a : SignIn) (hverified : a.email_verified = true) :
    (∀ calls, a.FindsStored db calls → after db (calls.filter fun call => !a.asserts call) = after db calls) ∧
      ∀ others : List SignIn, (∀ s ∈ others, a.Asserts s) →
        let db' := after db (others.map .sign_in)
        Confined (· ∈ others) a.email db db' ∧
          (∀ v, (a.task.alone db').1 = .ok v → ∃ u, (a.task.alone db).1 = .ok u ∧ u.id = v.id) ∧
          ∀ u e, (a.task.alone db).1 = .ok u → (a.task.alone db').1 = .error e →
            ∃ r ∈ db'.users.rows, (∃ s ∈ others, s.Owns r) ∧ (r.email = a.email ∨ r.id = a.id) := by
  refine ⟨fun calls h => after_filter h, fun others h => ?_⟩
  intro db'
  have hconfined : Confined (· ∈ others) a.email db db' :=
    confined_after (fun s hs => ⟨hs, (h s hs).2.1, (h s hs).2.2⟩) db
  refine ⟨hconfined, fun v hv => ?_, fun u e hu he => ?_⟩
  · exact ok_of_admitted hverified (hconfined.admitted h (admitted_of_answer hv))
  · exact hconfined.refused h (admitted_of_answer hu) (refused_of_answer hverified he)

def noUsers : UserDb := ⟨.empty, 0⟩

def verifiedSignIn : SignIn := ⟨"https://id.example", "a", "a@example.com", true, 1⟩

def unverifiedSignIn : SignIn := ⟨"https://id.example", "b", "a@example.com", false, 2⟩

theorem unverified_email_confined_once :
    Confined (· ∈ [unverifiedSignIn]) verifiedSignIn.email noUsers
      (after noUsers ([unverifiedSignIn].map .sign_in)) :=
  ((unverified_emails_confined noUsers verifiedSignIn rfl).2 [unverifiedSignIn] (by
    intro s hs
    rw [List.mem_singleton.mp hs]
    decide)).1

/-- A sign-in that somebody else keeps out: it is let in on its own, and turned
away once its address is stored in the row of an identity that only asserted it. -/
theorem kept_out_by_unverified_email :
    verifiedSignIn.Asserts unverifiedSignIn ∧ (verifiedSignIn.task.alone noUsers).1.isOk = true ∧
      (verifiedSignIn.task.alone (unverifiedSignIn.task.alone noUsers).2).1.isOk = false ∧
      (unverifiedSignIn.task.alone noUsers).2.users.rows.map (fun r => (r.oidc_subject, r.email)) =
        [(some "b", verifiedSignIn.email)] := by
  decide

end api2mcp.store.user
