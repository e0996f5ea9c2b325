import Api2Mcp.Store.UserRuns

namespace api2mcp.store.user

open relational concurrent
open api2mcp.entity

/-- The row has the identity of the sign-in. -/
def SignIn.Owns (s : SignIn) (r : users.Model) : Prop :=
  r.oidc_issuer = some s.issuer ∧ r.oidc_subject = some s.subject

/-- What a sign-in run on its own does: it refreshes the address of the row
with its identity, or claims the unlinked row of its verified address, or
creates a row, or fails and leaves the users as they are. -/
inductive SignIn.Outcome (s : SignIn) (db : UserDb) : Except StoreError UserRecord → UserDb → Prop
  | known (r : users.Model) : r ∈ db.users.rows → s.Owns r → r.email = s.email → Outcome s db (.ok (to_model r)) db
  | refreshed (r : users.Model) (t : Table users.indexes) : r ∈ db.users.rows → s.Owns r →
      db.users.modify (fun a => a.id = r.id) (users.Model.set_email s.email) = some t →
      Outcome s db (.ok (to_model (r.set_email s.email))) { db with users := t }
  | refresh_refused (r holder : users.Model) : r ∈ db.users.rows → s.Owns r → holder ∈ db.users.rows →
      holder.email = s.email → ¬ s.Owns holder → Outcome s db (.error .Db) db
  | claimed (r : users.Model) (t : Table users.indexes) : (∀ a ∈ db.users.rows, ¬ s.Owns a) →
      s.email_verified = true → r ∈ db.users.rows → r.oidc_issuer = none → r.email = s.email →
      db.users.modify (fun a => a.id = r.id ∧ a.oidc_issuer.isNone)
        (users.Model.link s.issuer s.subject s.email) = some t →
      Outcome s db (.ok (to_model (r.link s.issuer s.subject s.email))) { db with users := t }
  | conflict (holder : users.Model) (e : StoreError) : (∀ a ∈ db.users.rows, ¬ s.Owns a) →
      holder ∈ db.users.rows → holder.email = s.email →
      (s.email_verified = true → holder.oidc_issuer ≠ none) → Outcome s db (.error e) db
  | created (t : Table users.indexes) : (∀ a ∈ db.users.rows, ¬ s.Owns a) →
      (∀ a ∈ db.users.rows, a.email ≠ s.email) →
      db.users.insert (newRow s.id s.email none (some (s.issuer, s.subject)) db.now) = some t →
      Outcome s db (.ok (to_model (newRow s.id s.email none (some (s.issuer, s.subject)) db.now)))
        { db with users := t }
  | key_taken (holder : users.Model) : (∀ a ∈ db.users.rows, ¬ s.Owns a) →
      (∀ a ∈ db.users.rows, a.email ≠ s.email) → holder ∈ db.users.rows → holder.id = s.id → Outcome s db (.error .Db) db

section Outcome

variable {db : UserDb} {s : SignIn}

theorem clash_id {a b : users.Model} (h : users.indexes.clash a b = false) : a.id ≠ b.id := by
  intro heq
  simp [users.indexes, heq] at h

/-- A refresh is refused for another row with the address. -/
theorem holder_of_refused {r : users.Model}
    (h : db.users.modify (fun a => a.id = r.id) (users.Model.set_email s.email) = none) :
    ∃ holder ∈ db.users.rows, holder.email = s.email ∧ holder.id ≠ r.id := by
  obtain ⟨a, ha, b, hb, hapart, hclash⟩ := Table.clash_of_modify h
  have hne := clash_id hapart
  by_cases hpa : a.id = r.id
  · have hpb : b.id ≠ r.id := fun heq => hne (hpa.trans heq.symm)
    refine ⟨b, hb, ?_, hpb⟩
    simp only [hpa, hpb, decide_true, decide_false, if_true, Bool.false_eq_true, if_false] at hclash
    simp only [users.indexes, users.Model.set_email, users.sameIdentity, Bool.or_eq_true, Bool.or_eq_false_iff,
      decide_eq_true_eq, decide_eq_false_iff_not] at hclash hapart
    obtain (hid | hemail) | hidentity := hclash
    · exact absurd hid hapart.1.1
    · exact hemail.symm
    · rw [hapart.2] at hidentity
      cases hidentity
  · by_cases hpb : b.id = r.id
    · refine ⟨a, ha, ?_, hpa⟩
      simp only [hpa, hpb, decide_true, decide_false, if_true, Bool.false_eq_true, if_false] at hclash
      simp only [users.indexes, users.Model.set_email, users.sameIdentity, Bool.or_eq_true,
        Bool.or_eq_false_iff, decide_eq_true_eq, decide_eq_false_iff_not] at hclash hapart
      obtain (hid | hemail) | hidentity := hclash
      · exact absurd hid hapart.1.1
      · exact hemail
      · rw [hapart.2] at hidentity
        cases hidentity
    · simp only [hpa, hpb, decide_false, Bool.false_eq_true, if_false] at hclash
      rw [hapart] at hclash
      cases hclash

/-- A claim is never refused: the address stays, and nobody has the identity. -/
theorem claim_not_refused {r : users.Model} (hnone : ∀ a ∈ db.users.rows, ¬ s.Owns a) (hr : r ∈ db.users.rows)
    (hemail : r.email = s.email) :
    db.users.modify (fun a => a.id = r.id ∧ a.oidc_issuer.isNone)
      (users.Model.link s.issuer s.subject s.email) ≠ none := by
  intro h
  obtain ⟨a, ha, b, hb, hapart, hclash⟩ := Table.clash_of_modify h
  have hne := clash_id hapart
  have hlinked : ∀ x ∈ db.users.rows, ¬ (some s.issuer = x.oidc_issuer ∧ some s.subject = x.oidc_subject) :=
    fun x hx hsame => hnone x hx ⟨hsame.1.symm, hsame.2.symm⟩
  have hother : ∀ x ∈ db.users.rows, x.id ≠ r.id → s.email ≠ x.email := by
    intro x hx hid heq
    refine hid (congrArg users.Model.id (Table.eq_of_clash hx hr ?_))
    simp [users.indexes, ← heq, hemail]
  by_cases hpa : a.id = r.id ∧ a.oidc_issuer.isNone = true
  · have hpb : b.id ≠ r.id := fun heq => hne (hpa.1.trans heq.symm)
    simp only [hpa, hpb, and_self, false_and, decide_true, decide_false, if_true, Bool.false_eq_true, if_false,
      users.indexes, users.Model.link, users.sameIdentity, Bool.or_eq_true, Bool.and_eq_true,
      decide_eq_true_eq] at hclash
    obtain (hid | hsame) | hidentity := hclash
    · exact hpb hid.symm
    · exact hother b hb hpb hsame
    · exact hlinked b hb ⟨hidentity.1.2, hidentity.2⟩
  · by_cases hpb : b.id = r.id ∧ b.oidc_issuer.isNone = true
    · have hida : a.id ≠ r.id := fun heq => hne (heq.trans hpb.1.symm)
      simp only [hpa, hpb, and_self, decide_true, decide_false, if_true, Bool.false_eq_true, if_false,
        users.indexes, users.Model.link, users.sameIdentity, Bool.or_eq_true, Bool.and_eq_true,
        decide_eq_true_eq] at hclash
      obtain (hid | hsame) | hidentity := hclash
      · exact hida hid
      · exact hother a ha hida hsame.symm
      · exact hlinked a ha ⟨hidentity.1.2.symm, hidentity.2.symm⟩
    · simp only [hpa, hpb, decide_false, Bool.false_eq_true, if_false] at hclash
      rw [hapart] at hclash
      cases hclash

theorem updateMany_none {p : users.Model → Bool} {set : users.Model → users.Model}
    (h : db.users.modify p set = none) : updateMany p set db = (.error .Db, db) := by
  rw [updateMany, h]

theorem updateMany_some {p : users.Model → Bool} {set : users.Model → users.Model} {t : Table users.indexes}
    (h : db.users.modify p set = some t) :
    updateMany p set db = (.ok (db.users.select p).length, { db with users := t }) := by
  rw [updateMany, h]

theorem get_back_alone {id : Uuid} {message : String} {r : users.Model} (hr : r ∈ db.users.rows) (hid : r.id = id) :
    (get_back id message).alone db = (.ok (to_model r), db) := by
  have hfind : (db.users.find fun a => a.id = id) = some r :=
    Table.find_of_mem hr (decide_eq_true hid) fun a _ ha => by
      simp [users.indexes, of_decide_eq_true ha, hid]
  simp only [get_back, get_by_id, Task.read_bind, Task.alone, hfind]
  rfl

theorem find_owned {r : users.Model} (hr : r ∈ db.users.rows) (howns : s.Owns r) :
    (db.users.find fun a => a.oidc_issuer = some s.issuer ∧ a.oidc_subject = some s.subject) = some r :=
  Table.find_of_mem hr (decide_eq_true howns) fun a _ ha => by
    obtain ⟨hissuer, hsubject⟩ := of_decide_eq_true ha
    simp [users.indexes, users.sameIdentity, hissuer, hsubject, howns.1, howns.2]

/-- A row with the identity of the sign-in decides it. -/
theorem refresh_linked_outcome {r : users.Model} (hr : r ∈ db.users.rows) (howns : s.Owns r)
    {answer : Except StoreError (Option UserRecord)} {db' : UserDb}
    (h : (refresh_linked s.issuer s.subject s.email).alone db = (answer, db')) :
    ∃ result, answer = result.map some ∧ s.Outcome db result db' := by
  simp only [refresh_linked, get_by_oidc_identity, Task.read_bind, Task.alone, find_owned hr howns,
    Option.map_some, refresh, id] at h
  by_cases hemail : r.email = s.email
  · rw [if_neg (by simpa [to_model] using hemail)] at h
    simp only [Task.done_bind, Task.alone_bind] at h
    have hback : (get_back (to_model r).id "user disappeared after email refresh").alone db =
        (.ok (to_model r), db) := get_back_alone hr rfl
    rw [hback] at h
    cases h
    exact ⟨.ok (to_model r), rfl, .known r hr howns hemail⟩
  · rw [if_pos (by simpa [to_model] using hemail)] at h
    simp only [Task.alone_bind, refresh_email, Task.exec, Task.alone] at h
    cases hmodify : db.users.modify (fun a => a.id = r.id) (users.Model.set_email s.email) with
    | none =>
      have hupdate := updateMany_none hmodify
      rw [show (to_model r).id = r.id from rfl, hupdate] at h
      cases h
      obtain ⟨holder, hholder, hheld, hid⟩ := holder_of_refused hmodify
      refine ⟨.error .Db, rfl, .refresh_refused r holder hr howns hholder hheld fun hown => hid ?_⟩
      have hsame := (find_owned hr howns).symm.trans (find_owned hholder hown)
      rw [Option.some.inj hsame]
    | some t =>
      have hupdate := updateMany_some hmodify
      rw [show (to_model r).id = r.id from rfl, hupdate] at h
      have hmem : r.set_email s.email ∈ t.rows := by
        rw [Table.rows_of_modify hmodify]
        exact List.mem_map.mpr ⟨r, hr, if_pos (decide_eq_true rfl)⟩
      have hback : (get_back r.id "user disappeared after email refresh").alone { db with users := t } =
          (.ok (to_model (r.set_email s.email)), { db with users := t }) := get_back_alone hmem rfl
      simp only [Task.alone_bind, hback] at h
      cases h
      exact ⟨.ok _, rfl, .refreshed r t hr howns hmodify⟩

/-- Without one, the retry after a lost claim and the first look find nothing. -/
theorem refresh_linked_none (hnone : ∀ a ∈ db.users.rows, ¬ s.Owns a) :
    (refresh_linked s.issuer s.subject s.email).alone db = (.ok none, db) := by
  have hfind : (db.users.find fun a => a.oidc_issuer = some s.issuer ∧ a.oidc_subject = some s.subject) = none :=
    Table.find_eq_none.mpr fun a ha => decide_eq_false (hnone a ha)
  simp only [refresh_linked, get_by_oidc_identity, Task.read_bind, Task.alone, hfind]
  rfl

/-- The claim of the one unlinked row with the address. -/
theorem claim_by_email_some {r : users.Model} (hnone : ∀ a ∈ db.users.rows, ¬ s.Owns a) (hr : r ∈ db.users.rows)
    (hunlinked : r.oidc_issuer = none) (hemail : r.email = s.email) :
    ∃ t, db.users.modify (fun a => a.id = r.id ∧ a.oidc_issuer.isNone)
        (users.Model.link s.issuer s.subject s.email) = some t ∧
      (claim_by_email s.issuer s.subject s.email).alone db =
        (.ok (some (to_model (r.link s.issuer s.subject s.email))), { db with users := t }) := by
  have hfind : (db.users.find fun a => a.email = s.email ∧ a.oidc_issuer.isNone) = some r :=
    Table.find_of_mem hr (decide_eq_true ⟨hemail, by rw [hunlinked]; rfl⟩) fun a _ ha => by
      simp [users.indexes, (of_decide_eq_true ha).1, hemail]
  obtain ⟨t, hmodify⟩ := Option.ne_none_iff_exists'.mp (claim_not_refused hnone hr hemail)
  have hone : (db.users.select fun a => a.id = r.id ∧ a.oidc_issuer.isNone) = [r] :=
    Table.select_eq_singleton hr (decide_eq_true ⟨rfl, by rw [hunlinked]; rfl⟩) (by simp [users.indexes])
      fun a ha hp => users.eq_of_id ha hr (of_decide_eq_true hp).1
  have hmem : r.link s.issuer s.subject s.email ∈ t.rows := by
    rw [Table.rows_of_modify hmodify]
    exact List.mem_map.mpr ⟨r, hr, if_pos (decide_eq_true ⟨rfl, by rw [hunlinked]; rfl⟩)⟩
  refine ⟨t, hmodify, ?_⟩
  have hclaim : claim r.id s.issuer s.subject s.email db = (.ok true, { db with users := t }) := by
    rw [claim, updateMany_some hmodify, hone]
    rfl
  have hback : (get_back r.id "user disappeared immediately after being claimed").alone { db with users := t } =
      (.ok (to_model (r.link s.issuer s.subject s.email)), { db with users := t }) := get_back_alone hmem rfl
  simp only [claim_by_email, get_unlinked_by_email, Task.read_bind, Task.alone, hfind, Option.map_some,
    claim_unlinked, Task.exec_bind, show (to_model r).id = r.id from rfl, hclaim, Task.alone_bind, hback, id]
  rfl

theorem claim_by_email_none (hnone : ∀ a ∈ db.users.rows, a.oidc_issuer = none → a.email ≠ s.email) :
    (claim_by_email s.issuer s.subject s.email).alone db = (.ok none, db) := by
  have hfind : (db.users.find fun a => a.email = s.email ∧ a.oidc_issuer.isNone) = none :=
    Table.find_eq_none.mpr fun a ha => decide_eq_false fun h =>
      hnone a ha (Option.isNone_iff_eq_none.mp h.2) h.1
  simp only [claim_by_email, get_unlinked_by_email, Task.read_bind, Task.alone, hfind]
  rfl

theorem create_linked_outcome (hnone : ∀ a ∈ db.users.rows, ¬ s.Owns a)
    (hlinked : ∀ a ∈ db.users.rows, a.email = s.email → s.email_verified = true → a.oidc_issuer ≠ none)
    {answer : Except StoreError UserRecord} {db' : UserDb}
    (h : (create_linked s.issuer s.subject s.email s.id).alone db = (answer, db')) : s.Outcome db answer db' := by
  simp only [create_linked, get_by_email, Task.read_bind, Task.alone] at h
  cases hfind : db.users.find fun r => r.email = s.email with
  | some holder =>
    rw [hfind] at h
    cases h
    obtain ⟨hholder, hemail⟩ := Table.mem_of_find hfind
    have hemail := of_decide_eq_true hemail
    exact .conflict holder _ hnone hholder hemail (hlinked holder hholder hemail)
  | none =>
    rw [hfind] at h
    have hfree : ∀ a ∈ db.users.rows, a.email ≠ s.email := fun a ha =>
      of_decide_eq_false (Table.find_eq_none.mp hfind a ha)
    simp only [Option.map_none, insert, Task.exec_bind, Task.alone, insertRow, id] at h
    cases hinsert : db.users.insert (newRow s.id s.email none (some (s.issuer, s.subject)) db.now) with
    | none =>
      rw [hinsert] at h
      cases h
      obtain ⟨a, ha, hclash⟩ := Table.clash_of_insert hinsert
      refine .key_taken a hnone hfree ha ?_
      simp only [users.indexes, newRow, users.sameIdentity, Option.map_some, Bool.or_eq_true, Bool.and_eq_true,
        decide_eq_true_eq] at hclash
      obtain (hid | hemail) | hidentity := hclash
      · exact hid
      · exact absurd hemail (hfree a ha)
      · exact absurd ⟨hidentity.1.2, hidentity.2⟩ (hnone a ha)
    | some t =>
      rw [hinsert] at h
      have hmem := (Table.mem_of_insert hinsert).mpr (.inr rfl)
      have hback : (get_back s.id "user disappeared immediately after insert").alone { db with users := t } =
          (.ok (to_model (newRow s.id s.email none (some (s.issuer, s.subject)) db.now)),
            { db with users := t }) := get_back_alone hmem rfl
      simp only [hback] at h
      cases h
      exact .created t hnone hfree hinsert

theorem sign_in_outcome {answer : Except StoreError UserRecord} {db' : UserDb}
    (h : s.task.alone db = (answer, db')) : s.Outcome db answer db' := by
  by_cases howned : ∃ r ∈ db.users.rows, s.Owns r
  · obtain ⟨r, hr, howns⟩ := howned
    cases hlinked : (refresh_linked s.issuer s.subject s.email).alone db with
    | mk found db₁ =>
      obtain ⟨result, rfl, houtcome⟩ := refresh_linked_outcome hr howns hlinked
      simp only [SignIn.task, find_or_create_by_oidc, Task.alone_bind, hlinked] at h
      cases result with
      | error e =>
        cases h
        exact houtcome
      | ok user =>
        cases h
        exact houtcome
  · have hnone : ∀ a ∈ db.users.rows, ¬ s.Owns a := fun a ha howns => howned ⟨a, ha, howns⟩
    simp only [SignIn.task, find_or_create_by_oidc, Task.alone_bind, refresh_linked_none hnone] at h
    by_cases hverified : s.email_verified = true
    · rw [if_pos hverified] at h
      by_cases hcandidate : ∃ r ∈ db.users.rows, r.oidc_issuer = none ∧ r.email = s.email
      · obtain ⟨r, hr, hunlinked, hemail⟩ := hcandidate
        obtain ⟨t, hmodify, hclaim⟩ := claim_by_email_some hnone hr hunlinked hemail
        rw [hclaim] at h
        cases h
        exact .claimed r t hnone hverified hr hunlinked hemail hmodify
      · have hlinked : ∀ a ∈ db.users.rows, a.oidc_issuer = none → a.email ≠ s.email :=
          fun a ha hunlinked hemail => hcandidate ⟨a, ha, hunlinked, hemail⟩
        rw [claim_by_email_none hlinked] at h
        exact create_linked_outcome hnone (fun a ha hemail _ hunlinked => hlinked a ha hunlinked hemail) h
    · rw [if_neg hverified] at h
      exact create_linked_outcome hnone (fun a ha hemail hv => absurd hv hverified) h

theorem SignIn.outcome_alone (s : SignIn) (db : UserDb) : s.Outcome db (s.task.alone db).1 (s.task.alone db).2 :=
  sign_in_outcome rfl

end Outcome

end api2mcp.store.user
