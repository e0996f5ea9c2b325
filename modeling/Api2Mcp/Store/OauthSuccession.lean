import Api2Mcp.Store.OauthFamily

namespace api2mcp.store

open relational concurrent
open api2mcp.entity api2mcp.entity.oauth_tokens

/-- The tokens with every row of these ids revoked. -/
def revokeIds (ids : List Int) (t : Tokens) : Tokens :=
  t.update (fun r => r.id ∈ ids) Model.revoke Model.clash_revoke

/-- The tokens with every row of the family revoked. -/
def revokeFamily (f : Uuid) (t : Tokens) : Tokens :=
  t.update (fun r => r.family_id = f) Model.revoke Model.clash_revoke

theorem keeps_revokeFamily (f : Uuid) (t : Tokens) : Keeps t (revokeFamily f t) := by
  intro r hr
  refine ⟨_, Table.mem_update.mpr ⟨r, hr, rfl⟩, ?_⟩
  split
  · exact .revoke r
  · exact .refl r

theorem revoked_of_revokeFamily {f : Uuid} {t : Tokens} {r : Model} (hr : r ∈ (revokeFamily f t).rows)
    (hfamily : r.family_id = f) : r.revoked = true := by
  obtain ⟨a, _, rfl⟩ := Table.mem_update.mp hr
  by_cases ha : a.family_id = f
  · simp [ha]
  · simp [ha] at hfamily

theorem live_of_revokeFamily {f g : Uuid} {t : Tokens} {r : Model} (hlive : Live g (revokeFamily f t) r) :
    Live g t r := by
  obtain ⟨hr, hfamily, hrevoked⟩ := hlive
  obtain ⟨a, ha, rfl⟩ := Table.mem_update.mp hr
  by_cases hf : a.family_id = f
  · simp [hf] at hrevoked
  · simp only [hf, decide_false, Bool.false_eq_true, if_false] at hfamily hrevoked ⊢
    exact ⟨ha, hfamily, hrevoked⟩

/-- A call that issues nothing: it may revoke, and time stands still. -/
structure Idle (s s' : OauthDb) : Prop where
  keeps : Keeps s.oauth_tokens s'.oauth_tokens
  live : ∀ f r, Live f s'.oauth_tokens r → Live f s.oauth_tokens r
  now : s'.now = s.now
  db_now : s'.db_now = s.db_now

theorem Idle.refl (s : OauthDb) : Idle s s := ⟨.refl _, fun _ _ h => h, rfl, rfl⟩

theorem Idle.trans {s s' s'' : OauthDb} (h : Idle s s') (h' : Idle s' s'') : Idle s s'' :=
  ⟨h.keeps.trans h'.keeps, fun f r hr => h.live f r (h'.live f r hr), h'.now.trans h.now,
    h'.db_now.trans h.db_now⟩

theorem idle_revokeFamily (f : Uuid) (s : OauthDb) :
    Idle s { s with oauth_tokens := revokeFamily f s.oauth_tokens } :=
  ⟨keeps_revokeFamily f _, fun _ _ => live_of_revokeFamily, rfl, rfl⟩

section

variable (sha256_hex : String → String)

/-- The row that takes the place of `row`, issued when the clocks show `now`
and `db_now`: each token gets the span from the old row's `created_at` to the
old token's expiry. -/
def successor (row : Model) (draws : Draws) (id : Int) (now db_now : DateTime) : Model :=
  { row with
    id
    access_token_hash := sha256_hex draws.access_token
    refresh_token_hash := row.refresh_expires_at.map fun _ => sha256_hex draws.refresh_token
    revoked := false
    access_expires_at := now + (row.access_expires_at - row.created_at)
    refresh_expires_at := row.refresh_expires_at.map fun exp => now + (exp - row.created_at)
    created_at := db_now }

/-- What a refresh token was exchanged for: its row, live and not expired, was
revoked, and its successor stands behind the others. -/
structure Rotates (s : OauthDb) (refresh_token : String) (draws : Draws) (row : Model) (s' : OauthDb) :
    Prop where
  found : row ∈ s.oauth_tokens.rows
  hash : row.refresh_token_hash = some (sha256_hex refresh_token)
  live : row.revoked = false
  unexpired : ∀ exp, row.refresh_expires_at = some exp → s.now < exp
  inserted : (revokeId row.id s.oauth_tokens).insert
    (successor sha256_hex row draws s.next_id s.now s.db_now) = some s'.oauth_tokens
  now : s'.now = s.now
  db_now : s'.db_now = s.db_now

end

namespace Rotates

variable {sha256_hex : String → String} {s s' : OauthDb} {refresh_token : String} {draws : Draws} {row : Model}

theorem keeps (h : Rotates sha256_hex s refresh_token draws row s') : Keeps s.oauth_tokens s'.oauth_tokens :=
  (keeps_revokeId row.id _).trans (keeps_insert h.inserted)

theorem mem (h : Rotates sha256_hex s refresh_token draws row s') :
    successor sha256_hex row draws s.next_id s.now s.db_now ∈ s'.oauth_tokens.rows :=
  (Table.mem_of_insert h.inserted).mpr (.inr rfl)

/-- What is live afterwards is the successor, or was live before and is not
the row it was exchanged for. -/
theorem of_live (h : Rotates sha256_hex s refresh_token draws row s') {f : Uuid} {r : Model}
    (hlive : Live f s'.oauth_tokens r) :
    r = successor sha256_hex row draws s.next_id s.now s.db_now ∨ (Live f s.oauth_tokens r ∧ r.id ≠ row.id) := by
  obtain ⟨hr, hfamily, hrevoked⟩ := hlive
  obtain hold | rfl := (Table.mem_of_insert h.inserted).mp hr
  · exact .inr (live_of_revokeId ⟨hold, hfamily, hrevoked⟩)
  · exact .inl rfl

end Rotates

section Alone

theorem Aged.revoke_eq {r r' : Model} (h : Aged r r') (hrevoked : r.revoked = true) : r'.revoke = r' := by
  have hset : r'.revoked = true := h.2 hrevoked
  cases r'
  simp_all [Model.revoke]

theorem find_id {t : Tokens} {r : Model} (hr : r ∈ t.rows) : (t.find fun a => a.id = r.id) = some r :=
  Table.find_of_mem hr (by simp) fun a _ ha => by
    simp only [decide_eq_true_eq] at ha
    simp [indexes, ha]

/-- The update of a row that is there succeeds. -/
theorem set_revoked_alone (label : OauthStmt) {s : OauthDb} {r : Model} (hr : r ∈ s.oauth_tokens.rows) :
    (set_revoked label r.id).alone s = (.ok (), { s with oauth_tokens := revokeId r.id s.oauth_tokens }) := by
  simp only [set_revoked, Task.exec, Task.alone, find_id hr]

/-- The rows of a list that was read before are revoked in turn; one that is
revoked already is skipped, which leaves it as it is. -/
theorem revoke_rows_alone (rows : List Model) {s : OauthDb}
    (hrows : ∀ row ∈ rows, ∃ r ∈ s.oauth_tokens.rows, Aged row r) :
    (revoke_rows rows).alone s =
      (.ok (), { s with oauth_tokens := revokeIds (rows.map (·.id)) s.oauth_tokens }) := by
  induction rows generalizing s with
  | nil =>
    have hsame : revokeIds [] s.oauth_tokens = s.oauth_tokens := Table.ext_rows (by simp [revokeIds, Table.update])
    rw [List.map_nil, hsame]
    rfl
  | cons row rows ih =>
    obtain ⟨r, hr, haged⟩ := hrows row List.mem_cons_self
    have hrest : ∀ row' ∈ rows, ∃ r' ∈ s.oauth_tokens.rows, Aged row' r' := fun row' hrow' =>
      hrows row' (List.mem_cons_of_mem row hrow')
    unfold revoke_rows
    split
    · rename_i hrevoked
      rw [ih hrest]
      have hsame : revokeIds (rows.map (·.id)) s.oauth_tokens =
          revokeIds ((row :: rows).map (·.id)) s.oauth_tokens := by
        refine Table.ext_rows (List.map_congr_left fun a ha => ?_)
        by_cases hid : a.id = row.id
        · obtain rfl : a = r := eq_of_id ha hr (hid.trans haged.id_eq.symm)
          simp [haged.revoke_eq hrevoked]
        · simp [hid]
      rw [hsame]
    · rw [Task.alone_bind, ← haged.id_eq, set_revoked_alone _ hr]
      simp only
      rw [ih fun row' hrow' => ?_]
      · have hsame : revokeIds (rows.map (·.id)) (revokeId r.id s.oauth_tokens) =
            revokeIds ((row :: rows).map (·.id)) s.oauth_tokens := by
          refine Table.ext_rows ?_
          simp only [revokeIds, revokeId, Table.update, List.map_map]
          refine List.map_congr_left fun a _ => ?_
          by_cases hid : a.id = r.id
          · simp [hid, haged.id_eq, Model.revoke]
          · simp [hid, ← haged.id_eq]
        rw [hsame]
      · obtain ⟨a, ha, haged'⟩ := hrest row' hrow'
        obtain ⟨a', ha', haged''⟩ := keeps_revokeId r.id s.oauth_tokens a ha
        exact ⟨a', ha', haged'.trans haged''⟩

theorem revoke_family_alone (f : Uuid) (s : OauthDb) :
    (revoke_family f).alone s = (.ok (), { s with oauth_tokens := revokeFamily f s.oauth_tokens }) := by
  have hlisted : ∀ row ∈ s.oauth_tokens.select fun r => r.family_id = f,
      ∃ r ∈ s.oauth_tokens.rows, Aged row r := fun row hrow =>
    ⟨row, (Table.mem_select.mp hrow).1, .refl row⟩
  have hsame : revokeIds ((s.oauth_tokens.select fun r => r.family_id = f).map (·.id)) s.oauth_tokens =
      revokeFamily f s.oauth_tokens := by
    refine Table.ext_rows (List.map_congr_left fun a ha => ?_)
    have hiff : a.id ∈ (s.oauth_tokens.select fun r => r.family_id = f).map (·.id) ↔ a.family_id = f := by
      rw [List.mem_map]
      constructor
      · rintro ⟨b, hb, hid⟩
        obtain ⟨hb, hfamily⟩ := Table.mem_select.mp hb
        rw [← eq_of_id hb ha hid]
        exact of_decide_eq_true hfamily
      · exact fun hfamily => ⟨a, Table.mem_select.mpr ⟨ha, decide_eq_true hfamily⟩, rfl⟩
    simp only [hiff]
  rw [revoke_family, list_family, Task.read_bind]
  exact (revoke_rows_alone _ hlisted).trans (by rw [hsame])

section

variable {sha256_hex : String → String} {s : OauthDb} {draws : Draws}

theorem from_std_ok {d : Duration} {span : Int} (h : chrono.from_std d = .ok span) : span = d := by
  unfold chrono.from_std at h
  split at h
  · exact (Except.ok.inj h).symm
  · cases h

theorem transpose_from_std_ok {ttl : Option Duration} {span : Option Int}
    (h : transpose (ttl.map chrono.from_std) = .ok span) : span = ttl.map fun d : Duration => (d : Int) := by
  cases ttl with
  | none => exact (Except.ok.inj h).symm
  | some d =>
    cases hd : chrono.from_std d with
    | error e => simp [transpose, hd] at h
    | ok n =>
      simp only [Option.map_some, transpose, hd, Except.ok.injEq] at h
      rw [← h, from_std_ok hd]
      rfl

/-- An issue that fails leaves the tokens as they are. -/
theorem issue_in_family_error {grant : TokenGrant} {f : Uuid} {access_ttl : Duration}
    {refresh_ttl : Option Duration} {e : StoreError} {s' : OauthDb}
    (h : (issue_in_family sha256_hex grant f access_ttl refresh_ttl draws).alone s = (.error e, s')) :
    s'.oauth_tokens = s.oauth_tokens ∧ s'.now = s.now ∧ s'.db_now = s.db_now := by
  simp only [issue_in_family, utc_now, Task.read_bind, Task.alone, id] at h
  split at h
  · cases h
    exact ⟨rfl, rfl, rfl⟩
  split at h
  · cases h
    exact ⟨rfl, rfl, rfl⟩
  simp only [Task.exec_bind, Task.alone, insertToken] at h
  split at h
  · rename_i hmatch
    split at hmatch
    · cases h
      rename_i hinsert
      simp only [hinsert, and_self]
    · cases hmatch
  · cases h

/-- A pair that was issued: its row stands behind the others, with expiries
counted from the application's clock and `created_at` from the database's. -/
theorem issue_in_family_ok {grant : TokenGrant} {f : Uuid} {access_ttl : Duration}
    {refresh_ttl : Option Duration} {issued : IssuedOauthToken} {s' : OauthDb}
    (h : (issue_in_family sha256_hex grant f access_ttl refresh_ttl draws).alone s = (.ok issued, s')) :
    issued = ⟨draws.access_token, refresh_ttl.map fun _ => draws.refresh_token, f⟩ ∧
      ∃ t, s.oauth_tokens.insert (issuedRow sha256_hex grant f (refresh_ttl.map fun _ => draws.refresh_token)
          (s.now + access_ttl) (refresh_ttl.map fun ttl : Duration => s.now + (ttl : Int)) draws s.next_id
          s.db_now) = some t ∧
        s' = { s with oauth_tokens := t, next_id := s.next_id + 1 } := by
  simp only [issue_in_family, utc_now, Task.read_bind, Task.alone, id] at h
  split at h
  · cases h
  rename_i access_span haccess
  split at h
  · cases h
  rename_i refresh_span hrefresh
  obtain rfl := from_std_ok haccess
  obtain rfl := transpose_from_std_ok hrefresh
  simp only [Task.exec_bind, Task.alone, insertToken, Option.map_map, Function.comp_def] at h
  cases hinsert : s.oauth_tokens.insert (issuedRow sha256_hex grant f
    (refresh_ttl.map fun _ => draws.refresh_token) (s.now + access_ttl)
    (refresh_ttl.map fun ttl : Duration => s.now + (ttl : Int)) draws s.next_id s.db_now) with
  | none =>
    simp only [hinsert] at h
    cases h
  | some t =>
    simp only [hinsert] at h
    cases h
    exact ⟨rfl, t, rfl, rfl⟩

theorem to_std_ok {span : Int} {d : Duration} (h : chrono.to_std span = .ok d) : (d : Int) = span := by
  unfold chrono.to_std at h
  split at h
  · cases h
  · cases h
    omega

theorem ttls_ok {row : Model} {access_ttl : Duration} {refresh_ttl : Option Duration}
    (h : ttls row = .ok (access_ttl, refresh_ttl)) :
    (access_ttl : Int) = row.access_expires_at - row.created_at ∧
      (refresh_ttl.map fun ttl : Duration => (ttl : Int)) =
        row.refresh_expires_at.map fun exp => exp - row.created_at := by
  unfold ttls at h
  split at h
  · cases h
  rename_i access haccess
  split at h
  · cases h
  rename_i refresh hrefresh
  cases h
  refine ⟨to_std_ok haccess, ?_⟩
  cases hexp : row.refresh_expires_at with
  | none =>
    rw [hexp] at hrefresh
    cases hrefresh
    rfl
  | some exp =>
    simp only [hexp, Option.map_some] at hrefresh ⊢
    cases hstd : chrono.to_std (exp - row.created_at) with
    | error e => simp [transpose, hstd] at hrefresh
    | ok d =>
      simp only [transpose, hstd, Except.ok.injEq] at hrefresh
      rw [← hrefresh, Option.map_some, to_std_ok hstd]

/-- The row a rotation issues is the successor of the one it revoked. -/
theorem issuedRow_eq_successor {row : Model} {access_ttl : Duration} {refresh_ttl : Option Duration}
    (h : ttls row = .ok (access_ttl, refresh_ttl)) (id : Int) (now db_now : DateTime) :
    issuedRow sha256_hex ⟨row.client_id, row.user_id, row.scope, row.resource⟩ row.family_id
        (refresh_ttl.map fun _ => draws.refresh_token) (now + access_ttl)
        (refresh_ttl.map fun ttl : Duration => now + (ttl : Int)) draws id db_now =
      successor sha256_hex row draws id now db_now := by
  obtain ⟨haccess, hrefresh⟩ := ttls_ok h
  have hexp : (refresh_ttl.map fun ttl : Duration => now + (ttl : Int)) =
      row.refresh_expires_at.map fun exp => now + (exp - row.created_at) := by
    have hmapped := congrArg (Option.map fun span => now + span) hrefresh
    simpa only [Option.map_map, Function.comp_def] using hmapped
  have hsome : (refresh_ttl.map fun _ => draws.refresh_token).map sha256_hex =
      row.refresh_expires_at.map fun _ => sha256_hex draws.refresh_token := by
    have hmapped := congrArg (Option.map fun _ => sha256_hex draws.refresh_token) hrefresh
    simpa only [Option.map_map, Function.comp_def] using hmapped
  simp only [issuedRow, successor, hexp, hsome, haccess]

theorem idle_revokeId {r : Model} {s s' : OauthDb} (hs : s'.oauth_tokens = revokeId r.id s.oauth_tokens)
    (hnow : s'.now = s.now) (hdb : s'.db_now = s.db_now) : Idle s s' := by
  refine ⟨hs ▸ keeps_revokeId r.id _, fun f a ha => ?_, hnow, hdb⟩
  rw [hs] at ha
  exact (live_of_revokeId ha).1

/-- An exchange that fails may have revoked the row, and issued nothing. -/
theorem exchange_row_cases {row : Model} (hrow : row ∈ s.oauth_tokens.rows)
    {answer : Except StoreError (Option IssuedOauthToken)} {s' : OauthDb}
    (h : (exchange_row sha256_hex row draws).alone s = (answer, s')) :
    (Idle s s' ∧ ∀ issued, answer ≠ .ok (some issued)) ∨
      ((revokeId row.id s.oauth_tokens).insert
          (successor sha256_hex row draws s.next_id s.now s.db_now) = some s'.oauth_tokens ∧
        s'.now = s.now ∧ s'.db_now = s.db_now ∧
        answer = .ok (some ⟨draws.access_token, row.refresh_expires_at.map fun _ => draws.refresh_token,
          row.family_id⟩)) := by
  unfold exchange_row at h
  split at h
  · cases h
    exact .inl ⟨.refl s, fun _ h => by cases h⟩
  rename_i access_ttl refresh_ttl httls
  rw [Task.alone_bind, set_revoked_alone _ hrow] at h
  simp only at h
  rw [Task.alone_bind] at h
  cases hissue : (issue_in_family sha256_hex ⟨row.client_id, row.user_id, row.scope, row.resource⟩
    row.family_id access_ttl refresh_ttl draws).alone
      { s with oauth_tokens := revokeId row.id s.oauth_tokens } with
  | mk issued after =>
    rw [hissue] at h
    cases issued with
    | error e =>
      cases h
      obtain ⟨htokens, hnow, hdb⟩ := issue_in_family_error hissue
      exact .inl ⟨idle_revokeId htokens hnow hdb, fun _ h => by cases h⟩
    | ok issued =>
      cases h
      obtain ⟨rfl, t, hinsert, rfl⟩ := issue_in_family_ok hissue
      refine .inr ⟨?_, rfl, rfl, ?_⟩
      · exact (issuedRow_eq_successor httls s.next_id s.now s.db_now) ▸ hinsert
      · have hsome := congrArg (Option.map fun _ => draws.refresh_token) (ttls_ok httls).2
        simp only [Option.map_map, Function.comp_def] at hsome
        rw [hsome]

theorem refresh_expired_alone (row : Model) (s : OauthDb) :
    (refresh_expired row).alone s = (row.refresh_expires_at.any fun exp => exp ≤ s.now, s) := by
  unfold refresh_expired
  split
  · rename_i hexp
    simp [Task.alone, hexp]
  · rename_i exp hexp
    simp [Task.alone, utc_now, hexp]

theorem rotate_cases {refresh_token : String} {answer : Except StoreError (Option IssuedOauthToken)}
    {s' : OauthDb} (h : (rotate_refresh_token sha256_hex refresh_token draws).alone s = (answer, s')) :
    (Idle s s' ∧ ∀ issued, answer ≠ .ok (some issued)) ∨
      ∃ row, Rotates sha256_hex s refresh_token draws row s' ∧
        answer = .ok (some ⟨draws.access_token, row.refresh_expires_at.map fun _ => draws.refresh_token,
          row.family_id⟩) := by
  simp only [rotate_refresh_token, find_by_refresh_hash, Task.read_bind, Task.alone, id] at h
  split at h
  · cases h
    exact .inl ⟨.refl s, fun _ h => by cases h⟩
  rename_i row hfind
  obtain ⟨hrow, hhash⟩ := Table.mem_of_find hfind
  split at h
  · rw [Task.alone_bind, revoke_family_alone] at h
    cases h
    exact .inl ⟨idle_revokeFamily row.family_id s, fun _ h => by cases h⟩
  rename_i hlive
  rw [Task.alone_bind, refresh_expired_alone] at h
  split at h
  · cases h
    exact .inl ⟨.refl s, fun _ h => by cases h⟩
  rename_i hunexpired
  obtain hidle | ⟨hinsert, hnow, hdb, hanswer⟩ := exchange_row_cases hrow h
  · exact .inl hidle
  · refine .inr ⟨row, ⟨hrow, of_decide_eq_true hhash, by simpa using hlive, fun exp hexp => ?_, hinsert, hnow,
      hdb⟩, hanswer⟩
    simpa [hexp] using hunexpired

end

end Alone

end api2mcp.store
