import Api2Mcp.Concurrent.Trace
import Api2Mcp.Store.Decisions
import Api2Mcp.Store.Footprint
import Api2Mcp.Store.ServiceToken

namespace api2mcp.store.service_token

open relational btree concurrent except
open api2mcp.model api2mcp.entity

/-- `fk_service_token_endpoints_token`: each grant is a token's. -/
def GrantsNamed (rows : Rows) : Prop :=
  ∀ g ∈ rows.service_token_endpoints.rows, ∃ r ∈ rows.service_tokens.rows, r.id = g.service_token_id

/-- What no statement undoes: a token stays, restricted or not, and revoked if
it was; and no token that is there is granted another endpoint. -/
structure Keeps (rows rows' : Rows) : Prop where
  token : ∀ r ∈ rows.service_tokens.rows, ∃ r' ∈ rows'.service_tokens.rows,
    r'.id = r.id ∧ r'.restricted = r.restricted ∧ (r.revoked_at.isSome → r'.revoked_at.isSome)
  grant : ∀ g ∈ rows'.service_token_endpoints.rows,
    g ∈ rows.service_token_endpoints.rows ∨ ∀ r ∈ rows.service_tokens.rows, r.id ≠ g.service_token_id
  named : GrantsNamed rows → GrantsNamed rows'

namespace Keeps

theorem refl (rows : Rows) : Keeps rows rows where
  token r hr := ⟨r, hr, rfl, rfl, fun h => h⟩
  grant g hg := .inl hg
  named h := h

theorem trans {a b c : Rows} (hab : Keeps a b) (hbc : Keeps b c) : Keeps a c where
  token r hr := by
    obtain ⟨r', hr', hid', hrestricted', hrevoked'⟩ := hab.token r hr
    obtain ⟨r'', hr'', hid'', hrestricted'', hrevoked''⟩ := hbc.token r' hr'
    exact ⟨r'', hr'', hid''.trans hid', hrestricted''.trans hrestricted',
      fun h => hrevoked'' (hrevoked' h)⟩
  grant g hg := by
    obtain hb | hb := hbc.grant g hg
    · exact hab.grant g hb
    · right
      intro r hr
      obtain ⟨r', hr', hid', _⟩ := hab.token r hr
      rw [← hid']
      exact hb r' hr'
  named h := hbc.named (hab.named h)

/-- Grants may go, when the tokens stay as they are. -/
theorem of_fewer_grants {rows rows' : Rows} (htokens : rows'.service_tokens = rows.service_tokens)
    (hgrants : ∀ g ∈ rows'.service_token_endpoints.rows, g ∈ rows.service_token_endpoints.rows) :
    Keeps rows rows' where
  token r hr := ⟨r, by rwa [htokens], rfl, rfl, fun h => h⟩
  grant g hg := .inl (hgrants g hg)
  named h g hg := by
    rw [htokens]
    exact h g (hgrants g hg)

/-- Columns of a token may change, but for those that confine it. -/
theorem of_update {rows : Rows} (id : Uuid) {set : service_tokens.Model → service_tokens.Model}
    {hset : ∀ a b, service_tokens.indexes.clash (set a) b = service_tokens.indexes.clash a b}
    (hid : ∀ r, (set r).id = r.id) (hrestricted : ∀ r, (set r).restricted = r.restricted)
    (hrevoked : ∀ r, r.revoked_at.isSome → (set r).revoked_at.isSome) :
    Keeps rows { rows with
      service_tokens := rows.service_tokens.update (fun r => r.id = id) set hset } where
  token r hr := by
    by_cases h : r.id = id
    · exact ⟨set r, List.mem_map.mpr ⟨r, hr, by simp [h]⟩, hid r, hrestricted r, hrevoked r⟩
    · exact ⟨r, List.mem_map.mpr ⟨r, hr, by simp [h]⟩, rfl, rfl, fun h => h⟩
  grant g hg := .inl hg
  named h g hg := by
    obtain ⟨r, hr, hgr⟩ := h g hg
    by_cases hrid : r.id = id
    · exact ⟨set r, List.mem_map.mpr ⟨r, hr, by simp [hrid]⟩, (hid r).trans hgr⟩
    · exact ⟨r, List.mem_map.mpr ⟨r, hr, by simp [hrid]⟩, hgr⟩

end Keeps

/-- What `mint`'s transaction does if it commits: a token no one had, with one
grant for each endpoint. -/
theorem insert_spec {row : service_tokens.Model} {endpoint_ids : List Uuid} {rows rows' : Rows}
    (h : insert row endpoint_ids rows = .ok rows') :
    (∀ r ∈ rows.service_tokens.rows, r.id ≠ row.id) ∧
      (∀ r, r ∈ rows'.service_tokens.rows ↔ r ∈ rows.service_tokens.rows ∨ r = row) ∧
      ∀ g, g ∈ rows'.service_token_endpoints.rows ↔
        g ∈ rows.service_token_endpoints.rows ∨
          g.service_token_id = row.id ∧ g.endpoint_id ∈ endpoint_ids := by
  simp only [insert, insert_grants, bind_eq_ok, pure_eq_ok, db_err_eq_ok] at h
  obtain ⟨tokens, htokens, grants, hgrants, rfl⟩ := h
  obtain ⟨hfrom, hkept, hall⟩ := Table.mem_of_foldlM (fun e g => g = ⟨row.id, e⟩) (fun t e t' hstep => by
    simp only [bind_eq_ok, db_err_eq_ok] at hstep
    obtain ⟨_, _, hinsert⟩ := hstep
    exact ⟨_, rfl, hinsert⟩) hgrants
  refine ⟨fun r hr hid => ?_, fun r => Table.mem_of_insert htokens, fun g => ⟨fun hg => ?_, ?_⟩⟩
  · have hclash := Table.not_clash_of_insert htokens hr
    simp [service_tokens.indexes, Indexes.or, Indexes.on, hid] at hclash
  · obtain hold | ⟨e, he, rfl⟩ := hfrom g hg
    · exact .inl hold
    · exact .inr ⟨rfl, he⟩
  · rintro (hold | ⟨hid, he⟩)
    · exact hkept g hold
    · obtain ⟨g', hg', rfl⟩ := hall _ he
      rwa [← hid] at hg'

theorem Keeps.of_insert {row : service_tokens.Model} {endpoint_ids : List Uuid} {rows rows' : Rows}
    (h : insert row endpoint_ids rows = .ok rows') : Keeps rows rows' := by
  obtain ⟨hnew, htokens, hgrants⟩ := insert_spec h
  refine ⟨fun r hr => ⟨r, (htokens r).mpr (.inl hr), rfl, rfl, fun h => h⟩, fun g hg => ?_,
    fun hnamed g hg => ?_⟩
  · obtain hold | ⟨hid, _⟩ := (hgrants g).mp hg
    · exact .inl hold
    · right
      intro r hr
      rw [hid]
      exact hnew r hr
  · obtain hold | ⟨hid, _⟩ := (hgrants g).mp hg
    · obtain ⟨r, hr, hrid⟩ := hnamed g hold
      exact ⟨r, (htokens r).mpr (.inl hr), hrid⟩
    · exact ⟨row, (htokens row).mpr (.inr rfl), hid.symm⟩

/-! Every statement that runs on the definitions and the tokens keeps to it. -/

/-- All of a call's statements keep to it. -/
abbrev KeepsAll {α : Type} (t : DbTask α) : Prop :=
  t.All fun _ write => ∀ db, Keeps db.rows (write db).rows

theorem keepsAll_fetch {α : Type} (q : Fetch α) : KeepsAll (fetch q) :=
  Query.all_task (fun db => .refl db.rows) _ _

theorem keepsAll_read {α : Type} (l : Stmt) (f : Db → α) : KeepsAll (.read l f) :=
  Task.all_read (fun db => .refl db.rows) f

theorem keepsAll_exec {α : Type} (l : Stmt) (f : Db → α × Db)
    (h : ∀ db, Keeps db.rows (f db).2.rows) : KeepsAll (.exec l f) :=
  Task.all_exec h

theorem keepsAll_write_after (q : Fetch Write) : KeepsAll (write_after q) := by
  have hcommits : (write_after q).All (Commits fun _ => True) := commits_write_after fun _ _ => trivial
  refine hcommits.mono fun l write hwrite db => ?_
  obtain ⟨hsame, _⟩ | ⟨w, rows, _, _, happly, hrows⟩ := hwrite.cases db
  · rw [hsame]
    exact .refl db.rows
  · rw [hrows]
    obtain ⟨htokens, hgrants⟩ := w.apply_tokens happly
    exact .of_fewer_grants htokens hgrants

theorem keepsAll_set_last_used_at (id : Uuid) (now : DateTime) :
    KeepsAll (.exec (.set_last_used_at id) (update_token id (set_last_used_at now) fun _ _ => rfl)) :=
  keepsAll_exec _ _ fun _ => .of_update id (fun _ => rfl) (fun _ => rfl) fun _ h => h

theorem keepsAll_set_revoked_at (id : Uuid) (now : DateTime) :
    KeepsAll (.exec (.set_revoked_at id) (update_token id (set_revoked_at now) fun _ _ => rfl)) :=
  keepsAll_exec _ _ fun _ => .of_update id (fun _ => rfl) (fun _ => rfl) fun _ _ => rfl

theorem keepsAll_tick (span : Int) : KeepsAll (tick span) :=
  keepsAll_exec _ _ fun db => .refl db.rows

theorem keepsAll_revoke (id : Uuid) : KeepsAll (revoke id) := by
  refine (keepsAll_read _ _).bind fun row => ?_
  cases row with
  | none => exact .done _
  | some row => exact (keepsAll_read _ _).bind fun now => keepsAll_set_revoked_at row.id now

section

variable {sha256_hex : String → String}

theorem keepsAll_insert_token (args : MintArgs) (endpoint_ids : List Uuid) :
    KeepsAll (insert_token sha256_hex args endpoint_ids) := by
  refine keepsAll_exec _ _ fun db => ?_
  split
  · exact .refl db.rows
  · rename_i rows hinsert
    exact .of_insert hinsert

theorem keepsAll_mint (args : MintArgs) : KeepsAll (mint sha256_hex args) := by
  refine (keepsAll_fetch _).bind fun ids => ?_
  cases ids with
  | error e => exact .done _
  | ok ids =>
    refine (keepsAll_insert_token args ids).bind fun inserted => ?_
    cases inserted with
    | error e => exact .done _
    | ok _ =>
      refine (keepsAll_fetch _).bind fun record => ?_
      split <;> exact .done _

theorem keepsAll_expired (row : service_tokens.Model) : KeepsAll (expired row) := by
  unfold expired
  split
  · exact .done _
  · exact (keepsAll_read _ _).bind fun now => .done _

theorem keepsAll_resolve (plaintext : String) : KeepsAll (resolve sha256_hex plaintext) := by
  refine (keepsAll_read _ _).bind fun row => ?_
  cases row with
  | none => exact .done _
  | some row =>
    dsimp only
    split
    · exact .done _
    refine (keepsAll_expired row).bind fun expired => ?_
    split
    · exact .done _
    refine (keepsAll_read _ _).bind fun now => ?_
    refine (keepsAll_set_last_used_at row.id now).bind fun updated => ?_
    cases updated with
    | error e => exact .done _
    | ok _ =>
      refine (keepsAll_fetch _).bind fun endpoints => ?_
      cases endpoints <;> exact .done _

/-! What a call that returned did, and when. -/

variable {st : Nat → Db} {n m : Nat}

/-- A revocation that returned left its token revoked. -/
theorem revoke_ran {id : Uuid} (hran : Task.Ran st n (revoke id) m (.done (.ok ()))) :
    ∃ k, n ≤ k ∧ k < m ∧ ∃ r ∈ (st (k + 1)).rows.service_tokens.rows,
      r.id = id ∧ r.revoked_at.isSome := by
  obtain ⟨k, hnk, _, _, hran⟩ := Task.ran_read_bind.mp hran
  cases hfind : (st k).rows.service_tokens.find fun r => r.id = id with
  | none => simp [hfind] at hran
  | some row =>
    rw [hfind] at hran
    obtain ⟨_, hid⟩ := Table.mem_of_find hfind
    obtain ⟨c, hkc, _, _, hran⟩ := Task.ran_read_bind.mp hran
    obtain ⟨w, hcw, hwm, hwrite, h⟩ := Task.ran_exec.mp hran
    simp only [update_token, require_eq_ok, Option.isSome_iff_exists] at h
    obtain ⟨r, hr⟩ := h
    obtain ⟨hr, hrid⟩ := Table.mem_of_find hr
    refine ⟨w, by omega, hwm, set_revoked_at (st c).now r, ?_, ?_, rfl⟩
    · rw [hwrite]
      exact List.mem_map.mpr ⟨r, hr, if_pos hrid⟩
    · rw [← of_decide_eq_true hid]
      exact of_decide_eq_true hrid

/-- What a token that was given out between times `n` and `m` was read from:
at time `k` its row, unrevoked, then a clock at which it had not expired, then
its grants. -/
structure ReadFrom (st : Nat → Db) (n m : Nat) (record : ServiceTokenRecord) (k : Nat)
    (row : service_tokens.Model) : Prop where
  since : n ≤ k
  before : k < m
  found : row ∈ (st k).rows.service_tokens.rows
  unrevoked : row.revoked_at = none
  id : record.id = row.id
  restricted : record.restricted = row.restricted
  unexpired : ∀ e, record.expires_at = some e → ∃ c, n ≤ c ∧ c < m ∧ (st c).now < e
  grants : Query.Yields (fun rows => ∃ c, k < c ∧ c < m ∧ (st c).rows = rows)
    (load_endpoint_grants record.id) record.endpoints

/-- The clock was read before the expiry, if there is one. -/
theorem expired_ran {row : service_tokens.Model}
    (hran : Task.Ran st n (expired row) m (.done false)) :
    ∀ e, row.expires_at = some e → ∃ c, n ≤ c ∧ c < m ∧ (st c).now < e := by
  intro e he
  rw [expired, he] at hran
  obtain ⟨c, hnc, hcm, _, hran⟩ := Task.ran_read_bind.mp hran
  obtain ⟨_, h⟩ := Task.ran_done.mp hran
  exact ⟨c, hnc, hcm, by simpa using h⟩

theorem resolve_ran {plaintext : String} {record : ServiceTokenRecord}
    (hran : Task.Ran st n (resolve sha256_hex plaintext) m (.done (.ok (some record)))) :
    ∃ k row, ReadFrom st n m record k row := by
  obtain ⟨k, hnk, hkm, _, hran⟩ := Task.ran_read_bind.mp hran
  cases hfind : (st k).rows.service_tokens.find fun r => r.token_hash = sha256_hex plaintext with
  | none => simp [hfind] at hran
  | some row =>
    rw [hfind] at hran
    dsimp only at hran
    obtain ⟨hrow, _⟩ := Table.mem_of_find hfind
    split at hran
    · simp at hran
    rename_i hunrevoked
    obtain ⟨x, answer, hexpired, hran⟩ := hran.bind
    have hkx := hexpired.le
    cases answer with
    | true => simp at hran
    | false =>
      obtain ⟨c, hxc, _, _, hran⟩ := Task.ran_read_bind.mp hran
      obtain ⟨w, hcw, _, _, hran⟩ := Task.ran_exec_bind.mp hran
      split at hran
      · simp at hran
      obtain ⟨y, endpoints, hgrants, hran⟩ := hran.bind
      have hwy := hgrants.le
      cases endpoints with
      | error e => simp at hran
      | ok endpoints =>
        obtain ⟨hym, h⟩ := Task.ran_done.mp hran
        obtain rfl : { to_model row endpoints with last_used_at := some (st c).now } = record := by
          simpa using h
        refine ⟨k, row, hnk, hkm, hrow, by simpa using hunrevoked, rfl, rfl, ?_, ?_⟩
        · intro e he
          obtain ⟨i, hki, hix, hnow⟩ := expired_ran hexpired e he
          exact ⟨i, by omega, by omega, hnow⟩
        · refine (hgrants.query).mono ?_
          rintro rows ⟨i, hwi, hiy, hrows⟩
          exact ⟨i, by omega, by omega, hrows⟩

/-- The endpoints a mint resolved, and the turn at which it inserted. -/
theorem mint_ran {args : MintArgs} {minted : MintedServiceToken}
    (hran : Task.Ran st n (mint sha256_hex args) m (.done (.ok minted))) :
    ∃ k ids, n ≤ k ∧ k < m ∧
      insert (mintedRow sha256_hex args (st k).now) ids (st k).rows = .ok (st (k + 1)).rows ∧
      Query.Yields (fun rows => ∃ c, n ≤ c ∧ c < k ∧ (st c).rows = rows)
        (resolve_endpoint_ids args.owner_id args.endpoints) ids := by
  obtain ⟨x, ids, hids, hran⟩ := hran.bind
  have hnx := hids.le
  cases ids with
  | error e => simp at hran
  | ok ids =>
    obtain ⟨k, hxk, hkm, hwrite, hran⟩ := Task.ran_exec_bind.mp hran
    cases hinsert : insert (mintedRow sha256_hex args (st k).now) ids (st k).rows with
    | error e => simp [hinsert] at hran
    | ok rows =>
      rw [hinsert] at hwrite
      refine ⟨k, ids, by omega, hkm, by rw [hinsert, hwrite], hids.query.mono ?_⟩
      rintro rows ⟨c, hnc, hcx, hrows⟩
      exact ⟨c, hnc, by omega, hrows⟩

end

/-! What the grants of a token were read from. -/

theorem slug_by_id_yields {P : Rows → Prop} {id : Uuid} {slug : Slug}
    (hyields : Query.Yields P (endpoint.slug_by_id id) slug) :
    ∃ rows, P rows ∧ ∃ r ∈ rows.endpoints.rows, r.id = id ∧ r.slug = slug := by
  rw [endpoint.slug_by_id, Query.yields_bind] at hyields
  obtain ⟨found, hfound, hyields⟩ := hyields
  obtain ⟨rows, hrows, hfind⟩ := Query.yields_select.mp hfound
  rw [yields_ok_or, Option.map_eq_some_iff] at hyields
  obtain ⟨r, rfl, hslug⟩ := hyields
  obtain ⟨hr, hid⟩ := Table.mem_of_find hfind
  exact ⟨rows, hrows, r, hr, of_decide_eq_true hid, hslug⟩

theorem id_by_slug_yields {P : Rows → Prop} {owner_id : Uuid} {slug : Slug} {id : Uuid}
    (hyields : Query.Yields P (endpoint.id_by_slug owner_id slug) id) :
    ∃ rows, P rows ∧ ∃ r ∈ rows.endpoints.rows, r.id = id ∧ r.owner_id = owner_id ∧ r.slug = slug := by
  rw [endpoint.id_by_slug, Query.yields_bind] at hyields
  obtain ⟨found, hfound, hyields⟩ := hyields
  obtain ⟨rows, hrows, hfind⟩ := Query.yields_select.mp hfound
  rw [yields_ok_or, Option.map_eq_some_iff] at hyields
  obtain ⟨r, rfl, hid⟩ := hyields
  obtain ⟨hr, hkey⟩ := Table.mem_of_find hfind
  obtain ⟨howner, hslug⟩ : r.owner_id = owner_id ∧ r.slug = slug := by simpa using hkey
  exact ⟨rows, hrows, r, hr, hid, howner, hslug⟩

/-- Each slug is that of an endpoint a grant row of the token named. -/
theorem load_endpoint_grants_yields {P : Rows → Prop} {token_id : Uuid} {slugs : BTreeSet Slug}
    (hyields : Query.Yields P (load_endpoint_grants token_id) slugs) {slug : Slug}
    (hslug : slug ∈ slugs) :
    ∃ e, (∃ rows, P rows ∧ ⟨token_id, e⟩ ∈ rows.service_token_endpoints.rows) ∧
      ∃ rows, P rows ∧ ∃ r ∈ rows.endpoints.rows, r.id = e ∧ r.slug = slug := by
  rw [load_endpoint_grants, Query.yields_bind] at hyields
  obtain ⟨grants, hgrants, hyields⟩ := hyields
  obtain ⟨rows, hrows, rfl⟩ := Query.yields_select.mp hgrants
  rw [Query.yields_bind] at hyields
  obtain ⟨found, hfound, hyields⟩ := hyields
  obtain rfl := Query.yields_pure.mp hyields
  obtain ⟨grant, hgrant, hread⟩ := hfound.mem_mapM (BTreeSet.mem_collect.mp hslug)
  obtain ⟨hgrant, htoken⟩ := Table.mem_select.mp hgrant
  refine ⟨grant.endpoint_id, ⟨rows, hrows, ?_⟩, ?_⟩
  · rwa [← of_decide_eq_true htoken]
  · exact slug_by_id_yields hread

/-- Each key is that of an endpoint of the owner that was asked for. -/
theorem resolve_endpoint_ids_yields {P : Rows → Prop} {owner_id : Uuid} {slugs : BTreeSet Slug}
    {ids : BTreeSet Uuid} (hyields : Query.Yields P (resolve_endpoint_ids owner_id slugs) ids) :
    ∀ e ∈ ids, ∃ rows, P rows ∧ ∃ r ∈ rows.endpoints.rows,
      r.id = e ∧ r.owner_id = owner_id ∧ r.slug ∈ slugs := by
  unfold resolve_endpoint_ids at hyields
  refine Query.Yields.foldlM (fun ids => ∀ e ∈ ids, ∃ rows, P rows ∧ ∃ r ∈ rows.endpoints.rows,
    r.id = e ∧ r.owner_id = owner_id ∧ r.slug ∈ slugs) hyields nofun
    fun slug hslug before after hinv hstep => ?_
  rw [Query.yields_bind] at hstep
  obtain ⟨id, hid, hstep⟩ := hstep
  obtain rfl := Query.yields_pure.mp hstep
  intro e he
  obtain rfl | hold := BTreeSet.mem_insert.mp he
  · -- an answer that is not `NotFound` goes through as it is
    rw [Query.Yields, ExceptT.run_mk, Query.sees_bind] at hid
    obtain ⟨answer, hread, hid⟩ := hid
    split at hid
    · cases hid
    · obtain rfl := Query.sees_done.mp hid
      obtain ⟨rows, hrows, r, hr, hrid, howner, hrslug⟩ := id_by_slug_yields hread
      exact ⟨rows, hrows, r, hr, hrid, howner, by rwa [hrslug]⟩
  · exact hinv e hold

end api2mcp.store.service_token
