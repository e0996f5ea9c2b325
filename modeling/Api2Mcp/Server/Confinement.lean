import Api2Mcp.Server.Mcp.Endpoint
import Api2Mcp.Store.ServiceTokenRuns
import Mathlib.Data.Fin.VecNotation

namespace api2mcp.server.confinement

open relational btree concurrent
open api2mcp.model api2mcp.entity api2mcp.store api2mcp.store.service_token
open api2mcp.resolve api2mcp.server.mcp

/-- The calls that meet on the tokens: minting, resolving, on its own or for a
request, revoking, and the definition writes, creating, updating and deleting
endpoints among them. The clock moves between statements. -/
inductive Call where
  | mint (args : MintArgs)
  | resolve (plaintext : String)
  | authenticate (oauth_caller : String → Option Caller) (headers : net.HeaderMap)
  | revoke (id : Uuid)
  | define (q : Fetch Write)
  | tick (span : Int)

inductive Reply where
  | minted (answer : Except StoreError MintedServiceToken)
  | resolved (answer : Except StoreError (Option ServiceTokenRecord))
  | authenticated (answer : Except BearerChallenge ResolvedCredential)
  | revoked (answer : Except StoreError Unit)
  | defined (answer : Except StoreError Unit)
  | ticked

section

variable (sha256_hex : String → String) (base_url : String)

def Call.task : Call → DbTask Reply
  | mint args => return .minted (← service_token.mint sha256_hex args)
  | resolve plaintext => return .resolved (← service_token.resolve sha256_hex plaintext)
  | authenticate oauth_caller headers =>
    return .authenticated (← authenticate_mcp sha256_hex base_url oauth_caller headers)
  | revoke id => return .revoked (← service_token.revoke id)
  | define q => return .defined (← write_after q)
  | tick span => do
    service_token.tick span
    return .ticked

theorem keepsAll_authenticate (oauth_caller : String → Option Caller) (headers : net.HeaderMap) :
    KeepsAll (authenticate_mcp sha256_hex base_url oauth_caller headers) := by
  unfold authenticate_mcp
  split
  · exact .done _
  · split
    · exact .done _
    · refine (keepsAll_resolve _).bind fun answer => ?_
      split <;> exact .done _

theorem keepsAll_task (call : Call) : KeepsAll (call.task sha256_hex base_url) := by
  cases call with
  | mint args => exact (keepsAll_mint args).bind fun _ => .done _
  | resolve plaintext => exact (keepsAll_resolve plaintext).bind fun _ => .done _
  | authenticate oauth_caller headers =>
    exact (keepsAll_authenticate _ _ oauth_caller headers).bind fun _ => .done _
  | revoke id => exact (keepsAll_revoke id).bind fun _ => .done _
  | define q => exact (keepsAll_write_after q).bind fun _ => .done _
  | tick span => exact (keepsAll_tick span).bind fun _ => .done _

variable {ι : Type} [DecidableEq ι] (calls : ι → Call) (db : Db) (sched : List ι)

/-- Any number of calls at work on one database. -/
def pool : Pool ι Stmt Db Reply := ⟨db, fun i => (calls i).task sha256_hex base_url⟩

/-- The database after the first `n` turns. -/
abbrev after (n : Nat) : Db := (pool sha256_hex base_url calls db).stores sched n

/-- By time `n` the call has returned. -/
def Returned (n : Nat) (i : ι) (reply : Reply) : Prop :=
  (((pool sha256_hex base_url calls db).run (sched.take n)).task i).result? = some reply

/-- What lets a token reach the slug of one of its grants: the endpoint row `e`
of that slug, there when the grants were read, and granted all along. -/
structure Granted (n : Nat) (id : Uuid) (slug : Slug) (e : Uuid) : Prop where
  existed : ∃ k, n ≤ k ∧ k < sched.length ∧
    ∃ r ∈ (after sha256_hex base_url calls db sched k).rows.endpoints.rows, r.id = e ∧ r.slug = slug
  kept : ∃ k, n ≤ k ∧ k < sched.length ∧ ∀ k' ≤ k,
    (∃ r ∈ (after sha256_hex base_url calls db sched k').rows.service_tokens.rows, r.id = id) →
      ⟨id, e⟩ ∈ (after sha256_hex base_url calls db sched k').rows.service_token_endpoints.rows
  minted : ∀ i args minted, calls i = .mint args →
    Returned sha256_hex base_url calls db sched sched.length i (.minted (.ok minted)) → args.id = id →
      ∃ k, k < sched.length ∧ ∃ r ∈ (after sha256_hex base_url calls db sched k).rows.endpoints.rows,
        r.id = e ∧ r.owner_id = args.owner_id ∧ r.slug ∈ args.endpoints

/-- What is so of a token given to a call that had no turn before time `n`. -/
structure Confined (n : Nat) (record : ServiceTokenRecord) : Prop where
  unrevoked : ∀ i id, calls i = .revoke id →
    Returned sha256_hex base_url calls db sched n i (.revoked (.ok ())) → record.id ≠ id
  unexpired : ∀ e, record.expires_at = some e →
    ∃ k, n ≤ k ∧ k < sched.length ∧ (after sha256_hex base_url calls db sched k).now < e
  restricted : ∀ i args minted, calls i = .mint args →
    Returned sha256_hex base_url calls db sched sched.length i (.minted (.ok minted)) →
      args.id = record.id → record.restricted = !args.endpoints.isEmpty
  granted : ∀ slug ∈ record.endpoints, ∃ e,
    Granted sha256_hex base_url calls db sched n record.id slug e

end

section

variable {sha256_hex : String → String} {base_url : String} {ι : Type} [DecidableEq ι]
  {calls : ι → Call} {db : Db} {sched : List ι}

theorem keeps_after {n m : Nat} (hle : n ≤ m) :
    Keeps (after sha256_hex base_url calls db sched n).rows
      (after sha256_hex base_url calls db sched m).rows := by
  have hsteps : (pool sha256_hex base_url calls db).Steps fun a b : Db => Keeps a.rows b.rows :=
    fun i => keepsAll_task sha256_hex base_url (calls i)
  exact hsteps.stores (fun db => .refl db.rows) (fun hab hbc => hab.trans hbc) sched hle

/-- A call that returned ran up to then. -/
theorem Returned.ran {n : Nat} {i : ι} {reply : Reply} (hn : n ≤ sched.length)
    (hreturned : Returned sha256_hex base_url calls db sched n i reply) :
    Task.Ran (after sha256_hex base_url calls db sched) 0 ((calls i).task sha256_hex base_url) n
      (.done reply) := by
  have hran := (pool sha256_hex base_url calls db).ran_between sched i (Nat.zero_le n) hn
  rwa [Task.result?_eq_some.mp hreturned] at hran

/-- A call that had no turn before time `n` ran since then. -/
theorem Returned.ran_since {n : Nat} {i : ι} {reply : Reply} (hn : n ≤ sched.length)
    (hi : i ∉ sched.take n)
    (hreturned : Returned sha256_hex base_url calls db sched sched.length i reply) :
    Task.Ran (after sha256_hex base_url calls db sched) n ((calls i).task sha256_hex base_url)
      sched.length (.done reply) := by
  have hran := (pool sha256_hex base_url calls db).ran_since sched hn hi
  rw [Returned, List.take_length, Task.result?_eq_some] at hreturned
  rwa [hreturned] at hran

/-- The turn at which a mint that returned inserted its token. -/
theorem minted_at {n : Nat} {i : ι} {args : MintArgs} {minted : MintedServiceToken}
    (hn : n ≤ sched.length) (hcall : calls i = .mint args)
    (hreturned : Returned sha256_hex base_url calls db sched n i (.minted (.ok minted))) :
    ∃ k ids, k < n ∧
      service_token.insert (mintedRow sha256_hex args (after sha256_hex base_url calls db sched k).now)
        ids (after sha256_hex base_url calls db sched k).rows =
          .ok (after sha256_hex base_url calls db sched (k + 1)).rows ∧
      ∀ e ∈ ids, ∃ c, c < k ∧ ∃ r ∈ (after sha256_hex base_url calls db sched c).rows.endpoints.rows,
        r.id = e ∧ r.owner_id = args.owner_id ∧ r.slug ∈ args.endpoints := by
  have hran := hreturned.ran hn
  rw [hcall] at hran
  obtain ⟨x, answer, hmint, hran⟩ := hran.bind
  obtain ⟨hxn, h⟩ := Task.ran_done.mp hran
  cases h
  obtain ⟨k, ids, _, hkx, hinsert, hids⟩ := mint_ran hmint
  refine ⟨k, ids, by omega, hinsert, fun e he => ?_⟩
  obtain ⟨rows, ⟨c, _, hck, rfl⟩, r, hr, hkey⟩ := resolve_endpoint_ids_yields hids e he
  exact ⟨c, hck, r, hr, hkey⟩

/-- A token that is there was minted before, with the restriction it keeps. -/
theorem minted_before {args : MintArgs} {now : DateTime} {ids : List Uuid} {k a : Nat}
    (hinsert : service_token.insert (mintedRow sha256_hex args now) ids
      (after sha256_hex base_url calls db sched k).rows =
        .ok (after sha256_hex base_url calls db sched (k + 1)).rows)
    {row : service_tokens.Model}
    (hrow : row ∈ (after sha256_hex base_url calls db sched a).rows.service_tokens.rows)
    (hid : row.id = args.id) : k < a ∧ row.restricted = !args.endpoints.isEmpty := by
  obtain ⟨hnew, htokens, _⟩ := insert_spec hinsert
  have hka : k < a := by
    by_contra hle
    obtain ⟨r, hr, hrid, _⟩ := (keeps_after (Nat.le_of_not_lt hle)).token row hrow
    exact hnew r hr (hrid.trans hid)
  obtain ⟨r, hr, hrid, hrestricted, _⟩ :=
    (keeps_after (Nat.succ_le_of_lt hka)).token _ ((htokens _).mpr (.inr rfl))
  obtain rfl := service_tokens.eq_of_id hrow hr (hid.trans hrid.symm)
  exact ⟨hka, hrestricted⟩

/-- What a minted token is granted, it was granted when it was minted. -/
theorem granted_at_mint (hnamed : GrantsNamed db.rows) {args : MintArgs} {now : DateTime}
    {ids : List Uuid} {k c : Nat}
    (hinsert : service_token.insert (mintedRow sha256_hex args now) ids
      (after sha256_hex base_url calls db sched k).rows =
        .ok (after sha256_hex base_url calls db sched (k + 1)).rows) (hkc : k < c) {e : Uuid}
    (hgrant : ⟨args.id, e⟩ ∈ (after sha256_hex base_url calls db sched c).rows.service_token_endpoints.rows) :
    e ∈ ids := by
  obtain ⟨hnew, htokens, hgrants⟩ := insert_spec hinsert
  obtain hthen | hnone := (keeps_after (Nat.succ_le_of_lt hkc)).grant _ hgrant
  · obtain hold | ⟨_, he⟩ := (hgrants _).mp hthen
    · obtain ⟨r, hr, hrid⟩ := (keeps_after (Nat.zero_le k)).named hnamed _ hold
      exact absurd hrid (hnew r hr)
    · exact he
  · exact absurd rfl (hnone _ ((htokens _).mpr (.inr rfl)))

/-- Resolving confines the token it gives out. -/
theorem confined_of_ran (hnamed : GrantsNamed db.rows) {n : Nat} (hn : n ≤ sched.length)
    {plaintext : String} {record : ServiceTokenRecord}
    (hran : Task.Ran (after sha256_hex base_url calls db sched) n
      (service_token.resolve sha256_hex plaintext) sched.length (.done (.ok (some record)))) :
    Confined sha256_hex base_url calls db sched n record := by
  obtain ⟨a, row, hread⟩ := resolve_ran hran
  have hna := hread.since
  refine ⟨fun i id hcall hreturned hid => ?_, hread.unexpired, ?_, fun slug hslug => ?_⟩
  · -- the revocation was over by `n`, so the row that was read since then had it
    have hrevoke := hreturned.ran hn
    rw [hcall] at hrevoke
    obtain ⟨x, answer, hrevoke, hreply⟩ := hrevoke.bind
    obtain ⟨hxn, h⟩ := Task.ran_done.mp hreply
    cases h
    obtain ⟨k, _, hkx, r, hr, hrid, hrevoked⟩ := revoke_ran hrevoke
    have hka : k + 1 ≤ a := by omega
    obtain ⟨r', hr', hrid', _, hrevoked'⟩ := (keeps_after hka).token r hr
    have hsame : r'.id = row.id := by rw [hrid', hrid, ← hid, hread.id]
    obtain rfl := service_tokens.eq_of_id hr' hread.found hsame
    simpa [hread.unrevoked] using hrevoked' hrevoked
  · intro i args minted hcall hreturned hid
    obtain ⟨k, ids, _, hinsert, _⟩ := minted_at (Nat.le_refl _) hcall hreturned
    rw [hread.restricted]
    exact (minted_before hinsert hread.found (hread.id.symm.trans hid.symm)).2
  · obtain ⟨e, ⟨_, ⟨g, hag, hgm, rfl⟩, hgrant⟩, _, ⟨x, hax, hxm, rfl⟩, r, hr, hrid, hrslug⟩ :=
      load_endpoint_grants_yields hread.grants hslug
    refine ⟨e, ⟨x, by omega, hxm, r, hr, hrid, hrslug⟩, ⟨g, by omega, hgm, fun k hkg htoken => ?_⟩, ?_⟩
    · obtain hthen | hnone := (keeps_after hkg).grant _ hgrant
      · exact hthen
      · obtain ⟨t, ht, htid⟩ := htoken
        exact absurd htid (hnone t ht)
    · intro i args minted hcall hreturned hid
      obtain ⟨k, ids, hkn, hinsert, hids⟩ := minted_at (Nat.le_refl _) hcall hreturned
      obtain ⟨hka, _⟩ := minted_before hinsert hread.found (hread.id.symm.trans hid.symm)
      rw [← hid] at hgrant
      obtain ⟨c, hck, hnamed_then⟩ := hids e (granted_at_mint hnamed hinsert (by omega) hgrant)
      exact ⟨c, by omega, hnamed_then⟩

/-- A credential is an OAuth caller's, or that of the token that was resolved. -/
theorem authenticate_ran {n m : Nat} {st : Nat → Db} {oauth_caller : String → Option Caller}
    {headers : net.HeaderMap} {cred : ResolvedCredential}
    (hran : Task.Ran st n (authenticate_mcp sha256_hex base_url oauth_caller headers) m
      (.done (.ok cred))) :
    (∃ token caller, bearer_token headers = some token ∧ oauth_caller token = some caller) ∨
      ∃ record, cred = credential_of record ∧ ∃ token,
        Task.Ran st n (service_token.resolve sha256_hex token) m (.done (.ok (some record))) := by
  unfold authenticate_mcp at hran
  split at hran
  · simp at hran
  rename_i token htoken
  split at hran
  · rename_i caller hcaller
    exact .inl ⟨token, caller, htoken, hcaller⟩
  obtain ⟨x, answer, hresolve, hran⟩ := hran.bind
  split at hran
  · rename_i record
    obtain ⟨hxm, h⟩ := Task.ran_done.mp hran
    obtain rfl : credential_of record = cred := by simpa using h
    exact .inr ⟨record, rfl, token, hresolve.until hxm⟩
  · simp at hran
  · simp at hran

/-- Service tokens are confined, whatever runs at the same time. A call that
begins once a revocation has returned is not given the token; one that is given
a token read a clock at which it had not expired; a minted token keeps the
restriction it was minted with, and a restricted one passes the grant check for
the slugs of endpoint rows it was granted when minted and has been ever since;
for any other slug the request is answered without a look at the database, as
it is for an endpoint that does not exist. -/
theorem confined (hnamed : GrantsNamed db.rows) (crate : net.UrlCrate) (json : serde_json.JsonCrate) :
    (∀ j plaintext n record, calls j = .resolve plaintext → n ≤ sched.length → j ∉ sched.take n →
      Returned sha256_hex base_url calls db sched sched.length j (.resolved (.ok (some record))) →
        Confined sha256_hex base_url calls db sched n record) ∧
    (∀ j oauth_caller headers n cred, calls j = .authenticate oauth_caller headers →
      n ≤ sched.length → j ∉ sched.take n →
      Returned sha256_hex base_url calls db sched sched.length j (.authenticated (.ok cred)) →
        (∃ token caller, bearer_token headers = some token ∧ oauth_caller token = some caller) ∨
        ∃ record, cred = credential_of record ∧ Confined sha256_hex base_url calls db sched n record) ∧
    (∀ i args minted n, calls i = .mint args → n ≤ sched.length →
      Returned sha256_hex base_url calls db sched n i (.minted (.ok minted)) →
        ∀ k, n ≤ k → ∃ r ∈ (after sha256_hex base_url calls db sched k).rows.service_tokens.rows,
          r.id = args.id ∧ r.restricted = !args.endpoints.isEmpty) ∧
    ∀ (record : ServiceTokenRecord) (slug : Slug), record.restricted = true →
      ((credential_of record).endpoint_grants.allows slug = true ↔ slug ∈ record.endpoints) ∧
      (slug ∉ record.endpoints → ∀ endpoint_slug caller, Slug.from_str endpoint_slug = .ok slug →
        (∀ req, ∃ response, dispatch_method crate json sha256_hex endpoint_slug caller
          (credential_of record).endpoint_grants req = .done (.respond response)) ∧
        ∀ id, resolve_plan crate json sha256_hex endpoint_slug caller
          (credential_of record).endpoint_grants id = .done (.error (.of_error id (-32001)
            (http.redact_message crate (ResolveError.EndpointNotFound slug.as_str).to_string)))) := by
  refine ⟨fun j plaintext n record hcall hn hj hreturned => ?_,
    fun j oauth_caller headers n cred hcall hn hj hreturned => ?_,
    fun i args minted n hcall hn hreturned k hnk => ?_, fun record slug hrestricted => ?_⟩
  · have hran := hreturned.ran_since hn hj
    rw [hcall] at hran
    obtain ⟨x, answer, hresolve, hreply⟩ := hran.bind
    obtain ⟨hx, h⟩ := Task.ran_done.mp hreply
    cases h
    exact confined_of_ran hnamed hn (hresolve.until hx)
  · have hran := hreturned.ran_since hn hj
    rw [hcall] at hran
    obtain ⟨x, answer, hauth, hreply⟩ := hran.bind
    obtain ⟨hx, h⟩ := Task.ran_done.mp hreply
    cases h
    obtain ⟨token, caller, hcaller⟩ | ⟨record, hcred, token, hresolve⟩ := authenticate_ran hauth
    · exact .inl ⟨token, caller, hcaller⟩
    · exact .inr ⟨record, hcred, confined_of_ran hnamed hn (hresolve.until hx)⟩
  · obtain ⟨x, ids, hxn, hinsert, _⟩ := minted_at hn hcall hreturned
    obtain ⟨_, htokens, _⟩ := insert_spec hinsert
    obtain ⟨r, hr, hrid, hrestricted, _⟩ :=
      (keeps_after (Nat.le_trans hxn hnk)).token _ ((htokens _).mpr (.inr rfl))
    exact ⟨r, hr, hrid, hrestricted⟩
  · have hallows : (credential_of record).endpoint_grants.allows slug = true ↔ slug ∈ record.endpoints := by
      simp [credential_of, hrestricted, EndpointGrants.allows]
    refine ⟨hallows, fun hslug endpoint_slug caller hparse => ?_⟩
    have hmiss : (credential_of record).endpoint_grants.allows slug = false := by
      rwa [← Bool.not_eq_true, hallows]
    exact ⟨fun req => dispatch_method_of_not_allowed crate json sha256_hex hparse hmiss,
      fun id => resolve_plan_of_not_allowed crate json sha256_hex hparse hmiss⟩

end

/-- Owner 1's token 7 for the plaintext `secret`, when hashing changes nothing. -/
def tokenRow (expires_at : Option DateTime) : service_tokens.Model where
  id := 7
  token_hash := "secret"
  token_prefix := "secret"
  owner_id := 1
  label := "ci"
  restricted := false
  control_plane := false
  last_used_at := none
  expires_at
  revoked_at := none
  created_at := 0

def tokenDb (expires_at : Option DateTime) : Db where
  rows := { service_tokens := .single (tokenRow expires_at) }
  generation := none
  meta_locked := false
  now := 0
  log := []

/-- A token minted for one endpoint, the endpoint deleted and made again under
its slug: the token is given out, and reaches nothing. -/
theorem confined_after_recreate :
    let slug := sample.crm
    let calls : Fin 4 → Call := ![.mint ⟨1, "ci", none, [slug], false, "secret", 7⟩,
      .define (endpoint.remove 1 slug),
      .define (endpoint.create (endpoint.to_model (sample.endpoint 10) [] []) 11), .resolve "secret"]
    let db : Db := ⟨{ endpoints := .single (sample.endpoint 10) }, none, false, 0, []⟩
    let sched := [0, 0, 0, 0, 0, 1, 1, 1, 1, 1, 2, 2, 2, 2, 2, 3, 3, 3, 3]
    let record : ServiceTokenRecord := ⟨7, "secret", 1, "ci", some 0, none, none, 0, true, [], false⟩
    Returned id "" calls db sched 19 3 (.resolved (.ok (some record))) ∧
      Confined id "" calls db sched 15 record := by
  refine ⟨rfl, (confined (fun g hg => by cases hg) default default).1
    3 "secret" 15 _ rfl (by decide) (by decide) rfl⟩

/-- A revocation may complete, or the expiry pass, between the statements of a
resolution, which then gives the token out all the same. -/
theorem ended_token_given_out :
    (let calls : Fin 2 → Call := ![.resolve "secret", .revoke 7]
     let sched := [0, 1, 1, 1, 0, 0, 0]
     Returned id "" calls (tokenDb none) sched 4 1 (.revoked (.ok ())) ∧
       (∀ reply, ¬ Returned id "" calls (tokenDb none) sched 4 0 reply) ∧
       ∃ record, record.id = 7 ∧
         Returned id "" calls (tokenDb none) sched 7 0 (.resolved (.ok (some record)))) ∧
    let calls : Fin 2 → Call := ![.resolve "secret", .tick 10]
    let sched := [0, 0, 1, 0, 0, 0]
    (∀ reply, ¬ Returned id "" calls (tokenDb (some 5)) sched 3 0 reply) ∧
      (after id "" calls (tokenDb (some 5)) sched 3).now = 10 ∧
      ∃ record, record.expires_at = some 5 ∧
        Returned id "" calls (tokenDb (some 5)) sched 6 0 (.resolved (.ok (some record))) := by
  refine ⟨⟨rfl, fun reply h => ?_, _, rfl, rfl⟩, fun reply h => ?_, rfl, _, rfl, rfl⟩
  · cases h
  · cases h

end api2mcp.server.confinement
