import Api2Mcp.Concurrent.Monitor
import Api2Mcp.Concurrent.Trace
import Api2Mcp.Server.Api.AuthProviders
import Api2Mcp.Store.Decisions
import Mathlib.Data.Fin.VecNotation

namespace api2mcp.server.api.auth_providers

open relational concurrent except
open api2mcp.model api2mcp.entity api2mcp.store api2mcp.pack api2mcp.store.auth_provider

section

variable {ι : Type} [DecidableEq ι] (crate : net.UrlCrate) (owner_id : Uuid) (slug : Slug)
  (bodies : ι → AuthProviderUpdate)

/-- Any number of `PUT`s of one provider. -/
def putting (db : Db) : Pool ι Stmt Db (Except ApiError AuthProvider) where
  store := db
  task i := update crate owner_id slug.as_str (bodies i)

/-- A turn at which a write is committed and not rolled back. -/
def TakesEffect {α : Type} (p : Pool ι Stmt Db α) (i : ι) : Bool :=
  match p.turn i with
  | some (.commit write) => (write.apply p.store.rows).isOk
  | _ => false

/-- The credential that a body's own value stands for. -/
def supplied (body : AuthProviderUpdate) : Option CredentialSource :=
  body.credential_value.map fun value => .Stored (if value = "" then none else some ⟨value⟩)

/-- The credential after a turn, where only an update that supplies one changes
it. -/
def rotate {α : Type} (credential : CredentialSource) (p : Pool ι Stmt Db α) (i : ι) : CredentialSource :=
  if TakesEffect p i then (supplied (bodies i)).getD credential else credential

/-- An update without a credential of its own is about to write the one that is
stored. -/
def CarriesCurrent {α : Type} (p : Pool ι Stmt Db α) (i : ι) : Prop :=
  TakesEffect p i = true → supplied (bodies i) = none → ∀ provider id service_id,
    p.turn i = some (.commit (.update_auth_provider provider id service_id)) →
      credentialOf owner_id slug p.store.rows = some provider.credential

/-- Whenever an update that supplies a credential takes effect, those that
supply none have not begun or have returned. -/
def RotatesApart {α : Type} (p : Pool ι Stmt Db α) (sched : List ι) : Prop :=
  ∀ n (hn : n < sched.length), TakesEffect (p.run (sched.take n)) sched[n] = true →
    supplied (bodies sched[n]) ≠ none → ∀ j ∈ sched.take n, supplied (bodies j) = none →
      ((p.run (sched.take n)).task j).result?.isSome = true

end

section

variable {ι : Type} [DecidableEq ι] {crate : net.UrlCrate} {owner_id : Uuid} {slug : Slug}
  {bodies : ι → AuthProviderUpdate}

/-- The credential a `PUT` over `existing` carries over. -/
def carried (existing : AuthProvider) : CredentialSource :=
  match existing.credential with
  | .Stored value => .Stored value
  | .Env _ => .Stored none

/-- The one write of a `PUT` over `existing`. -/
def PutOver (owner_id : Uuid) (slug : Slug) (body : AuthProviderUpdate) (existing : AuthProvider) (write : Write) :
    Prop :=
  ∃ provider id service_id, write = .update_auth_provider provider id service_id ∧
    provider.owner_id = owner_id ∧ provider.slug = slug ∧
    provider.credential = (supplied body).getD (carried existing)

theorem updated_ok {body : AuthProviderUpdate} {existing provider : AuthProvider} {service : Service}
    (hstored : body.definition.credential_env_key = none)
    (h : updated crate owner_id slug.as_str body existing service = .ok provider) :
    provider.owner_id = owner_id ∧ provider.slug = slug ∧
      provider.credential = (supplied body).getD (carried existing) := by
  simp only [updated, convert.parse_slug, Slug.from_str_as_str, convert.auth_provider_from_pack, hstored,
    bind_eq_ok, mapError_eq_ok, pure_eq_ok, Except.ok.injEq] at h
  obtain ⟨_, rfl, _, ⟨_, _, _, _, rfl⟩, _, _, rfl⟩ := h
  refine ⟨rfl, rfl, ?_⟩
  simp only [apply_credential_value, supplied, carried, Option.map_some]
  cases body.credential_value with
  | some value => rfl
  | none =>
    cases existing.credential with
    | Stored value => rfl
    | Env key => rfl

variable (crate owner_id slug) in
theorem update_existing_commits {body : AuthProviderUpdate} (existing : AuthProvider)
    (hstored : body.definition.credential_env_key = none) :
    (update_existing crate owner_id slug.as_str body existing).All
      (Commits (PutOver owner_id slug body existing)) := by
  unfold update_existing
  split
  · exact .done _
  split
  · exact .done _
  refine commits_fetch_bind fun found _ => ?_
  split
  · exact .done _
  · exact .done _
  split
  · exact .done _
  rename_i provider hupdated
  obtain ⟨howner, hslug, hcredential⟩ := updated_ok hstored hupdated
  refine (commits_write_after fun write hwrite => ?_).bind fun answer => ?_
  · rw [store.auth_provider.update, Query.yields_bind] at hwrite
    obtain ⟨service_id, _, hwrite⟩ := hwrite
    obtain ⟨id, rfl⟩ := yields_return hwrite
    exact ⟨provider, id, service_id, rfl, howner, hslug, hcredential⟩
  · split
    · exact .done _
    · exact .done _

theorem find_commits {α : Type} {ok : Write → Prop} {f : Except ApiError AuthProvider → DbTask α} {slug : String}
    (hf : ∀ found, (f found).All (Commits ok)) : (find owner_id slug >>= f).All (Commits ok) := by
  unfold find
  rw [bind_assoc]
  refine commits_fetch_bind fun answer _ => ?_
  split
  · exact hf _
  · split
    · exact hf _
    · exact hf _

theorem update_commits {body : AuthProviderUpdate} (hstored : body.definition.credential_env_key = none) :
    (update crate owner_id slug.as_str body).All
      (Commits fun write => ∃ existing, PutOver owner_id slug body existing write) := by
  unfold update
  refine find_commits fun found => ?_
  split
  · exact .done _
  · exact (update_existing_commits _ _ _ _ hstored).mono fun l write hcommits => hcommits.mono fun w hput => ⟨_, hput⟩

/-- Every call of the run is a `PUT` of the provider. -/
def Putting (owner_id : Uuid) (slug : Slug) (bodies : ι → AuthProviderUpdate)
    (p : Pool ι Stmt Db (Except ApiError AuthProvider)) : Prop :=
  ∀ i, (p.task i).All (Commits fun write => ∃ existing, PutOver owner_id slug (bodies i) existing write)

theorem Putting.step {p : Pool ι Stmt Db (Except ApiError AuthProvider)} (h : Putting owner_id slug bodies p)
    (i : ι) : Putting owner_id slug bodies (p.step i) := by
  refine Pool.step_inv h fun l ready write next htask _ j => ?_
  by_cases hij : j = i
  · subst hij
    have hi := h j
    rw [htask] at hi
    cases hi with
    | stmt _ hnext => simpa using hnext p.store
  · simpa [hij] using h j

/-- A turn leaves the credential alone, or the write that takes effect at it
puts its own in place. -/
theorem Putting.turn {p : Pool ι Stmt Db (Except ApiError AuthProvider)} (h : Putting owner_id slug bodies p)
    (i : ι) :
    (TakesEffect p i = false ∧ (p.step i).store.rows = p.store.rows) ∨
      (TakesEffect p i = true ∧ ∃ provider id service_id existing,
        p.turn i = some (.commit (.update_auth_provider provider id service_id)) ∧
          provider.credential = (supplied (bodies i)).getD (carried existing) ∧
          credentialOf owner_id slug (p.step i).store.rows = some provider.credential) := by
  obtain ⟨hnone, hstep⟩ | ⟨l, ready, write, next, hturn, htask, hstep⟩ := p.turn_cases i
  · left
    rw [TakesEffect, hnone, hstep]
    exact ⟨rfl, rfl⟩
  have hi := h i
  rw [htask] at hi
  cases hi with
  | stmt hcommits _ =>
    rw [hstep]
    obtain ⟨hrows, happly⟩ | ⟨w, rows, ⟨existing, provider, id, service_id, rfl, rfl, rfl, hcredential⟩, rfl,
      happly, hrows⟩ := hcommits.cases p.store
    · left
      refine ⟨?_, hrows⟩
      rw [TakesEffect, hturn]
      split
      · rename_i w hlabel
        cases hw : w.apply p.store.rows with
        | error e => rfl
        | ok rows => exact absurd hw (happly w rows (Option.some.inj hlabel))
      · rfl
    · right
      refine ⟨?_, provider, id, service_id, existing, hturn, hcredential, ?_⟩
      · rw [TakesEffect, hturn]
        simp only [happly]
        rfl
      · rw [hrows]
        exact credentialOf_set happly

/-- One turn keeps the credential right exactly when what it writes, if it
writes one it was not given, is the one that is stored. -/
theorem Putting.step_iff {p : Pool ι Stmt Db (Except ApiError AuthProvider)} (h : Putting owner_id slug bodies p)
    {credential : CredentialSource} (hnow : credentialOf owner_id slug p.store.rows = some credential) (i : ι) :
    credentialOf owner_id slug (p.step i).store.rows = some (rotate bodies credential p i) ↔
      CarriesCurrent owner_id slug bodies p i := by
  obtain ⟨hnone, hrows⟩ | ⟨heffect, provider, id, service_id, existing, hturn, hcredential, hafter⟩ := h.turn i
  · rw [hrows, hnow, rotate, hnone]
    refine iff_of_true rfl fun htrue => ?_
    rw [hnone] at htrue
    cases htrue
  · rw [hafter, rotate, if_pos heffect, Option.some.injEq]
    cases hsupplied : supplied (bodies i) with
    | some own =>
      rw [hcredential, hsupplied]
      refine iff_of_true rfl fun _ hnone => ?_
      rw [hsupplied] at hnone
      cases hnone
    | none =>
      rw [Option.getD_none]
      constructor
      · intro hsame _ _ provider' id' service_id' hturn'
        rw [hturn] at hturn'
        cases hturn'
        rw [hnow, hsame]
      · intro hcurrent
        have hstored := hcurrent heffect hsupplied provider id service_id hturn
        rw [hnow] at hstored
        exact (Option.some.inj hstored).symm

/-- The run: the credential is right in every state reached exactly when every
turn keeps it right. -/
theorem Putting.run_iff {p : Pool ι Stmt Db (Except ApiError AuthProvider)} (h : Putting owner_id slug bodies p)
    {credential : CredentialSource} (hnow : credentialOf owner_id slug p.store.rows = some credential)
    (sched : List ι) :
    (∀ n, credentialOf owner_id slug (p.run (sched.take n)).store.rows =
        some (p.watch (rotate bodies) credential (sched.take n))) ↔
      p.Along (CarriesCurrent owner_id slug bodies) sched := by
  induction sched generalizing p credential with
  | nil =>
    refine iff_of_true (fun n => ?_) trivial
    rw [List.take_nil]
    exact hnow
  | cons i sched ih =>
    rw [Pool.along_cons, ← h.step_iff hnow i]
    constructor
    · intro hright
      have hfirst : credentialOf owner_id slug (p.step i).store.rows = some (rotate bodies credential p i) :=
        hright 1
      exact ⟨hfirst, (ih (h.step i) hfirst).mp fun n => hright (n + 1)⟩
    · rintro ⟨hfirst, hrest⟩ n
      cases n with
      | zero => exact hnow
      | succ n => exact (ih (h.step i) hfirst).mpr hrest n

variable (crate owner_id slug) in
theorem putting_putting (hstored : ∀ i, (bodies i).definition.credential_env_key = none) (db : Db) :
    Putting owner_id slug bodies (putting crate owner_id slug bodies db) :=
  fun i => update_commits (hstored i)

theorem find_reads (write : Write) : (find owner_id slug.as_str).All fun l _ => l ≠ .commit write := by
  unfold find
  refine (Query.all_task nofun Db.rows _).bind fun answer => ?_
  split
  · exact .done _
  · split
    · exact .done _
    · exact .done _

/-- What `find` answers is the provider as some `SELECT` saw it meanwhile. -/
theorem find_ran {st : Nat → Db} {n m : Nat} {existing : AuthProvider}
    (hran : Task.Ran st n (find owner_id slug.as_str) m (.done (.ok existing))) :
    ∃ k, n ≤ k ∧ k < m ∧ credentialOf owner_id slug (st k).rows = some existing.credential := by
  unfold find at hran
  obtain ⟨m', answer, hfetch, hrest⟩ := hran.bind
  have hsees := hfetch.query
  split at hrest
  · rw [Task.pure_eq, Task.ran_done] at hrest
    cases hrest.2
  rename_i all
  split at hrest
  · rename_i provider hfind
    rw [Task.pure_eq, Task.ran_done] at hrest
    obtain ⟨hle, hsame⟩ := hrest
    cases hsame
    obtain ⟨rows, ⟨k, hnk, hkm, rfl⟩, hcredential⟩ := list_all_sees hsees (List.mem_of_find?_eq_some hfind)
    have hmatch := List.find?_some hfind
    have hslug : existing.slug = slug := Slug.ext_str (by simpa using hmatch)
    rw [hslug] at hcredential
    exact ⟨k, hnk, by omega, hcredential⟩
  · rw [Task.pure_eq, Task.ran_done] at hrest
    cases hrest.2

/-- What a `PUT` that supplies no credential is about to write was stored at
some time since its first turn. -/
theorem update_ran {st : Nat → Db} {n m : Nat} {body : AuthProviderUpdate} {provider : AuthProvider}
    {id service_id : Uuid} {ready : Db → Bool} {write : Db → Db} {next : Db → DbTask (Except ApiError AuthProvider)}
    (hstored : body.definition.credential_env_key = none) (hnone : supplied body = none)
    (hran : Task.Ran st n (update crate owner_id slug.as_str body) m
      (.stmt (.commit (.update_auth_provider provider id service_id)) ready write next)) :
    ∃ k existing, n ≤ k ∧ k < m ∧ credentialOf owner_id slug (st k).rows = some existing.credential ∧
      provider.credential = carried existing := by
  unfold update at hran
  obtain ⟨k, found, hfind, hrest⟩ := hran.bind_to (find_reads _)
  have hkm := hrest.le
  cases found with
  | error e => cases hrest
  | ok existing =>
    obtain ⟨k', hnk', hk', hcredential⟩ := find_ran hfind
    have hall := (update_existing_commits crate owner_id slug existing
      hstored).ran hrest
    cases hall with
    | stmt hcommits _ =>
      obtain ⟨⟨provider', _, _, hsame, _, _, hwritten⟩, _⟩ := hcommits
      cases hsame
      rw [hnone, Option.getD_none] at hwritten
      exact ⟨k', existing, hnk', by omega, hcredential, hwritten⟩

/-- The credential stays what it is while only updates take effect that supply none. -/
theorem watch_unchanged {p : Pool ι Stmt Db (Except ApiError AuthProvider)} {credential : CredentialSource}
    {sched : List ι} {k n : Nat} (hkn : k ≤ n) (hn : n ≤ sched.length)
    (hquiet : ∀ m (hm : m < sched.length), k ≤ m → m < n → TakesEffect (p.run (sched.take m)) sched[m] = true →
      supplied (bodies sched[m]) = none) :
    p.watch (rotate bodies) credential (sched.take n) = p.watch (rotate bodies) credential (sched.take k) := by
  induction n with
  | zero =>
    obtain rfl := Nat.le_zero.mp hkn
    rfl
  | succ n ih =>
    obtain rfl | hlt := Nat.eq_or_lt_of_le hkn
    · rfl
    · have hbefore := ih (by omega) (by omega) fun m hm hkm hmn => hquiet m hm hkm (by omega)
      rw [Pool.watch_take_succ _ _ (by omega : n < sched.length), rotate]
      split
      · rename_i heffect
        rw [hquiet n (by omega) (by omega) (by omega) heffect, Option.getD_none, hbefore]
      · exact hbefore

variable (bodies) in
theorem watch_stored (p : Pool ι Stmt Db (Except ApiError AuthProvider)) (value : Option Secret) (sched : List ι) :
    ∃ value', p.watch (rotate bodies) (.Stored value) sched = .Stored value' := by
  induction sched generalizing p value with
  | nil => exact ⟨value, rfl⟩
  | cons i sched ih =>
    have hone : ∃ value', rotate bodies (.Stored value) p i = .Stored value' := by
      unfold rotate supplied
      split
      · cases (bodies i).credential_value with
        | some text => exact ⟨_, rfl⟩
        | none => exact ⟨value, rfl⟩
      · exact ⟨value, rfl⟩
    obtain ⟨value', hvalue⟩ := hone
    rw [Pool.watch_cons, hvalue]
    exact ih _ value'

/-- A credential that no supplied one overtakes is still the stored one when it
is written back. -/
theorem along_of_rotatesApart (hstored : ∀ i, (bodies i).definition.credential_env_key = none) {db : Db}
    {value : Option Secret} (hdb : credentialOf owner_id slug db.rows = some (.Stored value)) {sched : List ι}
    (hapart : RotatesApart bodies (putting crate owner_id slug bodies db) sched) :
    (putting crate owner_id slug bodies db).Along (CarriesCurrent owner_id slug bodies) sched := by
  have hputting := putting_putting crate owner_id slug hstored db
  generalize hp : putting crate owner_id slug bodies db = p at hapart hputting ⊢
  have hstart : ∀ j, p.task j = update crate owner_id slug.as_str (bodies j) := fun j => by rw [← hp]; rfl
  have hnow : credentialOf owner_id slug p.store.rows = some (.Stored value) := by
    rw [← hp]
    exact hdb
  have hprefix : ∀ n ≤ sched.length, p.Along (CarriesCurrent owner_id slug bodies) (sched.take n) := by
    intro n
    induction n with
    | zero => exact fun _ => trivial
    | succ n ih =>
      intro hn
      have hlt : n < sched.length := hn
      have hbefore := ih (Nat.le_of_lt hlt)
      have hright := (hputting.run_iff hnow (sched.take n)).mpr hbefore
      rw [List.take_succ_eq_append_getElem hlt, Pool.along_append]
      refine ⟨hbefore, fun heffect hnone provider id service_id hturn => ?_, trivial⟩
      -- the turn is that of call `j`, which had its first one at `n₀`
      generalize hj : sched[n] = j at heffect hnone hturn
      have hmem : j ∈ sched := hj ▸ List.getElem_mem hlt
      have hlt₀ : sched.idxOf j < sched.length := List.idxOf_lt_length_iff.mpr hmem
      have hfirst : sched[sched.idxOf j] = j := List.getElem_idxOf hlt₀
      have hnotMem : j ∉ sched.take (sched.idxOf j) := by
        rw [List.mem_take_iff_idxOf_lt hmem]
        exact Nat.lt_irrefl _
      have hn₀ : sched.idxOf j ≤ n := by
        refine Nat.le_of_lt_succ ((List.mem_take_iff_idxOf_lt hmem).mp ?_)
        rw [List.take_succ_eq_append_getElem hlt, hj]
        exact List.mem_append_right _ (List.mem_singleton_self j)
      generalize sched.idxOf j = n₀ at hlt₀ hfirst hnotMem hn₀
      obtain ⟨l, ready, write, next, hlabel, htask, _⟩ := ((p.run (sched.take n)).turn_cases j).resolve_left
        fun hnone => by rw [hturn] at hnone; cases hnone.1
      obtain rfl : l = _ := Option.some.inj (hlabel.symm.trans hturn)
      have hran := p.ran_between sched j (by omega : n₀ ≤ n) (Nat.le_of_lt hlt)
      rw [p.run_task_of_notMem hnotMem, hstart, htask] at hran
      obtain ⟨k, existing, hn₀k, hkn, hread, hwritten⟩ := update_ran (hstored j) hnone hran
      have hquiet : ∀ m (hm : m < sched.length), k ≤ m → m < n → TakesEffect (p.run (sched.take m)) sched[m] = true →
          supplied (bodies sched[m]) = none := by
        intro m hm hkm hmn heffect
        by_contra hsupplies
        obtain rfl | hlater := Nat.eq_or_lt_of_le (Nat.le_trans hn₀k hkm)
        · rw [hfirst] at hsupplies
          exact hsupplies hnone
        · have hbegun : j ∈ sched.take m := by
            rw [← hfirst]
            exact List.mem_take_iff_getElem.mpr ⟨n₀, by omega, rfl⟩
          obtain ⟨answer, hdone⟩ := Option.isSome_iff_exists.mp (hapart m hm heffect hsupplies j hbegun hnone)
          have hstill := Pool.result?_run hdone ((sched.drop m).take (n - m))
          rw [← Pool.run_append, ← List.take_add, Nat.add_sub_cancel' (Nat.le_of_lt hmn), htask] at hstill
          cases hstill
      have hright : ∀ m ≤ n, credentialOf owner_id slug (p.run (sched.take m)).store.rows =
          some (p.watch (rotate bodies) (.Stored value) (sched.take m)) := by
        intro m hm
        have hm' := hright m
        rwa [List.take_take, Nat.min_eq_left hm] at hm'
      rw [hright n (Nat.le_refl n), watch_unchanged (Nat.le_of_lt hkn) (Nat.le_of_lt hlt) hquiet,
        ← hright k (Nat.le_of_lt hkn)]
      obtain ⟨value', hvalue⟩ := watch_stored bodies p value (sched.take k)
      have hstill := hright k (Nat.le_of_lt hkn)
      rw [hvalue] at hstill
      rw [Pool.stores, hstill, Option.some.injEq] at hread
      rw [hstill, hwritten, carried, ← hread]
  have hall := hprefix sched.length (Nat.le_refl _)
  rwa [List.take_length] at hall

end

/-- Whatever the updates and their order, the provider holds in every state the
credential that was last supplied by one that took effect, or the original,
exactly when every credential carried over is the one it is written over; it is
when credentials are supplied apart from the updates that supply none. -/
theorem credential_kept_iff {ι : Type} [DecidableEq ι] (crate : net.UrlCrate) (owner_id : Uuid) (slug : Slug)
    (bodies : ι → AuthProviderUpdate) (hstored : ∀ i, (bodies i).definition.credential_env_key = none) (db : Db)
    (value : Option Secret) (hdb : credentialOf owner_id slug db.rows = some (.Stored value)) (sched : List ι) :
    let p := putting crate owner_id slug bodies db
    ((∀ n, credentialOf owner_id slug (p.run (sched.take n)).store.rows =
        some (p.watch (rotate bodies) (.Stored value) (sched.take n))) ↔
      p.Along (CarriesCurrent owner_id slug bodies) sched) ∧
    (RotatesApart bodies p sched → p.Along (CarriesCurrent owner_id slug bodies) sched) :=
  ⟨(putting_putting _ _ _ hstored db).run_iff hdb sched, along_of_rotatesApart hstored hdb⟩

/-- Owner 1's provider, with a credential of its own. -/
def sampleDb : Db where
  rows := {
    services := .single sample.service
    auth_providers := .single { sample.auth_provider with credential := .Stored (some ⟨"old"⟩) } }
  generation := some 1
  meta_locked := false
  now := 0
  log := []

def sampleCrate : net.UrlCrate :=
  { parse := fun s =>
      if s = "https://crm.example" then .ok sample.service.base_url else .error "relative URL without a base"
    join := fun _ _ => .error "relative URL without a base"
    form_parse := fun _ => []
    form_serialize := fun _ => "" }

def sampleBody (header_name : String) (credential_value : Option String) : AuthProviderUpdate where
  definition := {
    service := "crm"
    kind := .StaticHeader
    credential_env_key := none
    header_name
    value_template := "{token}"
    scopes := []
    token_url := none
    bound_origin := "https://crm.example" }
  credential_value

/-- A rotation, and an edit of the header's name. -/
def sampleBodies : Fin 2 → AuthProviderUpdate :=
  ![sampleBody "authorization" (some "new"), sampleBody "x-api-key" none]

/-- One after the other, both take effect. -/
theorem credential_kept_in_turn :
    let p := putting sampleCrate 1 sample.crm sampleBodies sampleDb
    let sched := List.replicate 11 0 ++ List.replicate 11 1
    p.watch (rotate sampleBodies) (.Stored (some ⟨"old"⟩)) sched = .Stored (some ⟨"new"⟩) ∧
      ∀ n, credentialOf 1 sample.crm (p.run (sched.take n)).store.rows =
        some (p.watch (rotate sampleBodies) (.Stored (some ⟨"old"⟩)) (sched.take n)) := by
  have hstored : ∀ i, (sampleBodies i).definition.credential_env_key = none := by
    intro i
    match i with
    | 0 => rfl
    | 1 => rfl
  obtain ⟨hkept, hapart⟩ := credential_kept_iff sampleCrate 1 sample.crm sampleBodies hstored sampleDb
    (some ⟨"old"⟩) rfl (List.replicate 11 0 ++ List.replicate 11 1)
  refine ⟨rfl, hkept.mpr (hapart fun n hn _ hsupplies j hj hnone => ?_)⟩
  have hturns : ∀ n, ∀ hn : n < (List.replicate 11 (0 : Fin 2) ++ List.replicate 11 1).length,
      (List.replicate 11 (0 : Fin 2) ++ List.replicate 11 1)[n] = 0 →
        ∀ j ∈ (List.replicate 11 (0 : Fin 2) ++ List.replicate 11 1).take n, j = 0 := by
    decide
  have hzero : (List.replicate 11 (0 : Fin 2) ++ List.replicate 11 1)[n] = 0 := by
    match hi : (List.replicate 11 (0 : Fin 2) ++ List.replicate 11 1)[n] with
    | 0 => rfl
    | 1 =>
      rw [hi] at hsupplies
      exact absurd rfl hsupplies
  rw [hturns n hn hzero j hj] at hnone
  cases hnone

/-- The edit reads the provider before the rotation and writes it back after:
the credential that was replaced is stored again. -/
theorem stale_credential_restored :
    let p := putting sampleCrate 1 sample.crm sampleBodies sampleDb
    let sched := List.replicate 3 1 ++ List.replicate 11 0 ++ List.replicate 8 1
    credentialOf 1 sample.crm (p.run sched).store.rows = some (.Stored (some ⟨"old"⟩)) ∧
      p.watch (rotate sampleBodies) (.Stored (some ⟨"old"⟩)) sched = .Stored (some ⟨"new"⟩) ∧
      ((p.run sched).task 0).result?.isSome = true ∧ ((p.run sched).task 1).result?.isSome = true := by
  exact ⟨rfl, rfl, rfl, rfl⟩

end api2mcp.server.api.auth_providers
