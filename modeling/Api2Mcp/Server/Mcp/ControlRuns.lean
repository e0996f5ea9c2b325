import Api2Mcp.Concurrent.Monitor
import Api2Mcp.Server.Mcp.Control
import Api2Mcp.Store.Decisions
import Api2Mcp.Store.Scope
import Mathlib.Data.Fin.VecNotation

namespace api2mcp.server.mcp.control

open relational btree concurrent
open api2mcp.model api2mcp.entity api2mcp.store api2mcp.server.api

/-- Control-plane tool calls, and the writes of people. -/
inductive Call where
  | control (tool : Tool)
  | session (write : Fetch Write)

def Call.task (validate_change : Validator) : Call → DbTask (Except ApiError Unit)
  | control tool => dispatch validate_change tool
  | session write => do
    match ← write_after write with
    | .error e => return .error (.from_store e)
    | .ok () => return .ok ()

/-- The scope sessions gave each endpoint, to the last one. -/
abbrev Given := EndpointKey → Set Slug

/-- Whether some endpoint is found by the key. -/
def Taken (rows : Rows) (key : EndpointKey) : Prop := ∃ e ∈ rows.endpoints.rows, endpoint.key e = key

/-- The scope of the endpoint that is found by the key. -/
def scopeAt (rows : Rows) (key : EndpointKey) : Set Slug :=
  { slug | ∃ e ∈ rows.endpoints.rows, endpoint.key e = key ∧ slug ∈ scope rows e.id }

/-- A write is about an endpoint if it stores it, or if it brings it, takes it
away or changes its scope by what it deletes. -/
def Concerns (write : Write) (before after : Rows) (key : EndpointKey) : Prop :=
  (∃ ep id, (write = .create_endpoint ep id ∨ write = .update_endpoint ep id) ∧
    key = (ep.owner_id, ep.slug)) ∨
  ¬(Taken before key ↔ Taken after key) ∨ scopeAt before key ≠ scopeAt after key

/-- What is given once a session's write has committed. -/
def give (write : Write) (before after : Rows) (given : Given) : Given := fun key =>
  { slug | Concerns write before after key ∧ slug ∈ scopeAt after key ∨
    ¬Concerns write before after key ∧ slug ∈ given key }

/-- When a write of the control plane leaves the credentials alone: it deletes
no service that has an auth provider, what it carries over into an endpoint is
still that endpoint's scope, and it creates no endpoint that a session had
given a scope. -/
def Harmless (given : Given) (rows : Rows) : Write → Prop
  | .delete_service id => ∀ p ∈ rows.auth_providers.rows, p.service_id ≠ id
  | .update_endpoint ep id => ∀ e ∈ rows.endpoints.rows, e.id = id →
      endpoint.key e = (ep.owner_id, ep.slug) ∧ scope rows id = { slug | slug ∈ ep.auth_providers }
  | .create_endpoint ep _ => given (ep.owner_id, ep.slug) = ∅
  | _ => True

/-- The writes the control plane has. -/
def Allowed : Write → Prop
  | .create_auth_provider .. | .update_auth_provider .. | .delete_auth_provider _ => False
  | .create_endpoint ep _ => ep.auth_providers = []
  | _ => True

/-- A harmless write of the control plane leaves every auth provider and the
scope of every endpoint as it was; an endpoint it creates has none. -/
theorem harmless_frame {given : Given} {write : Write} {rows rows' : Rows} (hallowed : Allowed write)
    (hharmless : Harmless given rows write) (h : write.apply rows = .ok rows') :
    rows'.auth_providers = rows.auth_providers ∧
      ∀ e' ∈ rows'.endpoints.rows,
        (∃ e ∈ rows.endpoints.rows, endpoint.key e = endpoint.key e' ∧
          scope rows' e'.id = scope rows e.id) ∨
        given (endpoint.key e') = ∅ ∧ scope rows' e'.id = ∅ := by
  have hsame : ∀ {rows' : Rows}, rows'.auth_providers = rows.auth_providers →
      rows'.endpoints = rows.endpoints → (∀ id, scope rows' id = scope rows id) →
      rows'.auth_providers = rows.auth_providers ∧ ∀ e' ∈ rows'.endpoints.rows,
        (∃ e ∈ rows.endpoints.rows, endpoint.key e = endpoint.key e' ∧
          scope rows' e'.id = scope rows e.id) ∨
        given (endpoint.key e') = ∅ ∧ scope rows' e'.id = ∅ := by
    intro rows' hproviders hendpoints hscope
    exact ⟨hproviders, fun e' he' => .inl ⟨e', by rwa [← hendpoints], rfl, hscope e'.id⟩⟩
  cases write with
  | create_service service id =>
    rw [store.service.insert_footprint h]
    exact hsame rfl rfl fun _ => rfl
  | update_service service id =>
    rw [store.service.set_footprint h]
    exact hsame rfl rfl fun _ => rfl
  | delete_service id =>
    cases h
    obtain ⟨hproviders, hscope⟩ := store.service.delete_spec hharmless
    exact hsame hproviders rfl hscope
  | create_auth_provider provider id service_id => cases hallowed
  | update_auth_provider provider id service_id => cases hallowed
  | delete_auth_provider id => cases hallowed
  | create_api_call tag_id call tags id service_id =>
    rw [store.api_call.insert_footprint h]
    exact hsame rfl rfl fun _ => rfl
  | update_api_call tag_id call tags id service_id =>
    rw [store.api_call.set_footprint h]
    exact hsame rfl rfl fun _ => rfl
  | delete_api_call id =>
    cases h
    exact hsame rfl rfl fun _ => rfl
  | create_script tag_id script tags id =>
    rw [store.script.insert_footprint h]
    exact hsame rfl rfl fun _ => rfl
  | update_script tag_id script tags id =>
    rw [store.script.set_footprint h]
    exact hsame rfl rfl fun _ => rfl
  | delete_script id =>
    cases h
    exact hsame rfl rfl fun _ => rfl
  | create_endpoint ep id =>
    obtain ⟨hrows, hnew, hown, hothers⟩ := store.endpoint.insert_spec h
    refine ⟨by rw [store.endpoint.insert_footprint h], fun e' he' => ?_⟩
    rw [hrows, List.mem_append, List.mem_singleton] at he'
    obtain hold | rfl := he'
    · exact .inl ⟨e', hold, rfl, hothers _ (hnew e' hold)⟩
    · refine .inr ⟨hharmless, ?_⟩
      rw [show (store.endpoint.to_active_model ep id).id = id from rfl, hown,
        show ep.auth_providers = [] from hallowed]
      simp
  | update_endpoint ep id =>
    obtain ⟨hrows, hown, hothers⟩ := store.endpoint.set_spec h
    refine ⟨by rw [store.endpoint.set_footprint h], fun e' he' => .inl ?_⟩
    rw [hrows, List.mem_map] at he'
    obtain ⟨e, he, rfl⟩ := he'
    refine ⟨e, he, ?_⟩
    split
    · rename_i hid
      obtain ⟨hkey, hscope⟩ := hharmless e he hid
      refine ⟨hkey, ?_⟩
      rw [show (store.endpoint.to_active_model ep id).id = id from rfl, hown, ← hscope, hid]
    · rename_i hid
      exact ⟨rfl, hothers _ hid⟩
  | delete_endpoint id =>
    cases h
    refine ⟨rfl, fun e' he' => .inl ⟨e', (Table.mem_delete.mp he').1, rfl, ?_⟩⟩
    exact store.endpoint.scope_of_delete (of_decide_eq_false (Table.mem_delete.mp he').2)

/-! The control plane has no other writes. -/

section

variable {validate_change : Validator}

theorem commits_persist {ok : Write → Prop} {owner_id : Uuid} {change : PendingChange} {q : Fetch Write}
    (hok : ∀ write, Query.Yields (fun _ => True) q write → ok write) :
    (persist validate_change owner_id change q).All (Commits ok) := by
  refine Query.all_task_bind (fun _ => rfl) _ fun answer _ => ?_
  cases answer with
  | error errors => exact .done _
  | ok _ =>
    refine (commits_write_after hok).bind fun answer => ?_
    cases answer <;> exact .done _

theorem commits_find {ok : Write → Prop} {owner_id : Uuid} {slug : Slug} :
    (api_calls.find owner_id slug).All (Commits ok) := by
  refine commits_fetch_bind fun answer _ => ?_
  cases answer with
  | error e => exact .done _
  | ok all =>
    dsimp only
    split <;> exact .done _

theorem commits_get_by_owner {ok : Write → Prop} {owner_id : Uuid} {slug : Slug} :
    (api.endpoints.get_by_owner owner_id slug).All (Commits ok) := by
  refine commits_fetch_bind fun answer _ => ?_
  split <;> exact .done _

theorem commits_dispatch (tool : Tool) : (dispatch validate_change tool).All (Commits Allowed) := by
  cases tool with
  | service_create service id =>
    refine commits_persist fun write h => ?_
    rw [store.service.create_yields h]
    trivial
  | service_update service =>
    refine commits_persist fun write h => ?_
    obtain ⟨_, rfl⟩ := store.service.update_yields h
    trivial
  | service_delete owner_id slug =>
    refine commits_persist fun write h => ?_
    obtain ⟨_, rfl⟩ := store.service.remove_yields h
    trivial
  | api_call_create tag_id call tags id =>
    refine commits_persist fun write h => ?_
    obtain ⟨_, rfl⟩ := api_call.create_yields h
    trivial
  | api_call_update tag_id call tags =>
    refine commits_find.bind fun found => ?_
    cases found with
    | error e => exact .done _
    | ok existing =>
      dsimp only
      split
      · exact .done _
      · refine commits_persist fun write h => ?_
        obtain ⟨_, _, rfl⟩ := api_call.update_yields h
        trivial
  | api_call_delete owner_id slug =>
    refine commits_find.bind fun found => ?_
    cases found with
    | error e => exact .done _
    | ok existing =>
      refine commits_persist fun write h => ?_
      obtain ⟨_, rfl⟩ := api_call.remove_yields h
      trivial
  | script_create tag_id script tags id =>
    refine commits_persist fun write h => ?_
    rw [store.script.create_yields h]
    trivial
  | script_update tag_id script tags =>
    refine commits_persist fun write h => ?_
    obtain ⟨_, rfl⟩ := store.script.update_yields h
    trivial
  | script_delete owner_id slug =>
    refine commits_persist fun write h => ?_
    obtain ⟨_, rfl⟩ := store.script.remove_yields h
    trivial
  | endpoint_create endpoint id =>
    refine commits_persist fun write h => ?_
    rw [store.endpoint.create_yields h]
    exact rfl
  | endpoint_update endpoint =>
    refine commits_get_by_owner.bind fun found => ?_
    cases found with
    | error e => exact .done _
    | ok existing =>
      refine commits_persist fun write h => ?_
      obtain ⟨_, rfl⟩ := store.endpoint.update_yields h
      trivial
  | endpoint_delete owner_id slug =>
    refine commits_persist fun write h => ?_
    obtain ⟨_, rfl⟩ := store.endpoint.remove_yields h
    trivial
  | inspect reads => exact Query.all_task (fun _ => rfl) _ _

/-- The writes of a call. -/
def Call.Writes : Call → Write → Prop
  | control _ => Allowed
  | session _ => fun _ => True

theorem commits_task (call : Call) : (call.task validate_change).All (Commits call.Writes) := by
  cases call with
  | control tool => exact commits_dispatch tool
  | session write =>
    have hwrite : (write_after write).All (Commits (Call.session write).Writes) :=
      commits_write_after fun _ _ => trivial
    refine hwrite.bind fun answer => ?_
    cases answer <;> exact .done _

end

section

variable (validate_change : Validator) {ι : Type} [DecidableEq ι] (calls : ι → Call) (db : Db)

/-- Any number of tool calls and sessions at work on one database. -/
def pool : Pool ι Stmt Db (Except ApiError Unit) := ⟨db, fun i => (calls i).task validate_change⟩

/-- What a turn gives: a session's commit gives scopes, nothing else does. -/
def observe (given : Given) (p : Pool ι Stmt Db (Except ApiError Unit)) (i : ι) : Given :=
  match calls i, p.turn i with
  | .session _, some (.commit w) =>
    match w.apply p.store.rows with
    | .ok rows => give w p.store.rows rows given
    | .error _ => given
  | _, _ => given

/-- The write a tool call commits at this turn, if it does, is harmless. -/
def HarmlessTurn (given : Given) (p : Pool ι Stmt Db (Except ApiError Unit)) (i : ι) : Prop :=
  ∀ tool w, calls i = .control tool → p.turn i = some (.commit w) → Harmless given p.store.rows w

/-- Each call has only its own writes ahead, and each endpoint has the scope it
was given. -/
structure Credentials (given : Given) (p : Pool ι Stmt Db (Except ApiError Unit)) : Prop where
  calls : ∀ i, (p.task i).All (Commits (calls i).Writes)
  scopes : ∀ e ∈ p.store.rows.endpoints.rows, scope p.store.rows e.id = given (endpoint.key e)

end

section

variable {validate_change : Validator} {ι : Type} [DecidableEq ι] {calls : ι → Call} {db : Db}

theorem scopeAt_of_mem {rows : Rows} {e : endpoints.Model} (he : e ∈ rows.endpoints.rows) :
    scopeAt rows (endpoint.key e) = scope rows e.id := by
  ext slug
  constructor
  · rintro ⟨e', he', hkey, hslug⟩
    obtain ⟨howner, hslug'⟩ := Prod.mk.injEq .. ▸ hkey
    rwa [← endpoints.eq_of_slug he' he howner hslug']
  · intro hslug
    exact ⟨e, he, rfl, hslug⟩

/-- After a session's write each endpoint has the scope it was given. -/
theorem give_spec {given : Given} {write : Write} {rows rows' : Rows}
    (hscopes : ∀ e ∈ rows.endpoints.rows, scope rows e.id = given (endpoint.key e))
    {e : endpoints.Model} (he : e ∈ rows'.endpoints.rows) :
    scope rows' e.id = give write rows rows' given (endpoint.key e) := by
  rw [← scopeAt_of_mem he]
  by_cases hconcerns : Concerns write rows rows' (endpoint.key e)
  · simp [give, hconcerns]
  · have hkept : given (endpoint.key e) = scopeAt rows' (endpoint.key e) := by
      simp only [Concerns, not_or, not_not] at hconcerns
      obtain ⟨_, htaken, hsame⟩ := hconcerns
      obtain ⟨e', he', hkey⟩ := htaken.mpr ⟨e, he, rfl⟩
      rw [← hsame, ← hkey, scopeAt_of_mem he', hscopes e' he']
    simp [give, hconcerns, hkept]

/-- The step lemma: what a turn does to the credentials. -/
theorem Credentials.step {given : Given} {p : Pool ι Stmt Db (Except ApiError Unit)} {i : ι}
    (h : Credentials calls given p) (hharmless : HarmlessTurn calls given p i) :
    Credentials calls (observe calls given p i) (p.step i) ∧
      ∀ tool, calls i = .control tool →
        (p.step i).store.rows.auth_providers = p.store.rows.auth_providers := by
  obtain ⟨hturn, hstep⟩ | ⟨l, ready, write, next, hturn, htask, hstep⟩ := p.turn_cases i
  · have hgiven : observe calls given p i = given := by
      unfold observe
      rw [hturn]
      split <;> simp_all
    rw [hgiven, hstep]
    exact ⟨h, fun _ _ => rfl⟩
  have hi := h.calls i
  rw [htask] at hi
  cases hi with
  | stmt hwrite hnext =>
    have hcalls : ∀ j, ((p.step i).task j).All (Commits (calls j).Writes) := by
      intro j
      rw [hstep]
      by_cases hij : j = i
      · subst hij
        simpa using hnext p.store
      · simpa [hij] using h.calls j
    have hstore : (p.step i).store = write p.store := by rw [hstep]
    cases hcall : calls i with
    | control tool =>
      rw [hcall] at hwrite
      have hgiven : observe calls given p i = given := by simp [observe, hcall]
      rw [hgiven]
      obtain ⟨hsame, _⟩ | ⟨w, rows', hallowed, hlabel, happly, hrows⟩ := hwrite.cases p.store
      · refine ⟨⟨hcalls, ?_⟩, fun _ _ => by rw [hstore, hsame]⟩
        rw [hstore, hsame]
        exact h.scopes
      · obtain ⟨hproviders, hframe⟩ :=
          harmless_frame hallowed (hharmless tool w hcall (by rw [hturn, hlabel])) happly
        rw [← hrows, ← hstore] at hproviders hframe
        refine ⟨⟨hcalls, fun e' he' => ?_⟩, fun _ _ => hproviders⟩
        obtain ⟨e, he, hkey, hscope⟩ | ⟨hnone, hscope⟩ := hframe e' he'
        · rw [hscope, h.scopes e he, hkey]
        · rw [hscope, hnone]
    | session q =>
      refine ⟨⟨hcalls, ?_⟩, fun tool htool => by simp at htool⟩
      obtain ⟨hsame, hnone⟩ | ⟨w, rows', _, hlabel, happly, hrows⟩ := hwrite.cases p.store
      · have hgiven : observe calls given p i = given := by
          unfold observe
          split
          · rename_i w _ hcommit
            rw [hturn, Option.some.injEq] at hcommit
            split
            · rename_i rows' happly
              exact absurd happly (hnone w rows' hcommit)
            · rfl
          · rfl
        rw [hgiven, hstore, hsame]
        exact h.scopes
      · have hgiven : observe calls given p i = give w p.store.rows rows' given := by
          simp [observe, hcall, hturn, hlabel, happly]
        intro e he
        rw [hgiven]
        rw [hstore, hrows] at he ⊢
        exact give_spec h.scopes he

/-- The control plane leaves the credentials alone, whatever sessions write at
the same time, in every run in which what it commits is harmless: at every time
each endpoint has the scope it was last given, and no turn of a tool call
touches an auth provider. -/
theorem credentials_untouched {sched : List ι}
    (hharmless : Pool.AlongWatching (observe calls) (HarmlessTurn calls) (scopeAt db.rows)
      (pool validate_change calls db) sched) :
    (∀ before after, sched = before ++ after →
      ∀ e ∈ ((pool validate_change calls db).run before).store.rows.endpoints.rows,
        scope ((pool validate_change calls db).run before).store.rows e.id =
          (pool validate_change calls db).watch (observe calls) (scopeAt db.rows) before
            (endpoint.key e)) ∧
    ∀ before i after tool, sched = before ++ i :: after → calls i = .control tool →
      (((pool validate_change calls db).run before).step i).store.rows.auth_providers =
        ((pool validate_change calls db).run before).store.rows.auth_providers := by
  have hstart : Credentials calls (scopeAt db.rows) (pool validate_change calls db) :=
    ⟨fun i => commits_task (calls i), fun e he => (scopeAt_of_mem he).symm⟩
  have hkeep : ∀ before after, sched = before ++ after →
      Credentials calls ((pool validate_change calls db).watch (observe calls) (scopeAt db.rows) before)
        ((pool validate_change calls db).run before) := by
    rintro before after rfl
    exact (Pool.alongWatching_append.mp hharmless).1.inv (fun _ _ _ h hturn => (h.step hturn).1) hstart
  refine ⟨fun before after hsched => (hkeep before after hsched).scopes, ?_⟩
  rintro before i after tool rfl hcall
  obtain ⟨_, hturn, _⟩ := Pool.alongWatching_append.mp hharmless
  exact ((hkeep before _ rfl).step hturn).2 tool hcall

end

/-- Owner 1's service `crm` with its auth provider, and an endpoint confined to
the providers of `join`. -/
def sampleDb (join : List endpoint_auth_providers.Model) (hjoin : join.length ≤ 1) : Db where
  rows := {
    services := .single sample.service
    auth_providers := .single sample.auth_provider
    endpoints := .single (sample.endpoint 10)
    endpoint_auth_providers := .short join hjoin }
  generation := some 1
  meta_locked := false
  now := 0
  log := []

/-- The turn commits no tool call's write that could be other than harmless. -/
def plainTurn {ι : Type} [DecidableEq ι] (calls : ι → Call)
    (p : Pool ι Stmt Db (Except ApiError Unit)) (i : ι) : Bool :=
  match calls i, p.turn i with
  | .control _, some (.commit (.delete_service _)) => false
  | .control _, some (.commit (.update_endpoint ..)) => false
  | .control _, some (.commit (.create_endpoint ..)) => false
  | _, _ => true

theorem harmlessTurn_of_plainTurn {ι : Type} [DecidableEq ι] {calls : ι → Call} (given : Given)
    (p : Pool ι Stmt Db (Except ApiError Unit)) (i : ι) (h : plainTurn calls p i = true) :
    HarmlessTurn calls given p i := by
  intro tool w hcall hturn
  unfold plainTurn at h
  rw [hcall, hturn] at h
  cases w <;> first | trivial | cases h

/-- A session confines an endpoint while a tool call updates its service. -/
def sampleCalls : Fin 2 → Call :=
  ![.session (store.endpoint.update (store.endpoint.to_model (sample.endpoint 10) [] [sample.crm])),
    .control (.service_update { store.service.to_model sample.service with timeout_ms := 5000 })]

def samplePool : Pool (Fin 2) Stmt Db (Except ApiError Unit) :=
  pool (fun _ _ => .done (.ok ())) sampleCalls (sampleDb [] (by decide))

/-- The endpoint keeps the scope the session gave it. -/
theorem credentials_untouched_by_update :
    let sched := [0, 1, 0, 1, 0, 1, 0, 0, 1, 1]
    let rows := (samplePool.run sched).store.rows
    rows.endpoint_auth_providers.rows = [⟨10, 5⟩] ∧ rows.services.rows.map (·.timeout_ms) = [5000] ∧
      ∀ e ∈ rows.endpoints.rows, scope rows e.id =
        samplePool.watch (observe sampleCalls) (scopeAt (sampleDb [] (by decide)).rows) sched
          (endpoint.key e) := by
  refine ⟨rfl, by decide, (credentials_untouched ?_).1 _ [] rfl⟩
  exact Pool.alongWatching_of_check harmlessTurn_of_plainTurn _ (by decide)

/-- What tool calls do to the credentials: deleting a service takes its auth
provider along; deleting an endpoint and creating it again drops its scope, and
no scope is every provider; an update writes back the scope it read, over the
one a session gave meanwhile. -/
theorem credentials_touched :
    let validate_change : Validator := fun _ _ => .done (.ok ())
    let ep := store.endpoint.to_model (sample.endpoint 10) [] [sample.crm]
    (let calls : Fin 1 → Call := ![.control (.service_delete 1 sample.crm)]
     let p := pool validate_change calls (sampleDb [] (by decide))
     p.store.rows.auth_providers.rows = [sample.auth_provider] ∧
       (p.run [0, 0, 0, 0, 0]).store.rows.auth_providers.rows = []) ∧
    (let calls : Fin 2 → Call :=
       ![.control (.endpoint_delete 1 sample.crm), .control (.endpoint_create ep 11)]
     let p := pool validate_change calls (sampleDb [⟨10, 5⟩] (by decide))
     let q := p.run [0, 0, 0, 0, 0, 1, 1, 1, 1, 1]
     q.store.rows.endpoints.rows = [sample.endpoint 11] ∧
       q.store.rows.endpoint_auth_providers.rows = []) ∧
    let calls : Fin 2 → Call :=
      ![.session (store.endpoint.update ep), .control (.endpoint_update ep)]
    let p := pool validate_change calls (sampleDb [] (by decide))
    (p.run [1, 1, 1, 0, 0, 0, 0, 0]).store.rows.endpoint_auth_providers.rows = [⟨10, 5⟩] ∧
      (p.run [1, 1, 1, 0, 0, 0, 0, 0, 1, 1, 1, 1, 1]).store.rows.endpoint_auth_providers.rows = [] := by
  refine ⟨⟨rfl, rfl⟩, ⟨rfl, rfl⟩, rfl, rfl⟩

end api2mcp.server.mcp.control
