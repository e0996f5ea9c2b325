import Api2Mcp.Collections.BTree
import Api2Mcp.Concurrent.Trace
import Api2Mcp.Http.Paginate
import Mathlib.Data.Fin.VecNotation

namespace api2mcp.http

open btree concurrent net
open api2mcp.model

/-! The pool of upstream clients, which every run of the process takes its
clients from. -/

structure ClientBuildError where
  reason : String
  deriving DecidableEq, Repr

structure UpstreamPool where
  policy : SsrfPolicy
  clients : BTreeMap Slug Client

def UpstreamPool.new (policy : SsrfPolicy) : UpstreamPool where
  policy
  clients := []

/-- What runs under one guard of the lock around the clients. -/
inductive PoolStmt where
  | read_clients
  | write_clients
  deriving DecidableEq

section

variable (build : Client → Except String Unit)

/-- The builder refuses what it was asked for, or that is the client. -/
def build_client (service : Service) (policy : SsrfPolicy) : Except ClientBuildError Client :=
  match build (client_of service policy) with
  | .error e => .error ⟨e⟩
  | .ok () => .ok (client_of service policy)

/-- The part of `client_for` that holds the write guard. -/
def build_and_cache (service : Service) (pool : UpstreamPool) :
    Except ClientBuildError Client × UpstreamPool :=
  match pool.clients.get service.slug with
  | some existing => (.ok existing, pool)
  | none =>
    match build_client build service pool.policy with
    | .error e => (.error e, pool)
    | .ok client => (.ok client, { pool with clients := pool.clients.insert service.slug client })

def client_for (service : Service) : Task PoolStmt UpstreamPool (Except ClientBuildError Client) := do
  match ← Task.read .read_clients fun pool : UpstreamPool => pool.clients.get service.slug with
  | some existing => return .ok existing
  | none => Task.exec .write_clients (build_and_cache build service)

variable {build}

theorem build_client_ok {service : Service} {policy : SsrfPolicy} {client : Client}
    (h : build_client build service policy = .ok client) : client = client_of service policy := by
  unfold build_client at h
  split at h
  · cases h
  · exact (Except.ok.inj h).symm

/-- A pool later on: no client was let go. -/
structure UpstreamPool.Kept (pool pool' : UpstreamPool) : Prop where
  policy : pool'.policy = pool.policy
  clients : ∀ slug client, pool.clients.get slug = some client → pool'.clients.get slug = some client

theorem UpstreamPool.Kept.refl (pool : UpstreamPool) : pool.Kept pool := ⟨rfl, fun _ _ h => h⟩

theorem UpstreamPool.Kept.trans {a b c : UpstreamPool} (hab : a.Kept b) (hbc : b.Kept c) :
    a.Kept c :=
  ⟨hbc.policy.trans hab.policy, fun slug client h => hbc.clients slug client (hab.clients slug client h)⟩

/-- What a call does that comes to the write guard: it takes the client that is
there, it builds the one that is not, or its build is refused. -/
theorem build_and_cache_cases (service : Service) (pool : UpstreamPool) :
    (∃ client, pool.clients.get service.slug = some client ∧
      build_and_cache build service pool = (.ok client, pool)) ∨
    (pool.clients.get service.slug = none ∧
      ∃ e, build_and_cache build service pool = (.error e, pool)) ∨
    (pool.clients.get service.slug = none ∧
      build_and_cache build service pool = (.ok (client_of service pool.policy),
        { pool with
          clients := pool.clients.insert service.slug (client_of service pool.policy) })) := by
  unfold build_and_cache
  cases hget : pool.clients.get service.slug with
  | some client => exact .inl ⟨client, rfl, rfl⟩
  | none =>
    right
    cases hbuild : build_client build service pool.policy with
    | error e => exact .inl ⟨rfl, e, rfl⟩
    | ok client =>
      obtain rfl := build_client_ok hbuild
      exact .inr ⟨rfl, rfl⟩

theorem build_and_cache_kept (service : Service) (pool : UpstreamPool) :
    pool.Kept (build_and_cache build service pool).2 := by
  obtain ⟨client, _, heq⟩ | ⟨_, e, heq⟩ | ⟨hnone, heq⟩ := build_and_cache_cases service pool
  · rw [heq]
    exact .refl pool
  · rw [heq]
    exact .refl pool
  · rw [heq]
    refine ⟨rfl, fun slug client hget => ?_⟩
    have hne : slug ≠ service.slug := by
      rintro rfl
      rw [hnone] at hget
      cases hget
    rw [BTreeMap.get_insert, if_neg hne]
    exact hget

/-- A call leaves the pool as it is, or does to it what it does under the write
guard. -/
theorem client_for_writes (service : Service) :
    (client_for build service).All fun _ write =>
      write = id ∨ write = fun pool => (build_and_cache build service pool).2 := by
  refine (Task.all_read (.inl rfl) _).bind fun found => ?_
  cases found with
  | some client => exact .done _
  | none => exact Task.all_exec (.inr rfl)

variable {ι : Type} [DecidableEq ι]

variable (build) in
/-- The process when it starts: one `client_for` for each service that is going
to be called, of any owner and in any version, and no client yet. -/
def Starting (services : ι → Service)
    (p : Pool ι PoolStmt UpstreamPool (Except ClientBuildError Client)) : Prop :=
  (∀ i, p.task i = client_for build (services i)) ∧ p.store.clients = []

/-- The call that built the client for its slug. -/
def Built (services : ι → Service) (p : Pool ι PoolStmt UpstreamPool (Except ClientBuildError Client))
    (sched : List ι) (i : ι) : Prop :=
  ∃ k, sched[k]? = some i ∧ (p.stores sched k).clients.get (services i).slug = none ∧
    (p.stores sched (k + 1)).clients.get (services i).slug ≠ none

/-- The services ask for the same client. -/
structure SameClient (service service' : Service) : Prop where
  default_headers : default_header_map service = default_header_map service'
  timeout : service.timeout_ms = service'.timeout_ms

theorem client_of_eq_iff {service service' : Service} {policy : SsrfPolicy} :
    client_of service policy = client_of service' policy ↔ SameClient service service' := by
  constructor
  · intro h
    have hheaders := congrArg Client.default_headers h
    have htimeout : from_millis service.timeout_ms = from_millis service'.timeout_ms :=
      congrArg Client.read_timeout h
    exact ⟨hheaders, Nat.eq_of_mul_eq_mul_right (by decide) htimeout⟩
  · rintro ⟨hheaders, htimeout⟩
    rw [client_of, client_of, hheaders, htimeout]

variable {services : ι → Service} {p : Pool ι PoolStmt UpstreamPool (Except ClientBuildError Client)}
  {sched : List ι}

theorem kept_between (hp : Starting build services p) {n m : Nat} (hle : n ≤ m) :
    (p.stores sched n).Kept (p.stores sched m) := by
  have hsteps : p.Steps UpstreamPool.Kept := by
    intro i
    rw [hp.1]
    refine (client_for_writes (services i)).mono fun _ write hwrite pool => ?_
    obtain rfl | rfl := hwrite
    · exact .refl pool
    · exact build_and_cache_kept (services i) pool
  exact hsteps.stores .refl .trans sched hle

/-- The pool hands one client to every call of a slug: the one it still has. -/
theorem client_of_slug (hp : Starting build services p) {j : ι} {client : Client}
    (hdone : ((p.run sched).task j).result? = some (.ok client)) :
    (p.run sched).store.clients.get (services j).slug = some client := by
  have hran := p.ran sched j
  rw [hp.1, Task.result?_eq_some.mp hdone] at hran
  rw [client_for, Task.ran_read_bind] at hran
  obtain ⟨n, _, hn, _, hfound⟩ := hran
  rw [← p.stores_run]
  cases hget : (p.stores sched n).clients.get (services j).slug with
  | some existing =>
    simp only [hget] at hfound
    obtain ⟨_, heq⟩ := Task.ran_done.mp hfound
    obtain rfl := Except.ok.inj heq
    exact (kept_between hp (Nat.le_of_lt hn)).clients _ _ hget
  | none =>
    simp only [hget] at hfound
    obtain ⟨m, _, hm, hwrite, hanswer⟩ := Task.ran_exec.mp hfound
    refine (kept_between hp (show m + 1 ≤ sched.length by omega)).clients _ _ ?_
    obtain ⟨existing, hthere, heq⟩ | ⟨_, e, heq⟩ | ⟨_, heq⟩ :=
      build_and_cache_cases (services j) (p.stores sched m)
    · rw [heq] at hanswer hwrite
      obtain rfl := Except.ok.inj hanswer
      rw [hwrite]
      exact hthere
    · rw [heq] at hanswer
      cases hanswer
    · rw [heq] at hanswer hwrite
      obtain rfl := Except.ok.inj hanswer
      rw [hwrite, BTreeMap.get_insert, if_pos rfl]

/-- What a turn does to the pool of clients. -/
theorem clients_step (hp : Starting build services p) {m : Nat} (hm : m < sched.length) :
    p.stores sched (m + 1) = p.stores sched m ∨
      p.stores sched (m + 1) = (build_and_cache build (services sched[m]) (p.stores sched m)).2 := by
  have hran := p.ran_between sched sched[m] (Nat.zero_le m) (by omega)
  rw [List.take_zero, Pool.run_nil, hp.1] at hran
  rw [p.stores_step sched hm]
  obtain ⟨_, hstep⟩ | ⟨l, ready, write, next, _, htask, hstep⟩ :=
    (p.run (sched.take m)).turn_cases sched[m]
  · rw [hstep]
    exact .inl rfl
  · rw [htask] at hran
    rw [hstep]
    cases (client_for_writes (services sched[m])).ran hran with
    | stmt hwrite _ =>
      obtain rfl | rfl := hwrite
      · exact .inl rfl
      · exact .inr rfl

/-- Every client was built for the service of the call that built it. -/
theorem made_by (hp : Starting build services p) {m : Nat} (hm : m ≤ sched.length) {slug : Slug}
    {client : Client} (hget : (p.stores sched m).clients.get slug = some client) :
    ∃ i, Built services p sched i ∧ (services i).slug = slug ∧
      client = client_of (services i) p.store.policy := by
  induction m with
  | zero =>
    rw [Pool.stores_zero, hp.2] at hget
    cases hget
  | succ m ih =>
    by_cases hbefore : (p.stores sched m).clients.get slug = none
    · have hlt : m < sched.length := by omega
      obtain hstore | hstore := clients_step hp hlt
      · rw [hstore, hbefore] at hget
        cases hget
      obtain ⟨existing, _, heq⟩ | ⟨_, e, heq⟩ | ⟨hnone, heq⟩ :=
        build_and_cache_cases (services sched[m]) (p.stores sched m)
      · rw [hstore, heq, hbefore] at hget
        cases hget
      · rw [hstore, heq, hbefore] at hget
        cases hget
      · rw [heq] at hstore
        rw [hstore, BTreeMap.get_insert] at hget
        split at hget
        · rename_i hslug
          obtain rfl := Option.some.inj hget
          refine ⟨sched[m], ⟨m, List.getElem?_eq_getElem hlt, hnone, ?_⟩, hslug.symm, ?_⟩
          · rw [hstore, BTreeMap.get_insert, if_pos rfl]
            exact Option.some_ne_none _
          · rw [(kept_between hp (Nat.zero_le m)).policy]
            rfl
        · rw [hbefore] at hget
          cases hget
    · obtain ⟨existing, hthere⟩ := Option.ne_none_iff_exists'.mp hbefore
      have hkept := (kept_between hp (Nat.le_succ m)).clients _ _ hthere
      rw [hget] at hkept
      obtain rfl := Option.some.inj hkept
      exact ih (by omega) hthere

/-- The call that built a client built it for its service, and the pool still
has it. -/
theorem built_client (hp : Starting build services p) {i : ι} (hbuilt : Built services p sched i) :
    (p.run sched).store.clients.get (services i).slug =
      some (client_of (services i) p.store.policy) := by
  obtain ⟨k, hk, hnone, hsome⟩ := hbuilt
  obtain ⟨hlt, rfl⟩ := List.getElem?_eq_some_iff.mp hk
  rw [← p.stores_run]
  refine (kept_between hp (show k + 1 ≤ sched.length by omega)).clients _ _ ?_
  obtain hstore | hstore := clients_step hp hlt
  · rw [hstore] at hsome
    exact absurd hnone hsome
  obtain ⟨existing, hthere, _⟩ | ⟨_, e, heq⟩ | ⟨_, heq⟩ :=
    build_and_cache_cases (services sched[k]) (p.stores sched k)
  · rw [hnone] at hthere
    cases hthere
  · rw [hstore, heq] at hsome
    exact absurd hnone hsome
  · rw [hstore, heq, BTreeMap.get_insert, if_pos rfl, (kept_between hp (Nat.zero_le k)).policy]
    rfl

/-- Clients are told apart by slugs alone: the calls of a run have the client of
their own service just if the first call of each slug that built one did so for
a service with the same default headers and the same timeout. -/
theorem clients_isolated_iff (hp : Starting build services p) :
    (∀ j client, ((p.run sched).task j).result? = some (.ok client) →
      client = client_of (services j) p.store.policy) ↔
    ∀ i j client, Built services p sched i → (services j).slug = (services i).slug →
      ((p.run sched).task j).result? = some (.ok client) → SameClient (services i) (services j) := by
  constructor
  · rintro hisolated i j client hbuilt hslug hdone
    have hfirst := built_client hp hbuilt
    rw [← hslug, client_of_slug hp hdone] at hfirst
    have hclient := hisolated j client hdone
    rw [Option.some.inj hfirst] at hclient
    exact client_of_eq_iff.mp hclient
  · rintro hsame j client hdone
    have hget := client_of_slug hp hdone
    rw [← p.stores_run] at hget
    obtain ⟨i, hbuilt, hslug, rfl⟩ := made_by hp (Nat.le_refl _) hget
    exact client_of_eq_iff.mpr (hsame i j _ hbuilt hslug.symm hdone)

end

/-- A service `crm` of an owner, with a key among its default headers. -/
def keyed_service (owner_id : Uuid) (key : String) (timeout_ms : Nat) : Service where
  owner_id
  slug := .crm
  base_url := { scheme := "https", host := some (.Domain "crm.test") }
  origin_allowlist := []
  default_headers := [("x-key", key)]
  timeout_ms
  max_concurrency := 1
  rate_limit_per_min := none
  max_response_bytes := 1

def keyedPool {ι : Type} (services : ι → Service) :
    Pool ι PoolStmt UpstreamPool (Except ClientBuildError Client) where
  store := .new {}
  task i := client_for (fun _ => .ok ()) (services i)

theorem keyedPool_starting {ι : Type} (services : ι → Service) :
    Starting (fun _ => .ok ()) services (keyedPool services) := ⟨fun _ => rfl, rfl⟩

/-- Two owners whose services ask for the same: each call has the client of its
own service. -/
theorem clients_isolated_of_one_key :
    let services : Fin 2 → Service := ![keyed_service 0 "one" 5, keyed_service 1 "one" 5]
    let sched := [1, 0, 0, 1]
    ∀ j client, (((keyedPool services).run sched).task j).result? = some (.ok client) →
      client = client_of (services j) {} := by
  intro services sched
  have hheaders : ∀ i j, default_header_map (services i) = default_header_map (services j) := by
    decide
  have htimeout : ∀ i j, (services i).timeout_ms = (services j).timeout_ms := by decide
  refine (clients_isolated_iff (keyedPool_starting services)).mpr fun i j client _ _ _ => ?_
  exact ⟨hheaders i j, htimeout i j⟩

/-- The service of one owner, that of another with a key of its own, and the
first again after its timeout was changed: the three calls have one client, with
the first key and the first timeout. -/
theorem client_shared_across_owners :
    let services : Fin 3 → Service :=
      ![keyed_service 0 "one" 5, keyed_service 1 "two" 5, keyed_service 0 "one" 7]
    let sched := [0, 0, 1, 2]
    ∃ client, (((keyedPool services).run sched).task 1).result? = some (.ok client) ∧
      (((keyedPool services).run sched).task 2).result? = some (.ok client) ∧
      client.default_headers = default_header_map (services 0) ∧
      client ≠ client_of (services 1) {} ∧ client ≠ client_of (services 2) {} :=
  ⟨_, rfl, rfl, rfl, by decide, by decide⟩

end api2mcp.http
