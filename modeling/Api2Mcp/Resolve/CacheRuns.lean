import Api2Mcp.Concurrent.Monitor
import Api2Mcp.Concurrent.Trace
import Api2Mcp.Resolve.Cache
import Api2Mcp.Store.Decisions
import Mathlib.Data.Fin.VecNotation
import Mathlib.Tactic.IntervalCases

namespace api2mcp.resolve

open btree concurrent
open api2mcp.entity api2mcp.model api2mcp.store

/-! The generation: how a definition write moves it. -/

/-- How far a definition write is: it has not read the generation, it has, or
it holds the lock on the `meta` row with the value it wrote there. -/
inductive Phase where
  | idle
  | read (value : Nat)
  | holding (next : Nat)

/-- The statements of a definition write, by phase. -/
inductive WriterStep : Phase → Stmt → Db → Db → Phase → Prop
  | quiet (l : Stmt) (db : Db) : WriterStep .idle l db db .idle
  | read (db : Db) :
      WriterStep .idle .select_generation db db (.read (db.generation.getD 0))
  | check (value : Nat) (db : Db) :
      WriterStep (.read value) .select_generation db db (.read value)
  | update (value : Nat) (db : Db) : db.meta_locked = false →
      WriterStep (.read value) (.update_generation value) db { db with meta_locked := true }
        (.holding (value + 1))
  | insert (value : Nat) (db : Db) : db.meta_locked = false → db.generation = none →
      WriterStep (.read value) .insert_generation db { db with meta_locked := true }
        (.holding (value + 1))
  | refused (value : Nat) (db : Db) : WriterStep (.read value) .insert_generation db db .idle
  | commit (w : Write) (next : Nat) (db : Db) :
      WriterStep (.holding next) (.commit w) db (Db.commit w next db).2 .idle

theorem bump_generation_in_phased : meta_store.bump_generation_in.Phased WriterStep
    (fun φ answer => match answer with
      | .ok next => φ = .holding next
      | .error _ => φ = .idle) .idle := by
  intro db _
  refine ⟨.read (db.generation.getD 0), .read db, fun db' _ => ⟨_, .check _ db', ?_⟩⟩
  show Task.Phased _ _ (if db'.generation.isSome = true then _ else _) _
  split
  · intro db'' hready
    exact ⟨_, .update _ db'' (by simpa using hready), rfl⟩
  · intro db'' hready
    have hfree : db''.meta_locked = false := by simpa using hready
    cases hgeneration : db''.generation with
    | some value =>
      refine ⟨.idle, ?_, by simp [hgeneration, Task.Phased]⟩
      simp only [hgeneration]
      exact .refused _ db''
    | none =>
      refine ⟨.holding (db.generation.getD 0 + 1), ?_, by simp [hgeneration, Task.Phased]⟩
      have hinsert := WriterStep.insert (db.generation.getD 0) db'' hfree hgeneration
      simpa only [hgeneration] using hinsert

theorem transact_phased (write : Write) :
    (transact write).Phased WriterStep (fun φ _ => φ = .idle) .idle := by
  refine bump_generation_in_phased.bind fun φ answer hanswer => ?_
  cases answer with
  | error e => exact hanswer
  | ok next =>
    obtain rfl : φ = .holding next := hanswer
    exact fun db _ => ⟨.idle, .commit write next db, rfl⟩

/-- Statements that leave the database alone, whoever runs them. -/
theorem phased_quiet {α : Type} {t : DbTask α} (ht : t.All fun _ write => ∀ db, write db = db) :
    t.Phased WriterStep (fun φ _ => φ = .idle) .idle :=
  ht.phased (fun l write hwrite db => by rw [hwrite]; exact .quiet l db) fun _ => rfl

theorem write_after_phased (q : Fetch Write) :
    (write_after q).Phased WriterStep (fun φ _ => φ = .idle) .idle := by
  have hfetch : (fetch q).All fun _ write => ∀ db, write db = db :=
    Query.all_task (fun _ => rfl) Db.rows q.run
  refine (phased_quiet hfetch).bind fun φ answer hφ => ?_
  obtain rfl : φ = .idle := hφ
  cases answer with
  | error e => rfl
  | ok write => exact transact_phased write

/-- What the phases say of the database: who has read the generation before
there was one read zero, and one write at most holds the lock, with the value
that follows the committed one. -/
structure Generations {ι : Type} (φ : ι → Phase) (db : Db) : Prop where
  first : ∀ i value, φ i = .read value → db.generation = none → value = 0
  next : ∀ i next, φ i = .holding next → db.meta_locked = true ∧ next = db.generation.getD 0 + 1
  one : ∀ i j next next', φ i = .holding next → φ j = .holding next' → i = j

/-- The generation only goes up, and the rows only change as it does. -/
def Versioned (db db' : Db) : Prop :=
  db.generation.getD 0 ≤ db'.generation.getD 0 ∧
    (db.generation.getD 0 = db'.generation.getD 0 → db'.rows = db.rows)

theorem Versioned.refl (db : Db) : Versioned db db := ⟨Nat.le_refl _, fun _ => rfl⟩

theorem Versioned.trans {a b c : Db} (hab : Versioned a b) (hbc : Versioned b c) : Versioned a c := by
  obtain ⟨hle, hrows⟩ := hab
  obtain ⟨hle', hrows'⟩ := hbc
  refine ⟨Nat.le_trans hle hle', fun heq => ?_⟩
  rw [hrows' (by omega), hrows (by omega)]

theorem commit_versioned (w : Write) (db : Db) :
    Versioned db (Db.commit w (db.generation.getD 0 + 1) db).2 := by
  unfold Db.commit
  split
  · exact ⟨Nat.le_refl _, fun _ => rfl⟩
  · exact ⟨Nat.le_succ _, fun heq => absurd heq (Nat.succ_ne_self _).symm⟩

/-- A write that is elsewhere by now is not where it was. -/
theorem Generations.leave {ι : Type} [DecidableEq ι] {φ : ι → Phase} {db : Db} (i : ι)
    (h : Generations φ db) : Generations (Function.update φ i .idle) db where
  first j value hj hnone := by
    by_cases hij : j = i
    · simp [hij] at hj
    · exact h.first j value (by simpa [hij] using hj) hnone
  next j next hj := by
    by_cases hij : j = i
    · simp [hij] at hj
    · exact h.next j next (by simpa [hij] using hj)
  one j k next next' hj hk := by
    by_cases hij : j = i
    · simp [hij] at hj
    · by_cases hik : k = i
      · simp [hik] at hk
      · exact h.one j k next next' (by simpa [hij] using hj) (by simpa [hik] using hk)

/-- Taking the lock, which no one has, with the value that comes next. -/
theorem Generations.lock {ι : Type} [DecidableEq ι] {φ : ι → Phase} {db : Db} (i : ι)
    (h : Generations φ db) (hfree : db.meta_locked = false) :
    Generations (Function.update φ i (.holding (db.generation.getD 0 + 1)))
      { db with meta_locked := true } := by
  have hnone : ∀ j next, φ j ≠ .holding next := by
    intro j next hj
    obtain ⟨hlocked, _⟩ := h.next j next hj
    rw [hfree] at hlocked
    cases hlocked
  refine ⟨fun j value hj => ?_, fun j next hj => ?_, fun j k next next' hj hk => ?_⟩
  · by_cases hij : j = i
    · simp [hij] at hj
    · exact h.first j value (by simpa [hij] using hj)
  · by_cases hij : j = i
    · exact ⟨rfl, by simpa [hij, eq_comm] using hj⟩
    · exact absurd (by simpa [hij] using hj) (hnone j next)
  · by_cases hij : j = i
    · by_cases hik : k = i
      · rw [hij, hik]
      · exact absurd (by simpa [hik] using hk) (hnone k next')
    · exact absurd (by simpa [hij] using hj) (hnone j next)

/-- Reading the generation. -/
theorem Generations.look {ι : Type} [DecidableEq ι] {φ : ι → Phase} {db : Db} (i : ι)
    (h : Generations φ db) :
    Generations (Function.update φ i (.read (db.generation.getD 0))) db where
  first j value hj hnone := by
    by_cases hij : j = i
    · simpa [hij, hnone, eq_comm] using hj
    · exact h.first j value (by simpa [hij] using hj) hnone
  next j next hj := by
    by_cases hij : j = i
    · simp [hij] at hj
    · exact h.next j next (by simpa [hij] using hj)
  one j k next next' hj hk := by
    by_cases hij : j = i
    · simp [hij] at hj
    · by_cases hik : k = i
      · simp [hik] at hk
      · exact h.one j k next next' (by simpa [hij] using hj) (by simpa [hik] using hk)

/-- Committing, or rolling back, gives up the lock that no other write has. -/
theorem Generations.unlock {ι : Type} [DecidableEq ι] {φ : ι → Phase} {db : Db} {i : ι}
    (h : Generations φ db) (hi : φ i = .holding (db.generation.getD 0 + 1)) (w : Write) :
    Generations (Function.update φ i .idle) (Db.commit w (db.generation.getD 0 + 1) db).2 := by
  have hnone : ∀ j next, Function.update φ i .idle j ≠ .holding next := by
    intro j next hj
    by_cases hij : j = i
    · simp [hij] at hj
    · exact hij (h.one j i next _ (by simpa [hij] using hj) hi)
  refine ⟨fun j value hj hgeneration => ?_, fun j next hj => absurd hj (hnone j next),
    fun j k next _ hj _ => absurd hj (hnone j next)⟩
  have hbefore : db.generation = none := by
    unfold Db.commit at hgeneration
    split at hgeneration
    · exact hgeneration
    · cases hgeneration
  by_cases hij : j = i
  · simp [hij] at hj
  · exact h.first j value (by simpa [hij] using hj) hbefore

/-- The step lemma: an update that replaces the value it read keeps the
generations, and a commit then moves on from the committed one. -/
theorem Generations.step {ι : Type} [DecidableEq ι] {φ : ι → Phase} {db db' : Db} {i : ι} {l : Stmt}
    {ψ : Phase} (h : Generations φ db)
    (hreplaced : ∀ value, l = .update_generation value → db.generation.getD 0 = value)
    (hstep : WriterStep (φ i) l db db' ψ) :
    Generations (Function.update φ i ψ) db' ∧ Versioned db db' := by
  generalize hphase : φ i = phase at hstep
  cases hstep with
  | quiet => exact ⟨h.leave i, .refl db⟩
  | refused => exact ⟨h.leave i, .refl db⟩
  | check value =>
    rw [← hphase, Function.update_eq_self]
    exact ⟨h, .refl db⟩
  | read => exact ⟨h.look i, .refl db⟩
  | update value _ hfree =>
    rw [← hreplaced value rfl]
    exact ⟨h.lock i hfree, Nat.le_refl _, fun _ => rfl⟩
  | insert value _ hfree hnone =>
    obtain rfl := h.first i value hphase hnone
    have hlock := h.lock i hfree
    simp only [hnone, Option.getD_none] at hlock
    exact ⟨by simpa only [hnone] using hlock, Nat.le_refl _, fun _ => rfl⟩
  | commit w next =>
    obtain ⟨_, rfl⟩ := h.next i next hphase
    exact ⟨h.unlock hphase w, commit_versioned w db⟩

theorem cached_at_eq_some {cache : PlanCache} {key : CacheKey} {generation : Nat}
    {plan : EndpointPlan} :
    cache.cached_at key generation = some plan ↔ cache key = some (generation, plan) := by
  unfold PlanCache.cached_at
  split
  · rename_i g cached hcached
    rw [hcached, Option.some.injEq, Prod.mk.injEq]
    split <;> simp_all
  · simp_all

/-! A server process: definition writes and `get_or_build` calls. -/

inductive Call where
  | write (q : Fetch Write)
  | get_or_build (owner_id : Uuid) (slug : Slug)

inductive Answer where
  | written (result : Except StoreError Unit)
  | built (result : Except ResolveError EndpointPlan)

/-- A statement of the database, with the plan cache beside it. -/
def on_db {α : Type} (t : DbTask α) : AppTask α := t.zoom AppState.db fun state db => { state with db }

section

variable (json : serde_json.JsonCrate) (sha256_hex : String → String)

def Call.task : Call → AppTask Answer
  | write q => do return .written (← on_db (write_after q))
  | get_or_build owner_id slug => do
    return .built (← resolve.get_or_build json sha256_hex owner_id slug)

/-- What the server is when it starts: nothing is cached. -/
def Starting {ι : Type} (calls : ι → Call) (p : Pool ι Stmt AppState Answer) : Prop :=
  (∀ i, p.task i = (calls i).task json sha256_hex) ∧ p.store.plans = .empty

/-- The update of the generation that runs at this turn, if one does, replaces
the value that was read for it. -/
def ReplacesRead {ι : Type} (p : Pool ι Stmt AppState Answer) (i : ι) : Prop :=
  ∀ read, p.turn i = some (.update_generation read) → p.store.db.generation.getD 0 = read

/-- The same of a server whose tasks answer anything. -/
def UpdatesRead {ι α : Type} (p : Pool ι Stmt AppState α) (i : ι) : Prop :=
  ∀ read, p.turn i = some (.update_generation read) → p.store.db.generation.getD 0 = read

/-- What a server's task does with the plan cache: nothing, or it obtains a plan
and answers with what it makes of that. -/
inductive Serves {α : Type} (t : AppTask α) : Prop
  | quiet : (t.All fun _ write => ∀ state, (write state).plans = state.plans) → Serves t
  | build (owner_id : Uuid) (slug : Slug) (f : Except ResolveError EndpointPlan → α) :
      t = (do return f (← get_or_build json sha256_hex owner_id slug)) → Serves t

/-- A cached plan was built, from rows of the time its generation was read and
later, by the time `m`. -/
def BuiltBy (st : Nat → AppState) (m : Nat) (key : CacheKey) (generation : Nat)
    (plan : EndpointPlan) : Prop :=
  ∃ c ≤ m, (st c).db.generation.getD 0 = generation ∧
    Query.Yields (fun rows => ∃ k, c ≤ k ∧ k < m ∧ (st k).db.rows = rows)
      (build_plan json sha256_hex key.1 key.2) plan

/-- Every cached plan was built. -/
def CacheBuilt (st : Nat → AppState) (m : Nat) : Prop :=
  ∀ key generation plan, (st m).plans key = some (generation, plan) →
    BuiltBy json sha256_hex st m key generation plan

variable {json sha256_hex}

/-- The writer's step, beside the plan cache. -/
def AppStep (φ : Phase) (l : Stmt) (state state' : AppState) (ψ : Phase) : Prop :=
  WriterStep φ l state.db state'.db ψ

theorem get_or_build_phased (owner_id : Uuid) (slug : Slug) :
    (get_or_build json sha256_hex owner_id slug).Phased AppStep (fun φ _ => φ = .idle) .idle := by
  have hall : (get_or_build json sha256_hex owner_id slug).All
      fun _ write => ∀ state, (write state).db = state.db := by
    refine (Task.all_read (fun _ => rfl) _).bind fun current_gen =>
      (Task.all_read (fun _ => rfl) _).bind fun found => ?_
    cases found with
    | some plan => exact .done _
    | none =>
      refine Query.all_task_bind (fun _ => rfl) _ fun answer _ => ?_
      cases answer with
      | error e => exact .done _
      | ok plan => exact Task.all_exec fun _ => rfl
  refine hall.phased (fun l write hwrite state => ?_) fun _ => rfl
  rw [AppStep, hwrite]
  exact .quiet l state.db

theorem write_phased {α : Type} (q : Fetch Write) (f : Except StoreError Unit → α) :
    (do return f (← on_db (write_after q)) : AppTask α).Phased AppStep (fun _ _ => True) .idle := by
  have hwrite : (on_db (write_after q)).Phased AppStep (fun φ _ => φ = .idle) .idle := by
    unfold on_db
    refine Task.Phased.zoom ?_ (write_after_phased q)
    exact fun _ _ _ _ _ hstep => hstep
  exact hwrite.bind fun _ _ _ => trivial

theorem build_phased {α : Type} (owner_id : Uuid) (slug : Slug)
    (f : Except ResolveError EndpointPlan → α) :
    (do return f (← get_or_build json sha256_hex owner_id slug) : AppTask α).Phased AppStep
      (fun _ _ => True) .idle :=
  (get_or_build_phased owner_id slug).bind fun _ _ _ => trivial

theorem Call.phased (c : Call) : (c.task json sha256_hex).Phased AppStep (fun _ _ => True) .idle := by
  cases c with
  | write q => exact write_phased q Answer.written
  | get_or_build owner_id slug => exact build_phased owner_id slug Answer.built

variable {ι α : Type} [DecidableEq ι]

variable (json sha256_hex) in
/-- A server process at its start: its tasks write definitions, or obtain plans,
and nothing is cached. -/
structure Serving (p : Pool ι Stmt AppState α) : Prop where
  phased : ∀ i, (p.task i).Phased AppStep (fun _ _ => True) .idle
  serves : ∀ i, Serves json sha256_hex (p.task i)
  cold : p.store.plans = .empty

/-- Along a run whose updates all replace what they read, the rows are told
apart by the generation. -/
theorem versioned_along {p : Pool ι Stmt AppState α} {sched : List ι} (hp : Serving json sha256_hex p)
    (halong : p.Along UpdatesRead sched) {n m : Nat} (hle : n ≤ m) :
    Versioned (p.stores sched n).db (p.stores sched m).db := by
  have hinv : p.InPhases AppStep fun φ state => Generations φ state.db :=
    ⟨fun _ => .idle, hp.phased, ⟨nofun, nofun, nofun⟩⟩
  have htrans : ∀ {a b c : AppState}, Versioned a.db b.db → Versioned b.db c.db →
      Versioned a.db c.db := Versioned.trans
  refine halong.stores (fun a b => Versioned a.db b.db) (fun _ => .refl _) htrans
    (fun q i hq hok => ?_) hinv hle
  refine hq.step (fun a b => Versioned a.db b.db) (fun _ => .refl _)
    fun φ l state' φ' hgenerations hturn hstep => ?_
  refine hgenerations.step (fun value hl => ?_) hstep
  exact hok value (by rw [hturn, hl])

theorem BuiltBy.later {st : Nat → AppState} {m m' : Nat} {key : CacheKey} {generation : Nat}
    {plan : EndpointPlan} (h : BuiltBy json sha256_hex st m key generation plan)
    (hle : m ≤ m') : BuiltBy json sha256_hex st m' key generation plan := by
  obtain ⟨c, hcm, hgeneration, hyields⟩ := h
  refine ⟨c, by omega, hgeneration, hyields.mono ?_⟩
  rintro rows ⟨k, hck, hkm, hrows⟩
  exact ⟨k, hck, by omega, hrows⟩

/-- What a `get_or_build` that is about to cache a plan caches. -/
theorem insert_plan_spec {st : Nat → AppState} {owner_id : Uuid} {slug : Slug}
    {f : Except ResolveError EndpointPlan → α} {m : Nat} {ready : AppState → Bool}
    {write : AppState → AppState} {next : AppState → AppTask α}
    (hran : Task.Ran st 0 (do return f (← get_or_build json sha256_hex owner_id slug)) m
      (.stmt .insert_plan ready write next)) :
    ∃ generation plan,
      BuiltBy json sha256_hex st m (owner_id, slug) generation plan ∧
      write = fun state => { state with
        plans := Function.update state.plans (owner_id, slug) (some (generation, plan)) } := by
  simp only [resolve.get_or_build, Task.read_bind, Task.stmt_bind] at hran
  obtain ⟨c, _, _, _, hlookup⟩ := Task.Ran.stmt_to (by simp) hran
  obtain ⟨d, hcd, _, _, hfound⟩ := Task.Ran.stmt_to (by simp) hlookup
  cases hcached : (st d).plans.cached_at (owner_id, slug) ((st c).db.generation.getD 0) with
  | some plan =>
    simp only [hcached] at hfound
    cases hfound
  | none =>
    simp only [hcached, bind_assoc] at hfound
    obtain ⟨k, answer, hbuild, hinsert⟩ :=
      Task.Ran.bind_to (Query.all_task (by simp) _ _) hfound
    cases answer with
    | error e => cases hinsert
    | ok plan =>
      cases hinsert with
      | idle hkm =>
        refine ⟨_, plan, ⟨c, by omega, rfl, hbuild.query.mono ?_⟩, rfl⟩
        rintro rows ⟨k', hdk, hkk, hrows⟩
        exact ⟨k', by omega, by omega, hrows⟩
      | stmt _ _ _ _ hnext => cases hnext

/-- Every other statement leaves the cache alone. -/
theorem get_or_build_caches (owner_id : Uuid) (slug : Slug) (f : Except ResolveError EndpointPlan → α) :
    (do return f (← get_or_build json sha256_hex owner_id slug) : AppTask α).All fun l write =>
      l ≠ .insert_plan → ∀ state, (write state).plans = state.plans := by
  refine Task.All.bind ?_ fun _ => .done _
  refine (Task.all_read (fun _ _ => rfl) _).bind fun current_gen =>
    (Task.all_read (fun _ _ => rfl) _).bind fun found => ?_
  cases found with
  | some plan => exact .done _
  | none =>
    refine Query.all_task_bind (fun _ _ => rfl) _ fun answer _ => ?_
    cases answer with
    | error e => exact .done _
    | ok plan => exact Task.all_exec fun hne => absurd rfl hne

theorem cache_built {p : Pool ι Stmt AppState α} {sched : List ι} (hp : Serving json sha256_hex p)
    {m : Nat} (hm : m ≤ sched.length) : CacheBuilt json sha256_hex (p.stores sched) m := by
  induction m with
  | zero =>
    intro key generation plan hcached
    rw [Pool.stores_zero, hp.cold] at hcached
    cases hcached
  | succ m ih =>
    have hbuilt := ih (by omega)
    have hlater : (p.stores sched (m + 1)).plans = (p.stores sched m).plans →
        CacheBuilt json sha256_hex (p.stores sched) (m + 1) := by
      intro hplans key generation plan hcached
      rw [hplans] at hcached
      exact (hbuilt key generation plan hcached).later (Nat.le_succ m)
    have hstore := p.stores_step sched (show m < sched.length by omega)
    have hran := p.ran_between sched sched[m] (Nat.zero_le m) (by omega)
    rw [List.take_zero, Pool.run_nil] at hran
    obtain ⟨_, hstep⟩ | ⟨l, ready, write, next, _, htask, hstep⟩ :=
      (p.run (sched.take m)).turn_cases sched[m]
    · exact hlater (by rw [hstore, hstep]; rfl)
    rw [hstep] at hstore
    rw [htask] at hran
    cases hp.serves sched[m] with
    | quiet hquiet =>
      cases hquiet.ran hran with
      | stmt hwrite _ => exact hlater (by rw [hstore]; exact hwrite _)
    | build owner_id slug f hserves =>
      rw [hserves] at hran
      by_cases hl : l = .insert_plan
      · subst hl
        obtain ⟨generation, plan, hplan, rfl⟩ := insert_plan_spec hran
        intro key generation' plan' hcached
        rw [hstore] at hcached
        by_cases hkey : key = (owner_id, slug)
        · subst hkey
          simp only [Function.update_self, Option.some.injEq, Prod.mk.injEq] at hcached
          obtain ⟨rfl, rfl⟩ := hcached
          exact hplan.later (Nat.le_succ m)
        · simp only [Function.update_of_ne hkey] at hcached
          exact (hbuilt key generation' plan' hcached).later (Nat.le_succ m)
      · cases (get_or_build_caches owner_id slug f).ran hran with
        | stmt hwrite _ => exact hlater (by rw [hstore]; exact hwrite hl _)

/-- What a `get_or_build` that began after the first `n` turns answers, in a run
where every update of the generation replaces what was read for it: what
building the plan from rows as they were then or later answers. -/
theorem answered_since {p : Pool ι Stmt AppState α} {sched : List ι} (hp : Serving json sha256_hex p)
    (halong : p.Along UpdatesRead sched) {j : ι} {owner_id : Uuid} {slug : Slug}
    {f : Except ResolveError EndpointPlan → α}
    (htask : p.task j = do return f (← get_or_build json sha256_hex owner_id slug)) {n : Nat}
    (hn : n ≤ sched.length) (hafter : j ∉ sched.take n) {a : α}
    (hdone : ((p.run sched).task j).result? = some a) :
    ∃ answer, a = f answer ∧ (build_plan json sha256_hex owner_id slug).run.Sees
      (fun rows => ∃ k, n ≤ k ∧ k ≤ sched.length ∧ (p.stores sched k).db.rows = rows) answer := by
  have hran := p.ran_since sched hn hafter
  rw [htask, Task.result?_eq_some.mp hdone] at hran
  simp only [resolve.get_or_build, Task.read_bind, Task.stmt_bind] at hran
  obtain ⟨c, hnc, _, _, _, hlookup⟩ := Task.ran_stmt.mp hran
  obtain ⟨d, hcd, hd, _, _, hfound⟩ := Task.ran_stmt.mp hlookup
  cases hcached : (p.stores sched d).plans.cached_at (owner_id, slug)
      ((p.stores sched c).db.generation.getD 0) with
  | none =>
    simp only [hcached, bind_assoc] at hfound
    obtain ⟨k, answer, hbuild, hinsert⟩ := hfound.bind
    have hk := hinsert.le
    have hanswer : a = f answer := by
      cases answer with
      | error e =>
        obtain ⟨_, heq⟩ := Task.ran_done.mp hinsert
        exact heq.symm
      | ok built =>
        obtain ⟨_, _, _, _, _, hbuilt⟩ := Task.ran_stmt.mp hinsert
        obtain ⟨_, heq⟩ := Task.ran_done.mp hbuilt
        exact heq.symm
    refine ⟨answer, hanswer, hbuild.query.mono ?_⟩
    rintro rows ⟨k', hdk, hkk, hrows⟩
    exact ⟨k', by omega, by omega, hrows⟩
  | some cached =>
    simp only [hcached] at hfound
    obtain ⟨_, heq⟩ := Task.ran_done.mp hfound
    obtain ⟨b, hbd, hgeneration, hyields⟩ :=
      cache_built hp (Nat.le_of_lt hd) _ _ _ (cached_at_eq_some.mp hcached)
    refine ⟨.ok cached, heq.symm, Query.Sees.mono ?_ hyields⟩
    rintro rows ⟨k, hbk, hkd, hrows⟩
    by_cases hnk : n ≤ k
    · exact ⟨k, hnk, by omega, hrows⟩
    · -- Nothing was committed between the two reads of one generation.
      obtain ⟨hle, _⟩ := versioned_along hp halong hbk
      obtain ⟨hle', hsame⟩ := versioned_along hp halong (show k ≤ c by omega)
      exact ⟨c, hnc, by omega, by rw [hsame (by omega), hrows]⟩

theorem write_serves (q : Fetch Write) (f : Except StoreError Unit → α) :
    Serves json sha256_hex (do return f (← on_db (write_after q)) : AppTask α) := by
  refine .quiet (Task.All.bind ?_ fun _ => .done _)
  unfold on_db
  refine Task.all_zoom AppState.plans ?_ (write_after q)
  exact fun _ _ => rfl

omit [DecidableEq ι] in
theorem Starting.serving {calls : ι → Call} {p : Pool ι Stmt AppState Answer}
    (hp : Starting json sha256_hex calls p) : Serving json sha256_hex p where
  phased i := by
    rw [hp.1]
    exact (calls i).phased
  serves i := by
    rw [hp.1]
    cases calls i with
    | write q => exact write_serves q Answer.written
    | get_or_build owner_id slug => exact .build owner_id slug .built rfl
  cold := hp.2

/-- A plan is never stale, in a run where every update of the generation
replaces what was read for it: the plan a `get_or_build` returns that began
after the first `n` turns comes from rows as they were then or later, so it
shows every write committed by then. -/
theorem never_stale {calls : ι → Call} {p : Pool ι Stmt AppState Answer} {sched : List ι}
    (hp : Starting json sha256_hex calls p) (halong : p.Along ReplacesRead sched) {j : ι}
    {owner_id : Uuid} {slug : Slug} (hcall : calls j = .get_or_build owner_id slug) {n : Nat}
    (hn : n ≤ sched.length) (hafter : j ∉ sched.take n) {plan : EndpointPlan}
    (hdone : ((p.run sched).task j).result? = some (.built (.ok plan))) :
    Query.Yields (fun rows => ∃ k, n ≤ k ∧ k ≤ sched.length ∧ (p.stores sched k).db.rows = rows)
      (build_plan json sha256_hex owner_id slug) plan := by
  have htask : p.task j = do return .built (← resolve.get_or_build json sha256_hex owner_id slug) := by
    rw [hp.1, hcall]
    rfl
  obtain ⟨answer, heq, hsees⟩ := answered_since hp.serving halong htask hn hafter hdone
  obtain rfl : answer = .ok plan := (Answer.built.inj heq).symm
  exact hsees

end

/-- Two writes to different rows, and two builds: a service's timeout changes,
and the instructions of an endpoint do. -/
def sampleCalls : Fin 4 → Call :=
  ![.write (store.service.update { store.service.to_model sample.service with timeout_ms := 5000 }),
    .write (store.endpoint.update
      { store.endpoint.to_model (sample.endpoint 10) [] [] with instructions := some "new" }),
    .get_or_build 1 sample.crm, .get_or_build 1 sample.crm]

def samplePool : Pool (Fin 4) Stmt AppState Answer where
  store :=
    { db :=
        { rows := { services := .single sample.service
                    endpoints := .single (sample.endpoint 10) }
          generation := some 1, meta_locked := false, now := 0, log := [] }
      plans := .empty }
  task i := (sampleCalls i).task default fun _ => ""

theorem samplePool_starting : Starting default (fun _ => "") sampleCalls samplePool := ⟨fun _ => rfl, rfl⟩

/-- The generation that was read for the update that runs next. -/
def read_of : Option Stmt → Option Nat
  | some (.update_generation read) => some read
  | _ => none

theorem updatesRead_iff {ι α : Type} [DecidableEq ι] (p : Pool ι Stmt AppState α) (i : ι) :
    UpdatesRead p i ↔ ∀ read ∈ read_of (p.turn i), p.store.db.generation.getD 0 = read := by
  unfold UpdatesRead read_of
  split
  · rename_i hturn
    simp [hturn]
  · rename_i hother
    exact ⟨fun _ _ hread => (by cases hread), fun _ read hturn => absurd hturn (hother read)⟩

instance {ι α : Type} [DecidableEq ι] (p : Pool ι Stmt AppState α) (i : ι) :
    Decidable (UpdatesRead p i) := decidable_of_iff' _ (updatesRead_iff p i)

instance {ι : Type} [DecidableEq ι] (p : Pool ι Stmt AppState Answer) (i : ι) :
    Decidable (ReplacesRead p i) := inferInstanceAs (Decidable (UpdatesRead p i))

/-- One write after the other, a build in between and one after: the second
build began after both and shows the new instructions. -/
theorem never_stale_sequential :
    let sched := [0, 0, 0, 0, 0, 2, 2, 2, 2, 2, 2, 2, 2, 1, 1, 1, 1, 1, 3, 3, 3, 3, 3, 3, 3, 3]
    ∃ plan, ((samplePool.run sched).task 3).result? = some (.built (.ok plan)) ∧
      plan.instructions = some "new" ∧
      Query.Yields (fun rows => ∃ k, 18 ≤ k ∧ k ≤ 26 ∧ (samplePool.stores sched k).db.rows = rows)
        (build_plan default (fun _ => "") 1 sample.crm) plan := by
  intro sched
  refine ⟨_, rfl, rfl, ?_⟩
  have hcall : sampleCalls 3 = .get_or_build 1 sample.crm := rfl
  have hlater : 18 ≤ sched.length := by decide
  exact never_stale samplePool_starting (by decide) hcall hlater (by decide) rfl

/-- The two writes read one generation and both replace it by the next. The
build in between leaves its plan under that generation, and the build after
them is given it: the instructions are the old ones. -/
theorem stale_plan_served :
    let sched := [0, 0, 0, 1, 1, 1, 0, 0, 2, 2, 2, 2, 2, 2, 2, 2, 1, 1, 3, 3]
    sampleCalls 3 = .get_or_build 1 sample.crm ∧ 3 ∉ sched.take 18 ∧
    ((samplePool.run (sched.take 18)).task 1).result? = some (.written (.ok ())) ∧
    ∃ plan, ((samplePool.run sched).task 3).result? = some (.built (.ok plan)) ∧
      plan.instructions = none ∧
      ¬ Query.Yields
        (fun rows => ∃ k, 18 ≤ k ∧ k ≤ 20 ∧ (samplePool.stores sched k).db.rows = rows)
        (build_plan default (fun _ => "") 1 sample.crm) plan := by
  intro sched
  refine ⟨rfl, by decide, rfl, _, rfl, rfl, fun hyields => ?_⟩
  have hrows : ∀ k, 18 ≤ k → k ≤ 20 →
      (samplePool.stores sched k).db.rows = (samplePool.stores sched 18).db.rows := by
    intro k hle hk
    interval_cases k <;> rfl
  have hone : ∀ rows, (∃ k, 18 ≤ k ∧ k ≤ 20 ∧ (samplePool.stores sched k).db.rows = rows) →
      rows = (samplePool.stores sched 18).db.rows := by
    rintro rows ⟨k, hle, hk, rfl⟩
    exact hrows k hle hk
  have heval := (Query.Sees.mono hone hyields).eval_eq
  have hnew := congrArg (fun answer => answer.toOption.map (·.instructions)) heval
  exact absurd hnew (by decide)

end api2mcp.resolve
