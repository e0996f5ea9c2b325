import Api2Mcp.Runtime.Callable
import Api2Mcp.Runtime.Scope
import Api2Mcp.Runtime.SnapshotTarget

namespace api2mcp.runtime.snapshot

open btree concurrent interact serde_json
open api2mcp.entity api2mcp.http api2mcp.model api2mcp.resolve api2mcp.schema api2mcp.script
open api2mcp.runtime.budget api2mcp.runtime.dispatch api2mcp.runtime.fanout api2mcp.runtime.batch
open api2mcp.runtime.replay

/-- What the target of a tool asks for: the time, and its calls. -/
def TargetAsk : RunQuestion → Prop
  | .now | .fan_out .. | .panic => True
  | _ => False

section

variable {crates : Crates} {engine : Engine} {plan : EndpointPlan} {ctx : DispatchContext}
  {limits : ConcurrencyLimits} {meter : BudgetMeter}

theorem run_batch_asks {caller_script : Option Slug} {items : List (String × Value)} :
    (run_batch crates plan ctx limits meter caller_script items).AllAsks TargetAsk := by
  unfold run_batch
  split
  · exact .done _
  rw [Run.now_bind]
  refine .ask trivial fun reserved => ?_
  split
  · exact .done _
  rw [Run.now_bind]
  refine .ask trivial fun measured => ?_
  split
  · exact .done _
  refine Prog.AllAsks.bind ?_ fun _ => .done _
  unfold fan_out
  rw [Run.join_bind]
  refine .ask trivial fun joined => ?_
  split
  · exact .done _
  · exact .ask trivial nofun

theorem service_asks {α : Type} {caller_script : Slug} (script : Script α) (ledger : Ledger) :
    (service crates plan ctx limits caller_script script ledger).AllAsks TargetAsk := by
  induction script generalizing ledger with
  | done a => exact .done _
  | ask q next ih =>
    cases q with
    | now => exact .ask trivial fun now => ih now ledger
    | call call =>
      unfold service
      refine Prog.AllAsks.bind ?_ fun reply => ih reply.1 reply.2
      unfold service_one
      split
      · exact .done _
      split
      · exact .done _
      · exact run_batch_asks.bind fun _ => .done _

theorem wall_clock_deadline_asks : (wall_clock_deadline meter).AllAsks TargetAsk := by
  unfold wall_clock_deadline
  rw [Run.now_bind]
  refine .ask trivial fun now => ?_
  split
  · exact .ask trivial fun _ => .done _
  · exact .done _
  · exact .ask trivial fun _ => .done _

theorem run_target_asks {tool : PlannedTool} {tool_name : String} {args : Value} :
    (run_target crates engine plan ctx limits meter tool tool_name args).AllAsks TargetAsk := by
  unfold run_target
  split
  · split
    · exact .done _
    refine Prog.AllAsks.bind ?_ fun _ => .done _
    unfold run_script
    split
    · exact .done _
    refine wall_clock_deadline_asks.bind fun deadline => ?_
    refine (service_asks _ _).bind fun ended => ?_
    obtain ⟨result, ledger⟩ := ended
    cases result with
    | ok value => exact .done _
    | error failure => exact .done _
  · exact run_batch_asks.bind fun _ => .done _

/-- Loading asks for providers. -/
theorem load_asks : (AuthProviders.load plan).AllAsks fun q => ∃ owner_id slug, q = .provider owner_id slug := by
  have hcalls : ∀ (calls : List PlannedApiCall) (map : AuthProviders), (AuthProviders.load_from plan calls map).AllAsks
      fun q => ∃ owner_id slug, q = .provider owner_id slug := by
    intro calls
    induction calls with
    | nil => exact fun _ => .done _
    | cons planned calls ih =>
      intro map
      unfold AuthProviders.load_from
      split
      · exact ih _
      rw [Run.provider_bind]
      refine .ask ⟨_, _, rfl⟩ fun answer => ?_
      split
      · exact .done _
      · exact ih _
      · exact ih _
  exact hcalls _ _

/-- A service that has no provider was asked for. -/
theorem load_missed {loaded : List RunEvent} {auth : AuthProviders}
    (h : (AuthProviders.load plan).Emits loaded (.done (.ok auth))) {planned : PlannedApiCall}
    (hplanned : planned ∈ plan.calls.values) (hnone : auth.get planned.service.slug = none) :
    (⟨.provider plan.owner_id planned.service.slug, .ok none⟩ : RunEvent) ∈ loaded := by
  have hcalls : ∀ (calls : List PlannedApiCall) (map : AuthProviders) (loaded : List RunEvent),
      (AuthProviders.load_from plan calls map).Emits loaded (.done (.ok auth)) →
      (∀ slug, auth.get slug = none → map.get slug = none) ∧
      ∀ planned ∈ calls, auth.get planned.service.slug = none →
        (⟨.provider plan.owner_id planned.service.slug, .ok none⟩ : RunEvent) ∈ loaded := by
    intro calls
    induction calls with
    | nil =>
      intro map loaded hemits
      obtain ⟨rfl, hdone⟩ := hemits.of_done
      cases hdone
      exact ⟨fun _ h => h, fun _ h => nomatch h⟩
    | cons first calls ih =>
      intro map loaded hemits
      unfold AuthProviders.load_from at hemits
      split at hemits
      · rename_i hcontains
        obtain ⟨hkept, hasked⟩ := ih map loaded hemits
        refine ⟨hkept, fun planned hmem hnone => ?_⟩
        obtain rfl | hmem := List.mem_cons.mp hmem
        · rw [BTreeMap.contains_key, hkept _ hnone] at hcontains
          cases hcontains
        · exact hasked planned hmem hnone
      rw [Run.provider_bind] at hemits
      obtain ⟨_, hdone⟩ | ⟨answer, rest, rfl, hrest⟩ := hemits.of_ask
      · cases hdone
      split at hrest
      · obtain ⟨_, hdone⟩ := hrest.of_done
        cases hdone
      · obtain ⟨hkept, hasked⟩ := ih map rest hrest
        refine ⟨hkept, fun planned hmem hnone => ?_⟩
        obtain rfl | hmem := List.mem_cons.mp hmem
        · exact List.mem_cons_self
        · exact List.mem_cons_of_mem _ (hasked planned hmem hnone)
      · obtain ⟨hkept, hasked⟩ := ih _ rest hrest
        have hmissing : ∀ slug, auth.get slug = none → first.service.slug ≠ slug ∧ map.get slug = none := by
          intro slug hnone
          have hinserted := hkept slug hnone
          rw [BTreeMap.get_insert] at hinserted
          split at hinserted
          · cases hinserted
          · rename_i hne
            exact ⟨Ne.symm hne, hinserted⟩
        refine ⟨fun slug hnone => (hmissing slug hnone).2, fun planned hmem hnone => ?_⟩
        obtain rfl | hmem := List.mem_cons.mp hmem
        · exact absurd rfl (hmissing _ hnone).1
        · exact List.mem_cons_of_mem _ (hasked planned hmem hnone)
  exact (hcalls plan.calls.values [] loaded h).2 planned hplanned hnone

/-- What a run has for a service is what the store answered. -/
theorem load_answered {loaded : List RunEvent} {auth : AuthProviders}
    (h : (AuthProviders.load plan).Emits loaded (.done (.ok auth))) {planned : PlannedApiCall}
    (hplanned : planned ∈ plan.calls.values) :
    (⟨.provider plan.owner_id planned.service.slug, .ok (auth.get planned.service.slug)⟩ : RunEvent) ∈ loaded := by
  cases hget : auth.get planned.service.slug with
  | none => exact load_missed h hplanned hget
  | some provider => exact load_found h hget

end

/-- Any event but that a provider is loaded. -/
def apart (e : RunEvent) : Bool :=
  match e.question with
  | .provider .. => false
  | _ => true

/-- The snapshots that were written. -/
def definition_snapshots (evs : List RunEvent) : List Value :=
  evs.flatMap fun e => match e with
    | ⟨.create_run run _, _⟩ => [run.definition_snapshot]
    | _ => []

theorem definition_snapshots_append (evs evs' : List RunEvent) :
    definition_snapshots (evs ++ evs') = definition_snapshots evs ++ definition_snapshots evs' := List.flatMap_append

theorem definition_snapshots_of_asks {evs : List RunEvent} (h : ∀ e ∈ evs, TargetAsk e.question) :
    definition_snapshots evs = [] := by
  refine List.flatMap_eq_nil_iff.mpr fun e he => ?_
  obtain ⟨question, answer⟩ := e
  cases question with
  | create_run run calls => exact (h _ he).elim
  | _ => rfl

/-- The two runs have the same world: of a service the same provider, and else
the same answers to the same questions. -/
structure SameWorld (evs evs' : List RunEvent) : Prop where
  providers : ∀ owner_id owner_id' service_slug answer answer',
    (⟨.provider owner_id service_slug, answer⟩ : RunEvent) ∈ evs →
    (⟨.provider owner_id' service_slug, answer'⟩ : RunEvent) ∈ evs' → answer = answer'
  answered : AnsweredAlike SameAsk Told (evs.filter apart) (evs'.filter apart)

/-- Two results that say the same, but for the id of the record. -/
def SameResult (result result' : RunResult) : Prop :=
  result.status = result'.status ∧ result.value = result'.value ∧ result.error = result'.error

/-- The same, of two runs that were both recorded. -/
def SameRecorded : Except ExecutorError RunResult → Except ExecutorError RunResult → Prop
  | .ok result, .ok result' => SameResult result result'
  | _, _ => True

/-- What a run does once it has its providers. -/
def run_loaded (crates : Crates) (engine : Engine) (executor : Executor) (plan : EndpointPlan) (tool : PlannedTool)
    (tool_name : String) (args : Value) (caller_kind : store.RunCallerKind) (caller_id : String)
    (auth : AuthProviders) (started : http.Instant) : Run (Except ExecutorError RunResult) := do
  let now ← Run.now
  let utc_now ← Run.utc_now
  let (result, meter) ← run_target crates engine plan ⟨executor.policy, auth, executor.max_redirects⟩
    (ConcurrencyLimits.build plan tool.budgets.max_concurrency) (BudgetMeter.new tool.budgets now utc_now) tool
    tool_name args
  match result with
  | .error e => return .error e
  | .ok run => finish crates plan tool caller_kind caller_id args started run meter

section

variable {crates : Crates} {engine : Engine} {executor : Executor} {plan : EndpointPlan} {tool_name : String}
  {args : Value} {caller_kind : store.RunCallerKind} {caller_id : String} {evs : List RunEvent} {result : RunResult}

/-- A recorded run found its tool and its providers. -/
theorem loaded_of_run
    (h : (executor.run_tool crates engine plan tool_name args caller_kind caller_id).Emits evs (.done (.ok result))) :
    ∃ tool started loaded auth rest, evs = ⟨.now, started⟩ :: (loaded ++ rest) ∧
      plan.tool tool_name = some tool ∧ (AuthProviders.load plan).Emits loaded (.done (.ok auth)) ∧
      (run_loaded crates engine executor plan tool tool_name args caller_kind caller_id auth started).Emits rest
        (.done (.ok result)) := by
  unfold Executor.run_tool at h
  obtain ⟨started, first, _, rfl, hstarted, h⟩ := h.done_of_bind
  split at h
  · obtain ⟨_, hdone⟩ := h.of_done
    cases hdone
  rename_i tool htool
  obtain ⟨answer, loaded, rest, rfl, hload, hrest⟩ := h.done_of_bind
  split at hrest
  · obtain ⟨_, hdone⟩ := hrest.of_done
    cases hdone
  rename_i auth
  obtain rfl := hstarted.of_query
  exact ⟨tool, started, loaded, auth, rest, rfl, htool, hload, hrest⟩

/-- The rest of a recorded run loads nothing, and writes the snapshot of the
tool. -/
theorem rest_of_loaded {tool : PlannedTool} {auth : AuthProviders} {started : http.Instant}
    (h : (run_loaded crates engine executor plan tool tool_name args caller_kind caller_id auth started).Emits evs
      (.done (.ok result))) :
    evs.filter apart = evs ∧ definition_snapshots evs = [build_snapshot plan tool] := by
  unfold run_loaded at h
  obtain ⟨now, first, _, rfl, hnow, h⟩ := h.done_of_bind
  obtain ⟨utc_now, second, _, rfl, hutc, h⟩ := h.done_of_bind
  obtain ⟨⟨ended, meter⟩, middle, last, rfl, htarget, h⟩ := h.done_of_bind
  have hasks := run_target_asks.of_runs ⟨_, htarget⟩
  dsimp only at h
  split at h
  · obtain ⟨_, hdone⟩ := h.of_done
    cases hdone
  unfold finish at h
  obtain ⟨request_id, _, _, rfl, hid, h⟩ := h.done_of_bind
  obtain ⟨finished, _, _, rfl, hfinished, h⟩ := h.done_of_bind
  obtain ⟨recorded, _, _, rfl, hrecorded, h⟩ := h.done_of_bind
  split at h
  · obtain ⟨_, hdone⟩ := h.of_done
    cases hdone
  obtain ⟨rfl, -⟩ := h.of_done
  obtain rfl := hnow.of_query
  obtain rfl := hutc.of_query
  obtain rfl := hid.of_query
  obtain rfl := hfinished.of_query
  obtain rfl := hrecorded.of_query
  have hmiddle : middle.filter apart = middle := by
    refine List.filter_eq_self.mpr fun e he => ?_
    have hask := hasks e he
    obtain ⟨question, answer⟩ := e
    cases question with
    | provider owner_id service_slug => exact hask.elim
    | _ => rfl
  constructor
  · simp only [List.filter_append, hmiddle, List.filter_cons, apart, List.filter_nil, if_true]
  · simp only [definition_snapshots_append, definition_snapshots_of_asks hasks]
    rfl

variable {plan' : EndpointPlan} {tool tool' : PlannedTool} {tool_name' : String}
  {caller_kind' : store.RunCallerKind} {caller_id' : String} {auth auth' : AuthProviders}
  {evs' : List RunEvent} {result' : RunResult}

/-- Whatever is recorded of them, two targets that ended alike are told alike. -/
theorem finish_same {run run' : TargetRun} (hstatus : run.status = run'.status) (hvalue : run.value = run'.value)
    (herror : run.error = run'.error) (started started' : http.Instant) (meter meter' : BudgetMeter) :
    SameRun SameRecorded (finish crates plan tool caller_kind caller_id args started run meter)
      (finish crates plan' tool' caller_kind' caller_id' args started' run' meter') := by
  unfold finish
  rw [Run.new_v4_bind, Run.new_v4_bind]
  refine .ask trivial (fun id id' _ _ _ => .new_v4 id id') fun id id' _ _ _ => ?_
  refine now_same.bind fun now _ hnow => ?_
  subst hnow
  unfold recorder.record
  rw [Run.create_run_bind, Run.create_run_bind]
  refine .ask trivial (fun answer answer' _ _ _ => .create_run answer answer') fun answer answer' _ _ _ => ?_
  have hends : ∀ ended ended' : Except ExecutorError RunResult, SameRecorded ended ended' →
      SameRun SameRecorded (.done ended) (.done ended') := fun _ _ => .done
  cases answer with
  | error e =>
    cases answer' with
    | error e' => exact hends (.error (.Record e)) (.error (.Record e')) trivial
    | ok run_id' => exact hends (.error (.Record e)) (.ok _) trivial
  | ok run_id =>
    cases answer' with
    | error e' => exact hends (.ok _) (.error (.Record e')) trivial
    | ok run_id' => exact .done ⟨hstatus, hvalue, herror⟩

/-- What the calls of a run are sent with. -/
def context (executor : Executor) (auth : AuthProviders) : DispatchContext :=
  ⟨executor.policy, auth, executor.max_redirects⟩

theorem run_loaded_same (hbudgets : tool.budgets = tool'.budgets)
    (h : SameTarget plan plan' (context executor auth) (context executor auth') tool tool' tool_name tool_name')
    (started started' : http.Instant) :
    SameRun SameRecorded
      (run_loaded crates engine executor plan tool tool_name args caller_kind caller_id auth started)
      (run_loaded crates engine executor plan' tool' tool_name' args caller_kind' caller_id' auth' started') := by
  unfold run_loaded
  refine now_same.bind fun now _ hnow => ?_
  subst hnow
  refine utc_now_same.bind fun utc_now _ hutc => ?_
  subst hutc
  rw [hbudgets]
  have hpolicy : (context executor auth).policy = (context executor auth').policy := rfl
  have hredirects : (context executor auth).max_redirects = (context executor auth').max_redirects := rfl
  refine (run_target_same crates hpolicy hredirects h _ _ _ args).bind fun ended ended' hended => ?_
  obtain ⟨ended, meter⟩ := ended
  obtain ⟨ended', meter'⟩ := ended'
  cases ended with
  | error e => exact hended.elim
  | ok run =>
    cases ended' with
    | error e => exact hended.elim
    | ok run' =>
      obtain ⟨hstatus, hvalue, herror⟩ := hended
      exact finish_same hstatus hvalue herror started started' meter meter'

/-- The snapshot is complete where the definitions agree on which values are
there, of those that it writes as null or as themselves: two runs with one
snapshot, one set of arguments and one world do the same and end the same. -/
theorem same_runs {P P' : Rows → Prop} {json json' : JsonCrate} {sha256_hex sha256_hex' : String → String}
    {owner_id owner_id' : Uuid} {slug slug' : Slug}
    (hbuilt : Query.Yields P (build_plan json sha256_hex owner_id slug) plan)
    (hbuilt' : Query.Yields P' (build_plan json' sha256_hex' owner_id' slug') plan')
    (htyped : TypedPlan crates.url plan) (htyped' : TypedPlan crates.url plan')
    (hrun : (executor.run_tool crates engine plan tool_name args caller_kind caller_id).Emits evs (.done (.ok result)))
    (hrun' : (executor.run_tool crates engine plan' tool_name' args caller_kind' caller_id').Emits evs'
      (.done (.ok result')))
    (hsnapshot : definition_snapshots evs = definition_snapshots evs') (hworld : SameWorld evs evs')
    (hoptionals : ∀ tool tool', plan.tool tool_name = some tool → plan'.tool tool_name' = some tool' →
      SameOptionals plan plan' tool tool') :
    SameResult result result' ∧ List.Forall₂ Did (evs.filter apart) (evs'.filter apart) := by
  obtain ⟨tool, started, loaded, auth, rest, rfl, htool, hload, hrest⟩ := loaded_of_run hrun
  obtain ⟨tool', started', loaded', auth', rest', rfl, htool', hload', hrest'⟩ := loaded_of_run hrun'
  obtain ⟨hfilter, hwritten⟩ := rest_of_loaded hrest
  obtain ⟨hfilter', hwritten'⟩ := rest_of_loaded hrest'
  have hloaded : ∀ {plan : EndpointPlan} {auth : AuthProviders} {loaded : List RunEvent},
      (AuthProviders.load plan).Emits loaded (.done (.ok auth)) →
      loaded.filter apart = [] ∧ definition_snapshots loaded = [] := by
    intro plan auth loaded hload
    have hasks := load_asks.of_runs ⟨_, hload⟩
    constructor
    · refine List.filter_eq_nil_iff.mpr fun e he => ?_
      obtain ⟨owner_id, slug, hquestion⟩ := hasks e he
      simp [apart, hquestion]
    · refine List.flatMap_eq_nil_iff.mpr fun e he => ?_
      obtain ⟨owner_id, slug, hquestion⟩ := hasks e he
      obtain ⟨question, answer⟩ := e
      subst hquestion
      rfl
  have hevents : ∀ {started : http.Instant} {loaded rest : List RunEvent}, loaded.filter apart = [] →
      rest.filter apart = rest →
      ((⟨.now, started⟩ : RunEvent) :: (loaded ++ rest)).filter apart = ⟨.now, started⟩ :: rest := by
    intro started loaded rest hnone hall
    rw [List.filter_cons_of_pos rfl, List.filter_append, hnone, hall, List.nil_append]
  have hshown : build_snapshot plan tool = build_snapshot plan' tool' := by
    have hone : ∀ {started : http.Instant} {loaded rest : List RunEvent}, definition_snapshots loaded = [] →
        definition_snapshots (⟨.now, started⟩ :: (loaded ++ rest)) = definition_snapshots rest := by
      intro started loaded rest hnone
      rw [← List.singleton_append, definition_snapshots_append, definition_snapshots_append, hnone]
      rfl
    rw [hone (hloaded hload).2, hone (hloaded hload').2, hwritten, hwritten'] at hsnapshot
    exact List.singleton_injective hsnapshot
  have hpolicy : (context executor auth).policy = (context executor auth').policy := rfl
  have hredirects : (context executor auth).max_redirects = (context executor auth').max_redirects := rfl
  have hauth : SameAuth plan plan' (context executor auth) (context executor auth') := by
    intro planned hplanned planned' hplanned' hslug
    have hanswered := load_answered hload hplanned
    have hanswered' := load_answered hload' hplanned'
    rw [← hslug] at hanswered'
    exact Except.ok.inj (hworld.providers _ _ _ _ _
      (List.mem_cons_of_mem _ (List.mem_append_left _ hanswered))
      (List.mem_cons_of_mem _ (List.mem_append_left _ hanswered')))
  have hmem := mem_of_tool htool
  have hmem' := mem_of_tool htool'
  have htool_built := builtTool_of_build_plan hbuilt hmem
  have htool_built' := builtTool_of_build_plan hbuilt' hmem'
  have hbudgets := budgets_of_snapshot htyped htyped' hmem hmem' htool_built htool_built' hshown
  have htarget := target_of_snapshot htyped htyped' hpolicy hredirects hauth htool htool' htool_built htool_built'
    hshown (hoptionals tool tool' htool htool')
  have hanswered := hworld.answered
  rw [hevents (hloaded hload).1 hfilter, hevents (hloaded hload').1 hfilter'] at hanswered ⊢
  obtain ⟨hstarted, hrests⟩ := hanswered trivial
  cases hstarted
  obtain ⟨hdid, hsame⟩ := Prog.Alike.runs (run_loaded_same hbudgets htarget started started) hrest hrest' hrests
  exact ⟨hsame, .cons (.now started) hdid⟩

end

/-- A query param that a caller has to send, unless it has a default. -/
def query_param (default_value : Option Value) : api_call_params.Model :=
  { ping_param with name := "q", location := .Query, default_value }

def query_rows (default_value : Option Value) : Rows where
  services := .single { sample.service with max_concurrency := 4 }
  api_calls := .single scoped_call
  api_call_params := .single (query_param default_value)
  tags := .single ⟨4, sample.crm⟩
  api_call_tags := .single ⟨2, 4⟩
  endpoints := .single (sample.endpoint 9)

def query_call (default_value : Option Value) : ApiCall :=
  { sample_call with params := [store.api_call.param_to_model (query_param default_value)] }

def query_plan (default_value : Option Value) : EndpointPlan :=
  { sample_plan with
    tools := [{ name := "crm", input_schema := schema.input_schema (query_call default_value).params
                target := .ApiCall sample.crm, budgets := {} }]
    calls := [(sample_slug, { sample_planned with api_call := query_call default_value })] }



theorem query_plan_built {default_value : Option Value} (h : default_value = none ∨ default_value = some .null) :
    (build_plan sample_crates.json (fun _ => "") 1 sample.crm).run.eval (query_rows default_value) =
      .ok (query_plan default_value) := by
  obtain rfl | rfl := h
  · rfl
  · rfl

/-- The crates as they are on the texts of the service. -/
def query_crates : Crates :=
  { sample_crates with
    url := { sample_crates.url with
      parse := fun text =>
        if text = "https://crm.example/" ∨ text = "https://crm.example" then .ok dispatch.sample_service.base_url
        else .error "relative URL without a base" } }

theorem query_service_typed : TypedService query_crates.url dispatch.sample_service where
  base_url := by
    simp [query_crates, dispatch.sample_service, sample_url, net.Url.to_string, net.Host.to_string]
  origin_allowlist o ho := by
    rw [List.mem_singleton.mp ho]
    simp [Origin.from_str, query_crates, sample_origin, Origin.ascii_serialization,
      net.UrlOrigin.ascii_serialization, net.Host.to_string, net.default_port]
    rfl
  default_headers := .nil
  timeout_ms := by decide
  max_concurrency := by decide
  rate_limit_per_min := nofun
  max_response_bytes := by decide

theorem query_plan_typed (default_value : Option Value) : TypedPlan query_crates.url (query_plan default_value) where
  calls kv hkv := by
    rw [List.mem_singleton.mp hkv]
    exact ⟨⟨rfl, .nil, nofun⟩, query_service_typed⟩
  callable_by kv hkv := nomatch hkv
  budgets tool htool := by
    rw [List.mem_singleton.mp htool]
    exact ⟨nofun, nofun, nofun, nofun, nofun⟩

def refused_events {limits : ConcurrencyLimits} {items : List BoxedCall} (joined : Joined limits items)
    (row : store.NewRun) (calls : List store.NewRunCall) : List RunEvent :=
  ⟨.now, (0 : Nat)⟩ :: ([⟨.provider 1 sample_slug, .ok none⟩] ++ [⟨.now, (0 : Nat)⟩, ⟨.utc_now, 0⟩, ⟨.now, (0 : Nat)⟩,
    ⟨.now, (0 : Nat)⟩, ⟨.fan_out limits items, joined⟩, ⟨.new_v4, ""⟩, ⟨.now, (0 : Nat)⟩,
    ⟨.create_run row calls, .ok 0⟩])

/-- The meter of a run that is refused its one call. -/
def refused_meter : BudgetMeter := { BudgetMeter.new {} (0 : Nat) 0 with calls_used := 1#32 }

/-- What a tool comes to whose one call is refused. -/
def refused_target (tool_name : String) (e : DispatchError) : TargetRun :=
  of_batch (settle refused_meter [tool_name] [.error e]).1

/-- A run whose one call is refused before it is sent. -/
theorem refused_run {plan : EndpointPlan} {tool_name : String} {tool : PlannedTool} {slug : Slug} {e : DispatchError}
    (htool : plan.tool tool_name = some tool) (htarget : tool.target = .ApiCall slug) (hbudgets : tool.budgets = {})
    (hload : (AuthProviders.load plan).Emits [⟨.provider 1 sample_slug, .ok none⟩] (.done (.ok [])))
    (hdispatch : ∀ ctx budget, dispatch query_crates plan ctx none tool_name (.object []) budget = .done (.error e)) :
    ∃ limits items, ∃ joined : Joined limits items, ∃ row calls, items.length = 1 ∧ own 0 joined.moves = [] ∧
      row.definition_snapshot = build_snapshot plan tool ∧
      ((Executor.new {}).run_tool query_crates (fun _ _ _ _ => .done (.ok .null)) plan tool_name (.object []) .Cli
        "").Emits (refused_events joined row calls)
          (.done (.ok { run_id := 0, status := (refused_target tool_name e).status
                        value := (refused_target tool_name e).value
                        error := (refused_target tool_name e).error })) := by
  have hreserve : (BudgetMeter.new tool.budgets (0 : Nat) 0).reserve_calls (0 : Nat) 1#32 =
      (.ok (), refused_meter) := by
    rw [hbudgets]
    rfl
  have hremaining : refused_meter.remaining_time (0 : Nat) = .ok none := rfl
  have hcall : (dispatch query_crates plan (context (Executor.new {}) []) none tool_name (.object [])
      (call_budget refused_meter none)).Emits [] (.done (.error e)) := by
    rw [hdispatch]
    exact .nil _
  obtain ⟨joined, hown, -, row, calls, hrow, hrun⟩ := run_tool_alone (Executor.new {}) .Cli "" htool htarget hload
    (0 : Nat) (0 : Nat) 0 hreserve hremaining hcall (0 : Nat) 0
  exact ⟨_, _, joined, row, calls, rfl, hown, hrow, hrun⟩

/-- Two such runs have one world. -/
theorem refused_world {limits limits' : ConcurrencyLimits} {items items' : List BoxedCall}
    {joined : Joined limits items} {joined' : Joined limits' items'} (hlen : items.length = 1)
    (hown : own 0 joined.moves = []) (row row' : store.NewRun) (calls calls' : List store.NewRunCall) :
    SameWorld (refused_events joined row calls) (refused_events joined' row' calls') where
  providers := by
    intro owner_id owner_id' service_slug answer answer' hmem hmem'
    simp [refused_events] at hmem hmem'
    rw [hmem.2, hmem'.2]
  answered := by
    have hlane : ∀ k < items.length, AnsweredAlike SameQuestion SameEvent (own k joined.moves) (own k joined'.moves) := by
      intro k hk
      obtain rfl : k = 0 := by omega
      rw [hown]
      trivial
    exact fun _ => ⟨.now _, fun _ => ⟨.now _, fun _ => ⟨.utc_now _, fun _ => ⟨.now _, fun _ => ⟨.now _, fun _ =>
      ⟨.fan_out hlane, fun _ => ⟨.new_v4 _ _, fun _ => ⟨.now _, fun _ => ⟨.create_run _ _, trivial⟩⟩⟩⟩⟩⟩⟩⟩⟩

theorem refused_snapshots {limits : ConcurrencyLimits} {items : List BoxedCall} (joined : Joined limits items)
    (row : store.NewRun) (calls : List store.NewRunCall) :
    definition_snapshots (refused_events joined row calls) = [row.definition_snapshot] := rfl

theorem args_ne_bind (e : schema.ValidationError) (e' : http.BindError) :
    DispatchError.to_string (.Args e) ≠ DispatchError.to_string (.Bind e') := by
  have hheads : ∀ text text' : String, "arguments: " ++ text ≠ "binding request: " ++ text' := by
    intro text text' h
    have hhead := congrArg (fun s : String => s.toList.head?) h
    simp at hhead
  exact hheads _ _
theorem refused_errors : (refused_target "crm" (.Args (.MissingRequired "q"))).error ≠
    (refused_target "crm" (.Bind (.UnsupportedValueShape "q" "null"))).error := by
  have hmissed : (refused_target "crm" (.Args (.MissingRequired "q"))).error =
      some (DispatchError.to_string (.Args (.MissingRequired "q"))) := rfl
  have hbound : (refused_target "crm" (.Bind (.UnsupportedValueShape "q" "null"))).error =
      some (DispatchError.to_string (.Bind (.UnsupportedValueShape "q" "null"))) := rfl
  rw [hmissed, hbound]
  exact fun h => args_ne_bind _ _ (Option.some.inj h)

/-- A default of null is recorded as no default is: without an argument the one
run misses it, and the other binds null. -/
theorem null_default_differs :
    ∃ plan plan' evs evs' result result',
      (build_plan sample_crates.json (fun _ => "") 1 sample.crm).run.eval (query_rows none) = .ok plan ∧
      (build_plan sample_crates.json (fun _ => "") 1 sample.crm).run.eval (query_rows (some .null)) = .ok plan' ∧
      TypedPlan query_crates.url plan ∧ TypedPlan query_crates.url plan' ∧
      ((Executor.new {}).run_tool query_crates (fun _ _ _ _ => .done (.ok .null)) plan "crm" (.object []) .Cli
        "").Emits evs (.done (.ok result)) ∧
      ((Executor.new {}).run_tool query_crates (fun _ _ _ _ => .done (.ok .null)) plan' "crm" (.object []) .Cli
        "").Emits evs' (.done (.ok result')) ∧
      definition_snapshots evs = definition_snapshots evs' ∧ SameWorld evs evs' ∧ ¬ SameResult result result' := by
  have hload : ∀ default_value, (AuthProviders.load (query_plan default_value)).Emits
      [⟨.provider 1 sample_slug, .ok none⟩] (.done (.ok [])) := fun _ => .cons (.nil _)
  have htool : ∀ default_value, (query_plan default_value).tool "crm" = some
      { name := "crm", input_schema := schema.input_schema (query_call default_value).params
        target := .ApiCall sample.crm, budgets := {} } := fun _ => rfl
  have hmissing : ∀ ctx budget, dispatch query_crates (query_plan none) ctx none "crm" (.object []) budget =
      .done (.error (.Args (.MissingRequired "q"))) := fun _ _ => rfl
  have hnull : ∀ ctx budget, dispatch query_crates (query_plan (some .null)) ctx none "crm" (.object []) budget =
      .done (.error (.Bind (.UnsupportedValueShape "q" "null"))) := fun _ _ => rfl
  obtain ⟨_, _, joined, row, calls, hlen, hown, hrow, hrun⟩ := refused_run (htool none) rfl rfl (hload none)
    hmissing
  obtain ⟨_, _, joined', row', calls', -, -, hrow', hrun'⟩ := refused_run (htool (some .null)) rfl rfl
    (hload (some .null)) hnull
  refine ⟨query_plan none, query_plan (some .null), _, _, _, _, query_plan_built (.inl rfl),
    query_plan_built (.inr rfl), query_plan_typed _, query_plan_typed _, hrun, hrun', ?_,
    refused_world hlen hown row row' calls calls', ?_⟩
  · rw [refused_snapshots, refused_snapshots, hrow, hrow']
    rfl
  · exact fun hsame => refused_errors hsame.2.2

/-- The endpoint with another name for the tool. -/
def asked_rows : Rows :=
  { query_rows none with endpoint_aliases := .single ⟨9, .ApiCall sample.crm, "ask"⟩ }

def asked_plan : EndpointPlan :=
  { query_plan none with
    tools := [{ name := "ask", input_schema := schema.input_schema (query_call none).params
                target := .ApiCall sample.crm, budgets := {} }] }

theorem asked_plan_built :
    (build_plan sample_crates.json (fun _ => "") 1 sample.crm).run.eval asked_rows = .ok asked_plan := rfl


/-- A tool under two names, asked the same, says the same. -/
theorem renamed_runs_same :
    ∃ evs evs' result result',
      ((Executor.new {}).run_tool query_crates (fun _ _ _ _ => .done (.ok .null)) (query_plan none) "crm" (.object [])
        .Cli "").Emits evs (.done (.ok result)) ∧
      ((Executor.new {}).run_tool query_crates (fun _ _ _ _ => .done (.ok .null)) asked_plan "ask" (.object []) .Cli
        "").Emits evs' (.done (.ok result')) ∧
      SameResult result result' ∧ List.Forall₂ Did (evs.filter apart) (evs'.filter apart) := by
  have hload : (AuthProviders.load (query_plan none)).Emits [⟨.provider 1 sample_slug, .ok none⟩]
      (.done (.ok [])) := .cons (.nil _)
  have hload' : (AuthProviders.load asked_plan).Emits [⟨.provider 1 sample_slug, .ok none⟩]
      (.done (.ok [])) := .cons (.nil _)
  have htool : (query_plan none).tool "crm" = some
      { name := "crm", input_schema := schema.input_schema (query_call none).params
        target := .ApiCall sample.crm, budgets := {} } := rfl
  have htool' : asked_plan.tool "ask" = some
      { name := "ask", input_schema := schema.input_schema (query_call none).params
        target := .ApiCall sample.crm, budgets := {} } := rfl
  have hmissing : ∀ ctx budget, dispatch query_crates (query_plan none) ctx none "crm" (.object []) budget =
      .done (.error (.Args (.MissingRequired "q"))) := fun _ _ => rfl
  have hmissing' : ∀ ctx budget, dispatch query_crates asked_plan ctx none "ask" (.object []) budget =
      .done (.error (.Args (.MissingRequired "q"))) := fun _ _ => rfl
  obtain ⟨_, _, joined, row, calls, hlen, hown, hrow, hrun⟩ := refused_run htool rfl rfl hload hmissing
  obtain ⟨_, _, joined', row', calls', -, -, hrow', hrun'⟩ := refused_run htool' rfl rfl hload' hmissing'
  have hsnapshot : definition_snapshots (refused_events joined row calls) =
      definition_snapshots (refused_events joined' row' calls') := by
    rw [refused_snapshots, refused_snapshots, hrow, hrow']
    rfl
  have htyped : TypedPlan query_crates.url asked_plan :=
    { calls := (query_plan_typed none).calls
      callable_by := (query_plan_typed none).callable_by
      budgets := by
        intro tool hmem
        rw [List.mem_singleton.mp hmem]
        exact ⟨nofun, nofun, nofun, nofun, nofun⟩ }
  refine ⟨_, _, _, _, hrun, hrun', ?_⟩
  refine same_runs (Query.yields_eval.mpr (query_plan_built (.inl rfl))) (Query.yields_eval.mpr asked_plan_built)
    (query_plan_typed none) htyped hrun hrun' hsnapshot (refused_world hlen hown row row' calls calls') ?_
  intro tool tool' hfound hfound'
  rw [htool] at hfound
  rw [htool'] at hfound'
  obtain rfl := Option.some.inj hfound
  obtain rfl := Option.some.inj hfound'
  rfl

end api2mcp.runtime.snapshot
