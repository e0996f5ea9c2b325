import Api2Mcp.Resolve.Closed
import Api2Mcp.Runtime.Batches

namespace api2mcp.runtime

open btree concurrent interact serde_json
open api2mcp.entity api2mcp.http api2mcp.model api2mcp.resolve api2mcp.store
open api2mcp.runtime.dispatch api2mcp.runtime.fanout api2mcp.runtime.batch

/-- A call that a tool may come to: its own, or one that its script declared and
the endpoint selected. -/
def Callable (plan : EndpointPlan) (tool : PlannedTool) (planned : PlannedApiCall) : Prop :=
  match tool.target with
  | .ApiCall slug => plan.calls.get slug = some planned
  | .Script slug => ∃ script kv, plan.scripts.get slug = some script ∧ kv ∈ script.callable ∧
      plan.calls.get kv.2 = some planned

/-- What a run hands to the fan-out are calls that its tool may come to. -/
def RunsCallable (crates : Crates) (plan : EndpointPlan) (tool : PlannedTool) (evs : List RunEvent) :
    Prop :=
  ∀ limits calls joined, (⟨.fan_out limits calls, joined⟩ : RunEvent) ∈ evs → ∀ call ∈ calls,
    ∃ ctx caller_script name args budget planned,
      call.2 = dispatch crates plan ctx caller_script name args budget ∧
      dispatch.resolve plan caller_script name = .ok planned ∧ Callable plan tool planned

section

variable {crates : Crates} {engine : script.Engine} {executor : Executor} {plan : EndpointPlan}
  {tool : PlannedTool} {tool_name : String} {args : Value} {caller_kind : RunCallerKind}
  {caller_id : String} {evs : List RunEvent} {rest : Run (Except ExecutorError RunResult)}

variable {definition : EndpointDef} {all_api_calls : List api_call.TaggedApiCall}
  {all_scripts : List script.TaggedScript} {provided : Slug → AuthProvider → Prop}

/-- The name of a tool that is an api_call stands for that call. -/
theorem callable_of_own (hclosed : Closed definition all_api_calls all_scripts provided plan) {slug : Slug}
    (htool : plan.tool tool_name = some tool) (htarget : tool.target = .ApiCall slug) :
    ∃ planned, dispatch.resolve plan none tool_name = .ok planned ∧ Callable plan tool planned := by
  have hselected := (hclosed.tools tool (List.mem_of_find?_eq_some htool)).selected
  rw [htarget] at hselected
  cases hselected with
  | api_call hmem hselected =>
    obtain ⟨planned, hplanned, _⟩ := hclosed.api_calls _ hmem hselected
    refine ⟨planned, ?_, ?_⟩
    · simp only [dispatch.resolve, htool, htarget, hplanned]
    · rw [Callable, htarget]
      exact hplanned

/-- A name that a script may use stands for a call that it declared. -/
theorem callable_of_script (hclosed : Closed definition all_api_calls all_scripts provided plan)
    {slug : Slug} {name : String} {planned : PlannedApiCall} (htarget : tool.target = .Script slug)
    (h : dispatch.resolve plan (some slug) name = .ok planned) : Callable plan tool planned := by
  rw [Callable, htarget]
  unfold dispatch.resolve at h
  dsimp only at h
  split at h
  · cases h
  rename_i target hname
  obtain ⟨names, hnames, htarget⟩ := Option.bind_eq_some_iff.mp hname
  split at h
  · cases h
  rename_i hplanned
  obtain rfl := Except.ok.inj h
  obtain ⟨script, hscript, hdeclared⟩ := hclosed.callable slug names hnames
  exact ⟨script, (name, target), hscript, (hdeclared _ (BTreeMap.mem_of_get htarget)).1, hplanned⟩

/-- What a run of a tool of a closed plan hands to the fan-out. -/
theorem runs_callable (hclosed : Closed definition all_api_calls all_scripts provided plan)
    (htool : plan.tool tool_name = some tool)
    (h : (executor.run_tool crates engine plan tool_name args caller_kind caller_id).Emits evs rest) :
    RunsCallable crates plan tool evs := by
  intro limits calls joined hmem call hcall
  obtain ⟨before, after, rfl⟩ := List.append_of_mem hmem
  obtain ⟨auth, meter, remaining, caller_script, items, rfl, rfl, _, _, hitems⟩ := batched_of_run h htool
  obtain ⟨i, hi⟩ := List.getElem?_of_mem hcall
  obtain ⟨slug, p⟩ := call
  obtain ⟨name, args', hitem, rfl⟩ := getElem?_fan_items hi
  have hof := List.mem_of_getElem? hitem
  obtain ⟨planned, hresolve, hcallable⟩ : ∃ planned,
      dispatch.resolve plan caller_script name = .ok planned ∧ Callable plan tool planned := by
    cases htarget : tool.target with
    | ApiCall slug =>
      rw [ItemsOf, htarget] at hitems
      obtain ⟨rfl, rfl⟩ := hitems
      obtain rfl : name = tool_name := (Prod.mk.inj (List.mem_singleton.mp hof)).1
      exact callable_of_own hclosed htool htarget
    | Script slug =>
      rw [ItemsOf, htarget] at hitems
      obtain ⟨rfl, _, _, planned, hresolve, hnames⟩ := hitems
      obtain rfl := hnames _ hof
      exact ⟨planned, hresolve, callable_of_script hclosed htarget hresolve⟩
  exact ⟨_, caller_script, name, args', _, planned, rfl, hresolve, hcallable⟩

end

/-- The definitions an owner has in these rows. -/
structure Definitions (rows : Rows) (owner_id : Uuid) (slug : Slug) where
  endpoint : EndpointDef
  api_calls : List api_call.TaggedApiCall
  scripts : List script.TaggedScript
  endpoint_read : (store.endpoint.get owner_id slug).run.eval rows = .ok (some endpoint)
  api_calls_read : (api_call.list_all owner_id).run.eval rows = .ok api_calls
  scripts_read : (script.list_all owner_id).run.eval rows = .ok scripts

/-- The plan that is built from an owner's definitions is closed, and no run of
a tool of it reaches a call outside of it. -/
theorem build_plan_closed {json : JsonCrate} {sha256_hex : String → String} {rows : Rows}
    {owner_id : Uuid} {slug : Slug} {plan : EndpointPlan}
    (h : (build_plan json sha256_hex owner_id slug).run.eval rows = .ok plan) :
    (∃ definitions : Definitions rows owner_id slug,
      Closed definitions.endpoint definitions.api_calls definitions.scripts (fun service_slug provider =>
        (auth_provider.get_for_service owner_id service_slug).run.eval rows = .ok (some provider)) plan) ∧
    ∀ (crates : Crates) (engine : script.Engine) (executor : Executor) (tool : PlannedTool)
      (tool_name : String) (args : Value) (caller_kind : RunCallerKind) (caller_id : String)
      (evs : List RunEvent) (rest : Run (Except ExecutorError RunResult)),
      plan.tool tool_name = some tool →
      (executor.run_tool crates engine plan tool_name args caller_kind caller_id).Emits evs rest →
      RunsCallable crates plan tool evs := by
  obtain ⟨definition, all_api_calls, all_scripts, hendpoint, hcalls, hscripts, hclosed⟩ :=
    closed_of_build_plan (Query.yields_eval.mpr h)
  refine ⟨⟨⟨definition, all_api_calls, all_scripts, Query.yields_eval.mp hendpoint,
    Query.yields_eval.mp hcalls, Query.yields_eval.mp hscripts⟩, ?_⟩, ?_⟩
  · simpa only [Query.yields_eval] using hclosed
  · intro crates engine executor tool tool_name args caller_kind caller_id evs rest htool hrun
    exact runs_callable hclosed htool hrun

def ping_row : api_calls.Model where
  id := 2
  owner_id := 1
  service_id := 1
  slug := sample.crm
  method := .GET
  path_template := "/ping/{name}"
  query_fixed := []
  body_template := none
  access := .Read
  idempotent := true
  projection := none
  pagination := .None
  timeout_ms := none
  max_response_bytes := none
  description := ""

def ping_param : api_call_params.Model where
  api_call_id := 2
  name := "name"
  location := .Path
  data_type := .String
  required := true
  default_value := none
  fixed_value := none
  enum_values := none
  position := 0
  description := ""

def report_row : scripts.Model where
  id := 3
  owner_id := 1
  slug := sample.crm
  description := none
  source := ""
  max_calls := some 5
  max_bytes := none
  wall_clock_ms := none
  max_pages := none
  max_concurrency := none

/-- An api_call and a script of one slug, the script under an alias. -/
def aliased_rows : Rows where
  services := .single sample.service
  auth_providers := .single sample.auth_provider
  api_calls := .single ping_row
  api_call_params := .single ping_param
  tags := .single ⟨4, sample.crm⟩
  api_call_tags := .single ⟨2, 4⟩
  scripts := .single report_row
  script_api_calls := .single ⟨3, 2, "ping"⟩
  script_tags := .single ⟨3, 4⟩
  endpoints := .single (sample.endpoint 9)
  endpoint_aliases := .single ⟨9, .Script sample.crm, "report"⟩

theorem aliased_plan_closed :
    ∃ plan, (build_plan default (fun text => text) 1 sample.crm).run.eval aliased_rows = .ok plan ∧
      plan.tools.map (·.name) = ["crm", "report"] ∧
      ∃ definitions : Definitions aliased_rows 1 sample.crm,
        Closed definitions.endpoint definitions.api_calls definitions.scripts
          (fun service_slug provider => (auth_provider.get_for_service 1 service_slug).run.eval aliased_rows =
            .ok (some provider)) plan := by
  refine ⟨_, rfl, rfl, ?_⟩
  exact (build_plan_closed rfl).1

end api2mcp.runtime
