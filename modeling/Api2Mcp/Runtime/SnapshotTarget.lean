import Api2Mcp.Json.Schema
import Api2Mcp.Resolve.Tools
import Api2Mcp.Runtime.SnapshotParts

namespace api2mcp.runtime.snapshot

open btree concurrent interact serde_json
open api2mcp.entity api2mcp.model api2mcp.resolve api2mcp.runtime.dispatch api2mcp.runtime.replay

/-- What the types of a plan say of it. -/
structure TypedPlan (crate : net.UrlCrate) (plan : EndpointPlan) : Prop where
  calls : ∀ kv ∈ plan.calls, TypedCall kv.2.api_call ∧ TypedService crate kv.2.service
  callable_by : ∀ kv ∈ plan.callable_by, BTreeMap.Sorted kv.2
  budgets : ∀ tool ∈ plan.tools, TypedBudgets tool.budgets

/-- The call that a script reaches by a name. -/
def reached (plan : EndpointPlan) (slug : Slug) (name : String) : Option PlannedApiCall :=
  ((plan.callable_by.get slug).bind fun reachable => reachable.get name).bind plan.calls.get

theorem resolve_reached (plan : EndpointPlan) (slug : Slug) (name : String) :
    resolve plan (some slug) name = match reached plan slug name with
      | none => .error (.NotDeclared name)
      | some planned => .ok planned := by
  unfold resolve reached
  dsimp only
  cases (plan.callable_by.get slug).bind fun reachable => reachable.get name with
  | none => rfl
  | some call_slug => rfl

/-- A call and its service, as a snapshot has them. -/
def planned_json (planned : PlannedApiCall) : Value :=
  .json [("api_call", api_call_json planned.api_call), ("service", service_json planned.service)]

theorem get_callable_json {plan : EndpointPlan} (hsorted : ∀ kv ∈ plan.callable_by, BTreeMap.Sorted kv.2)
    (slug : Slug) (name : String) :
    (callable_json plan slug).get name = (reached plan slug name).map planned_json := by
  let names := (plan.callable_by.get slug).getD []
  let pairs := BTreeMap.filter_map names fun call_slug => (plan.calls.get call_slug).map planned_json
  have hnames : BTreeMap.Sorted names := by
    cases hget : plan.callable_by.get slug with
    | none => simp [names, hget, BTreeMap.Sorted]
    | some reachable =>
      simp only [names, hget, Option.getD_some]
      exact hsorted _ (BTreeMap.mem_of_get hget)
  have hreached : reached plan slug name = (BTreeMap.get names name).bind plan.calls.get := by
    unfold reached
    cases hget : plan.callable_by.get slug with
    | none =>
      simp only [names, hget, Option.getD_none, Option.bind_none]
      rfl
    | some reachable => simp only [names, hget, Option.getD_some, Option.bind_some]
  have hjson : callable_json plan slug = .json pairs := by
    unfold callable_json
    simp only [pairs, BTreeMap.filter_map, Option.map_map, Function.comp_def, names, planned_json]
  have hsorted : BTreeMap.Sorted pairs := BTreeMap.sorted_filter_map hnames _
  rw [hjson, Value.json_of_sorted (List.pairwise_map.mp hsorted), hreached]
  have hget := BTreeMap.get_filter_map hnames (fun call_slug => (plan.calls.get call_slug).map planned_json) name
  rw [Value.get, Map.get_eq, hget, Option.map_bind]
  rfl

/-- The definitions of the tools agree on which values are there, of those that
a snapshot writes as null or as themselves. -/
def SameOptionals (plan plan' : EndpointPlan) (tool tool' : PlannedTool) : Prop :=
  let of_call (planned : PlannedApiCall) := call_optionals planned.api_call
  let of_script (script : ScriptDef) := param_optionals script.params
  match tool.target, tool'.target with
  | .ApiCall slug, .ApiCall slug' => (plan.calls.get slug).map of_call = (plan'.calls.get slug').map of_call
  | .Script slug, .Script slug' =>
    (plan.scripts.get slug).map of_script = (plan'.scripts.get slug').map of_script ∧
      ∀ name, (reached plan slug name).map of_call = (reached plan' slug' name).map of_call
  | _, _ => True

section

variable {crate : net.UrlCrate} {plan plan' : EndpointPlan}

theorem samePlanned_of_json (htyped : TypedPlan crate plan) (htyped' : TypedPlan crate plan')
    {slug slug' : Slug} {planned planned' : PlannedApiCall} (hget : plan.calls.get slug = some planned)
    (hget' : plan'.calls.get slug' = some planned')
    (hcall : api_call_json planned.api_call = api_call_json planned'.api_call)
    (hservice : service_json planned.service = service_json planned'.service)
    (hoptionals : call_optionals planned.api_call = call_optionals planned'.api_call) :
    SamePlanned planned planned' := by
  obtain ⟨htypedCall, htypedService⟩ := htyped.calls _ (BTreeMap.mem_of_get hget)
  obtain ⟨htypedCall', htypedService'⟩ := htyped'.calls _ (BTreeMap.mem_of_get hget')
  exact ⟨sameCall_of_json htypedCall htypedCall' hcall hoptionals,
    sameService_of_json htypedService htypedService' hservice⟩

theorem get_of_reached {slug : Slug} {name : String} {planned : PlannedApiCall}
    (h : reached plan slug name = some planned) : ∃ call_slug, plan.calls.get call_slug = some planned := by
  obtain ⟨call_slug, _, hget⟩ := Option.bind_eq_some_iff.mp h
  exact ⟨call_slug, hget⟩

variable {ctx ctx' : DispatchContext}

/-- The two runs have the same provider for a service that both have. -/
def SameAuth (plan plan' : EndpointPlan) (ctx ctx' : DispatchContext) : Prop :=
  ∀ planned ∈ plan.calls.values, ∀ planned' ∈ plan'.calls.values, planned.service.slug = planned'.service.slug →
    ctx.auth.get planned.service.slug = ctx'.auth.get planned.service.slug

theorem sameResolved_of_planned (hauth : SameAuth plan plan' ctx ctx') {slug slug' : Slug}
    {planned planned' : PlannedApiCall} (hget : plan.calls.get slug = some planned)
    (hget' : plan'.calls.get slug' = some planned') (h : SamePlanned planned planned') :
    SameResolved ctx ctx' (.ok planned) (.ok planned') := by
  refine .ok h (hauth planned ?_ planned' ?_ ?_)
  · exact List.mem_map.mpr ⟨_, BTreeMap.mem_of_get hget, rfl⟩
  · exact List.mem_map.mpr ⟨_, BTreeMap.mem_of_get hget', rfl⟩
  · rw [← h.service]

/-- Scripts that a snapshot shows to reach the same calls resolve every name
alike. -/
theorem sameResolved_of_callable (htyped : TypedPlan crate plan) (htyped' : TypedPlan crate plan')
    (hauth : SameAuth plan plan' ctx ctx') {slug slug' : Slug}
    (h : callable_json plan slug = callable_json plan' slug') (name : String)
    (hoptionals : (reached plan slug name).map (fun p => call_optionals p.api_call) =
      (reached plan' slug' name).map fun p => call_optionals p.api_call) :
    SameResolved ctx ctx' (resolve plan (some slug) name) (resolve plan' (some slug') name) := by
  have hjson := congrArg (Value.get name) h
  rw [get_callable_json htyped.callable_by, get_callable_json htyped'.callable_by] at hjson
  rw [resolve_reached, resolve_reached]
  cases hreached : reached plan slug name with
  | none =>
    cases hreached' : reached plan' slug' name with
    | none => exact .error _
    | some planned' =>
      rw [hreached, hreached'] at hjson
      cases hjson
  | some planned =>
    cases hreached' : reached plan' slug' name with
    | none =>
      rw [hreached, hreached'] at hjson
      cases hjson
    | some planned' =>
      rw [hreached, hreached'] at hjson hoptionals
      have hpair : planned_json planned = planned_json planned' := Option.some.inj hjson
      have hcall := congrArg (Value.get "api_call") hpair
      have hservice := congrArg (Value.get "service") hpair
      simp [planned_json, Value.get_json] at hcall hservice
      obtain ⟨call_slug, hget⟩ := get_of_reached hreached
      obtain ⟨call_slug', hget'⟩ := get_of_reached hreached'
      exact sameResolved_of_planned hauth hget hget'
        (samePlanned_of_json htyped htyped' hget hget' hcall hservice (Option.some.inj hoptionals))

theorem mem_of_tool {tool : PlannedTool} {tool_name : String} (h : plan.tool tool_name = some tool) :
    tool ∈ plan.tools := List.mem_of_find?_eq_some h

theorem resolve_tool {tool : PlannedTool} {tool_name : String} {slug : Slug} {planned : PlannedApiCall}
    (htool : plan.tool tool_name = some tool) (htarget : tool.target = .ApiCall slug)
    (hget : plan.calls.get slug = some planned) : resolve plan none tool_name = .ok planned := by
  simp only [resolve, htool, htarget, hget]

/-- The budgets are those of the snapshot, whatever the target. -/
theorem budgets_of_snapshot (htyped : TypedPlan crate plan) (htyped' : TypedPlan crate plan')
    {tool tool' : PlannedTool} (htool : tool ∈ plan.tools) (htool' : tool' ∈ plan'.tools)
    (hbuilt : BuiltTool plan tool) (hbuilt' : BuiltTool plan' tool')
    (h : build_snapshot plan tool = build_snapshot plan' tool') : tool.budgets = tool'.budgets := by
  have hwritten : ∀ (plan : EndpointPlan) (tool : PlannedTool),
      (build_snapshot plan tool).get "budgets" = some (budgets_json tool.budgets) := by
    intro plan tool
    unfold build_snapshot
    split
    · simp [Value.get_json]
    · simp [Value.get_json]
  have hbudgets := congrArg (Value.get "budgets") h
  rw [hwritten, hwritten, Option.some.injEq] at hbudgets
  exact budgets_of_json (htyped.budgets tool htool) (htyped'.budgets tool' htool') hbuilt.whole hbuilt'.whole hbudgets

/-- Tools with one snapshot do the same. -/
theorem target_of_snapshot (htyped : TypedPlan crate plan) (htyped' : TypedPlan crate plan')
    (hpolicy : ctx.policy = ctx'.policy) (hredirects : ctx.max_redirects = ctx'.max_redirects)
    (hauth : SameAuth plan plan' ctx ctx') {tool tool' : PlannedTool} {tool_name tool_name' : String}
    (htool : plan.tool tool_name = some tool) (htool' : plan'.tool tool_name' = some tool')
    (hbuilt : BuiltTool plan tool) (hbuilt' : BuiltTool plan' tool')
    (h : build_snapshot plan tool = build_snapshot plan' tool') (hoptionals : SameOptionals plan plan' tool tool') :
    SameTarget plan plan' ctx ctx' tool tool' tool_name tool_name' := by
  have hget : ∀ key, (build_snapshot plan tool).get key = (build_snapshot plan' tool').get key := fun _ => by rw [h]
  have hkind := hget "kind"
  have hcall := hget "api_call"
  have hservice := hget "service"
  have hscript := hget "script"
  have hcallable := hget "callable"
  have htarget := hbuilt.target
  have htarget' := hbuilt'.target
  unfold SameOptionals at hoptionals
  cases hslug : tool.target with
  | ApiCall slug =>
    cases hslug' : tool'.target with
    | Script slug' => simp [build_snapshot, hslug, hslug', Value.get_json] at hkind
    | ApiCall slug' =>
      rw [hslug] at htarget hoptionals
      rw [hslug'] at htarget' hoptionals
      obtain ⟨planned, hplanned⟩ := htarget
      obtain ⟨planned', hplanned'⟩ := htarget'
      simp [build_snapshot, hslug, hslug', hplanned, hplanned', Value.get_json, Value.of_option] at hcall hservice
      simp only [hplanned, hplanned', Option.map_some, Option.some.injEq] at hoptionals
      refine .api_call hslug hslug' ?_
      rw [resolve_tool htool hslug hplanned, resolve_tool htool' hslug' hplanned']
      exact sameResolved_of_planned hauth hplanned hplanned'
        (samePlanned_of_json htyped htyped' hplanned hplanned' hcall hservice hoptionals)
  | Script slug =>
    cases hslug' : tool'.target with
    | ApiCall slug' => simp [build_snapshot, hslug, hslug', Value.get_json] at hkind
    | Script slug' =>
      rw [hslug] at htarget hoptionals
      rw [hslug'] at htarget' hoptionals
      obtain ⟨script, hfound⟩ := htarget
      obtain ⟨script', hfound'⟩ := htarget'
      simp [build_snapshot, hslug, hslug', hfound, hfound', Value.get_json, Value.of_option] at hscript hcallable
      simp only [hfound, hfound', Option.map_some, Option.some.injEq] at hoptionals
      obtain ⟨hparamOptionals, hcallOptionals⟩ := hoptionals
      have hsource := congrArg (Value.get "source") hscript
      have hparams := congrArg (Value.get "params") hscript
      simp [script_json, digest.script_json, Value.get_json] at hsource hparams
      refine .script hslug hslug' hfound hfound' hsource (sameParams_of_json hparams hparamOptionals) ?_
      exact { policy := hpolicy, redirects := hredirects, resolved := fun name =>
        sameResolved_of_callable htyped htyped' hauth hcallable name (hcallOptionals name) }

end

end api2mcp.runtime.snapshot
