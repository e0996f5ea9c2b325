import Api2Mcp.Resolve.Closed
import Api2Mcp.Resolve.Snapshot
import Api2Mcp.Server.Mcp.Invoke

namespace api2mcp.server.mcp

open concurrent interact serde_json
open api2mcp.entity api2mcp.model api2mcp.resolve api2mcp.runtime api2mcp.runtime.fanout
open api2mcp.runtime.dispatch (Crates)
open api2mcp.server.mcp.invoke api2mcp.server.mcp.handlers api2mcp.server.mcp.registry

/-- The names that an answer to `tools/list` reports. -/
def listedNames (response : JsonRpcResponse) : List String :=
  (((response.result.bind (Value.get "tools")).bind Value.as_array).getD []).filterMap fun tool =>
    (tool.get "name").bind Value.as_str

/-- The params of `tools/call` that call a tool with its arguments. -/
structure Calls (params : Value) (name : String) (arguments : Value) : Prop where
  name : params.get "name" = some (.string name)
  arguments : params.get "arguments" = some arguments

/-- The arguments of `invoke` that do. -/
structure Wraps (arguments : Value) (tool_name : String) (args : Value) : Prop where
  tool_name : arguments.get "tool_name" = some (.string tool_name)
  args : arguments.get "args" = some args

/-- The two names that every endpoint has. -/
def BuiltIn (name : String) : Prop := name = INVOKE_TOOL_NAME ∨ name = LIST_TOOLS_NAME

instance (name : String) : Decidable (BuiltIn name) :=
  inferInstanceAs (Decidable (name = INVOKE_TOOL_NAME ∨ name = LIST_TOOLS_NAME))

theorem listedNames_tools_list (id : Option Value) (plan : EndpointPlan) :
    listedNames (tools_list id plan) = plan.tools.map (·.name) ++ [INVOKE_TOOL_NAME, LIST_TOOLS_NAME] := by
  have hname : ∀ tool : PlannedTool,
      ((tool_descriptor plan tool).get "name").bind Value.as_str = some tool.name := by
    intro tool
    simp [tool_descriptor, Value.json, Value.get, Map.get_insert, Value.as_str]
  have hlisted : listedNames (tools_list id plan) =
      (plan.tools.map (tool_descriptor plan) ++ [invoke_descriptor, list_tools_descriptor]).filterMap
        fun tool => (tool.get "name").bind Value.as_str := rfl
  rw [hlisted, List.filterMap_append, List.filterMap_map]
  congr 1
  rw [← List.filterMap_eq_map]
  exact List.filterMap_congr fun tool _ => hname tool

section

variable (crates : Crates) (engine : script.Engine) (uuid_text : Uuid → String) (id : Option Value)
  (plan : EndpointPlan) (executor : Executor) (caller : Caller)

/-- The answer to a call, where it is the run of a tool. -/
def runs (tool_name : String) (args : Value) : Run JsonRpcResponse := do
  let result ← executor.run_tool crates engine plan tool_name args caller.kind.to_run_caller_kind
    (uuid_text caller.id)
  return respond crates id (executed crates result)

variable {crates engine uuid_text id plan executor caller} {name : String} {args params : Value}

/-- A tool of the plan is run. -/
theorem respond_named_tool {tool : PlannedTool} (htool : plan.tool name = some tool) :
    (do
      let outcome ← run_named_tool crates engine executor plan name args
        caller.kind.to_run_caller_kind (uuid_text caller.id)
      return respond crates id outcome) =
      runs crates engine uuid_text id plan executor caller name args := by
  unfold run_named_tool
  rw [htool]
  simp only [Option.isNone_some, Bool.false_eq_true, if_false, runs]
  rw [Prog.bind_assoc]
  rfl

/-- A tool that is called by a name of its own is run. -/
theorem tools_call_direct {tool : PlannedTool} (htool : plan.tool name = some tool)
    (hname : ¬ BuiltIn name) (hparams : Calls params name args) :
    tools_call crates engine uuid_text id plan executor caller (some params) =
      runs crates engine uuid_text id plan executor caller name args := by
  rw [BuiltIn, not_or] at hname
  rw [← respond_named_tool htool]
  unfold tools_call dispatch
  simp only [hparams.name, hparams.arguments, Option.bind_some, Value.as_str, Option.getD_some,
    if_neg hname.1, if_neg hname.2]

/-- A tool that is invoked is run, whatever its name is. -/
theorem tools_call_invoke {tool : PlannedTool} {arguments : Value} (htool : plan.tool name = some tool)
    (hparams : Calls params INVOKE_TOOL_NAME arguments) (harguments : Wraps arguments name args) :
    tools_call crates engine uuid_text id plan executor caller (some params) =
      runs crates engine uuid_text id plan executor caller name args := by
  rw [← respond_named_tool htool]
  unfold tools_call dispatch
  have hne : INVOKE_TOOL_NAME ≠ LIST_TOOLS_NAME := by decide
  simp only [hparams.name, hparams.arguments, Option.bind_some, Value.as_str, Option.getD_some,
    if_neg hne, if_true, harguments.tool_name, harguments.args]

end

/-- A call of a tool by its name and one through `invoke` run it with the same
arguments. -/
def SameRun (plan : EndpointPlan) (name : String) : Prop :=
  ∀ (crates : Crates) (engine : script.Engine) (uuid_text : Uuid → String) (id : Option Value)
    (executor : Executor) (caller : Caller) (args : Map) (params params' arguments : Value),
    Calls params name (.object args) → Calls params' INVOKE_TOOL_NAME arguments →
    Wraps arguments name (.object args) →
    tools_call crates engine uuid_text id plan executor caller (some params) =
        runs crates engine uuid_text id plan executor caller name (.object args) ∧
      tools_call crates engine uuid_text id plan executor caller (some params') =
        runs crates engine uuid_text id plan executor caller name (.object args)

/-- Every name is reported once, and stands for its tool in either call. -/
structure Unambiguous (plan : EndpointPlan) : Prop where
  reported : ∀ id, ∀ tool ∈ plan.tools, tool.name ∈ listedNames (tools_list id plan)
  once : ∀ id, (listedNames (tools_list id plan)).Nodup
  same : ∀ tool ∈ plan.tools, SameRun plan tool.name

/-- The params that call a tool. -/
def call_params (name : String) (args : Value) : Value :=
  .json [("name", .string name), ("arguments", args)]

def invoke_arguments (tool_name : String) (args : Value) : Value :=
  .json [("tool_name", .string tool_name), ("args", args)]

theorem calls_call_params (name : String) (args : Value) : Calls (call_params name args) name args := by
  constructor <;> simp [call_params, Value.json, Value.get, Map.get_insert]

theorem wraps_invoke_arguments (tool_name : String) (args : Value) :
    Wraps (invoke_arguments tool_name args) tool_name args := by
  constructor <;> simp [invoke_arguments, Value.json, Value.get, Map.get_insert]

theorem tool_of_mem {plan : EndpointPlan} {tool : PlannedTool} (hmem : tool ∈ plan.tools) :
    ∃ found, plan.tool tool.name = some found := by
  rw [← Option.isSome_iff_exists, EndpointPlan.tool, List.find?_isSome]
  exact ⟨tool, hmem, by simp⟩

/-- A call by the name of a built-in runs none. -/
theorem not_sameRun {plan : EndpointPlan} {name : String} (hname : BuiltIn name) :
    ¬ SameRun plan name := by
  intro hsame
  have hcall := (hsame default (fun _ _ _ _ => .done (.ok .null)) (fun _ => "") none (.new {}) ⟨.Cli, 0⟩ []
    _ _ _ (calls_call_params name (.object [])) (calls_call_params _ _)
    (wraps_invoke_arguments name (.object []))).1
  obtain rfl | rfl := hname
  · cases hcall
  · cases hcall

theorem sameRun_iff {plan : EndpointPlan} {tool : PlannedTool} (hmem : tool ∈ plan.tools) :
    SameRun plan tool.name ↔ ¬ BuiltIn tool.name := by
  constructor
  · exact fun hsame hname => not_sameRun hname hsame
  · intro hname crates engine uuid_text id executor caller args params params' arguments hdirect hinvoke
      hwraps
    obtain ⟨found, htool⟩ := tool_of_mem hmem
    exact ⟨tools_call_direct htool hname hdirect, tools_call_invoke htool hinvoke hwraps⟩

theorem nodup_listedNames_iff {id : Option Value} {plan : EndpointPlan}
    (hnames : plan.tools.Pairwise fun a b => a.name ≠ b.name) :
    (listedNames (tools_list id plan)).Nodup ↔ ∀ tool ∈ plan.tools, ¬ BuiltIn tool.name := by
  have htools : (plan.tools.map (·.name)).Nodup := List.pairwise_map.mpr hnames
  have hbuilt : [INVOKE_TOOL_NAME, LIST_TOOLS_NAME].Nodup := by decide
  rw [listedNames_tools_list, List.nodup_append']
  simp only [htools, hbuilt, true_and, List.disjoint_left, List.forall_mem_map, BuiltIn,
    List.mem_cons, List.not_mem_nil, or_false]

/-- The names of the tools of a plan are unambiguous where no tool has the name
of a built-in, and a tool is called by its name as it is invoked where it has
not. -/
theorem unambiguous_iff {json : JsonCrate} {sha256_hex : String → String} {P : Rows → Prop}
    {owner_id : Uuid} {slug : Slug} {plan : EndpointPlan}
    (h : Query.Yields P (build_plan json sha256_hex owner_id slug) plan) :
    (Unambiguous plan ↔ ∀ tool ∈ plan.tools, ¬ BuiltIn tool.name) ∧
      ∀ tool ∈ plan.tools, SameRun plan tool.name ↔ ¬ BuiltIn tool.name := by
  refine ⟨?_, fun tool hmem => sameRun_iff hmem⟩
  have hnames := names_of_build_plan h
  constructor
  · exact fun hplan => (nodup_listedNames_iff hnames).mp (hplan.once none)
  · intro hbuilt
    exact {
      reported := by
        intro id tool hmem
        rw [listedNames_tools_list]
        exact List.mem_append_left _ (List.mem_map_of_mem hmem)
      once := fun id => (nodup_listedNames_iff hnames).mpr hbuilt
      same := fun tool hmem => (sameRun_iff hmem).mpr (hbuilt tool hmem) }

/-- The one tool of a plan is called by its name as it is invoked. -/
theorem report_unambiguous :
    ∃ plan, (build_plan default (fun _ => "") 1 sample.crm).run.eval snapshot.report_rows = .ok plan ∧
      plan.tools.map (·.name) = ["report"] ∧ Unambiguous plan ∧ SameRun plan "report" := by
  refine ⟨_, rfl, rfl, ?_⟩
  have hbuilt : (build_plan default (fun _ => "") 1 sample.crm).run.eval snapshot.report_rows = .ok _ :=
    rfl
  obtain ⟨hplan, hsame⟩ := unambiguous_iff (Query.yields_eval.mpr hbuilt)
  have hreport : ¬ BuiltIn "report" := by decide
  refine ⟨hplan.mpr fun tool hmem => ?_, ?_⟩
  · obtain rfl := List.mem_singleton.mp hmem
    exact hreport
  · exact (hsame _ (List.mem_singleton_self _)).mpr hreport

/-- The script of the endpoint, under the name of a built-in. -/
def invoke_rows : Rows :=
  { snapshot.report_rows with endpoint_aliases := .single ⟨9, .Script sample.crm, "invoke"⟩ }

/-- The plan is built, `invoke` is reported twice, and a call of the tool by its
name is refused where it is run when it is invoked. -/
theorem invoke_ambiguous :
    ∃ plan, (build_plan default (fun _ => "") 1 sample.crm).run.eval invoke_rows = .ok plan ∧
      listedNames (tools_list none plan) = ["invoke", "invoke", "list_tools"] ∧
      ¬ SameRun plan "invoke" ∧ ¬ Unambiguous plan := by
  refine ⟨_, rfl, ?_, not_sameRun (.inl rfl), ?_⟩
  · rw [listedNames_tools_list]
    rfl
  · intro hplan
    have honce := hplan.once none
    rw [listedNames_tools_list] at honce
    revert honce
    decide

end api2mcp.server.mcp
