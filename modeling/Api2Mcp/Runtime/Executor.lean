import Api2Mcp.Runtime.Recorder
import Api2Mcp.Script.Run

namespace api2mcp.runtime

open btree interact serde_json
open api2mcp.http api2mcp.model api2mcp.resolve api2mcp.store api2mcp.script
open api2mcp.runtime.budget api2mcp.runtime.dispatch api2mcp.runtime.fanout api2mcp.runtime.batch
open api2mcp.runtime.recorder

inductive ExecutorError where
  | ToolNotFound (name : String)
  | ScriptNotOnPlan (name : String)
  | Auth (e : StoreError)
  | Record (e : StoreError)

/-- `impl Display for ExecutorError`. -/
def ExecutorError.to_string : ExecutorError → String
  | .ToolNotFound name => "tool " ++ fmt.debug name ++ " is not defined on this endpoint"
  | .ScriptNotOnPlan name =>
    "tool " ++ fmt.debug name ++ " names a script that is not on this endpoint's plan"
  | .Auth e => "loading auth providers: " ++ e.to_string
  | .Record e => "recording the run: " ++ e.to_string

/-- `RunStatusView` mirrors `RunStatus`. -/
structure RunResult where
  run_id : Uuid
  status : RunStatus
  value : Option Value
  error : Option String

def to_run_status : BatchStatus → RunStatus
  | .Ok => .Ok
  | .Partial => .Partial
  | .AllFailedOnBudget .WallClock => .Timeout
  | .AllFailedOnBudget _ => .BudgetExceeded
  | .AllFailed => .Error

def entry_error_string (entry : BatchEntry) : String :=
  match entry.outcome with
  | .Ok _ => ""
  | .Failed e => e.to_string
  | .NotAttempted axis => "budget exceeded: " ++ axis.debug
  | .BudgetCut axis _ => "budget exceeded: " ++ axis.debug

/-- The loop of `AuthProviders::load`. -/
def AuthProviders.load_from (plan : EndpointPlan) :
    List PlannedApiCall → AuthProviders → Run (Except StoreError AuthProviders)
  | [], map => return .ok map
  | planned :: rest, map =>
    if map.contains_key planned.service.slug then load_from plan rest map
    else do
      match ← Run.provider plan.owner_id planned.service.slug with
      | .error e => return .error e
      | .ok none => load_from plan rest map
      | .ok (some provider) => load_from plan rest (map.insert planned.service.slug provider)

/-- A service that has a provider is asked for once. -/
def AuthProviders.load (plan : EndpointPlan) : Run (Except StoreError AuthProviders) :=
  AuthProviders.load_from plan plan.calls.values []

structure Executor where
  policy : SsrfPolicy
  max_redirects : Nat

/-- Five redirects. -/
def Executor.new (policy : SsrfPolicy) : Executor := { policy, max_redirects := 5 }

/-- What the target of a tool came to: its status, its value, its error and the
entries for the record. -/
structure TargetRun where
  status : RunStatus
  value : Option Value
  error : Option String
  entries : List BatchEntry

def of_script : Except RunScriptError ScriptRun → TargetRun
  | .ok run => { status := .Ok, value := some run.value, error := none, entries := run.calls }
  | .error e => { status := .Error, value := none, error := some e.to_string, entries := [] }

def of_batch (batch : BatchOutcome) : TargetRun :=
  let status := to_run_status batch.status
  { status
    value := batch.entries.head?.bind fun e => e.outcome.dispatch_outcome.map (·.value)
    error := if status = .Ok then none else batch.entries.head?.map entry_error_string
    entries := batch.entries }

section

variable (crates : Crates) (engine : Engine)

/-- The two ways to produce a value. -/
def run_target (plan : EndpointPlan) (ctx : DispatchContext) (limits : ConcurrencyLimits)
    (meter : BudgetMeter) (tool : PlannedTool) (tool_name : String) (args : Value) :
    Run (Except ExecutorError TargetRun × BudgetMeter) :=
  match tool.target with
  | .Script script_slug =>
    match plan.scripts.get script_slug with
    | none => return (.error (.ScriptNotOnPlan tool_name), meter)
    | some script => do
      let (result, meter) ← run_script crates engine plan ctx limits meter script_slug script args
      return (.ok (of_script result), meter)
  | .ApiCall _ => do
    let (batch, meter) ← run_batch crates plan ctx limits meter none [(tool_name, args)]
    return (.ok (of_batch batch), meter)

/-- The record of a run, and what its caller is told. -/
def finish (plan : EndpointPlan) (tool : PlannedTool) (caller_kind : RunCallerKind)
    (caller_id : String) (args : Value) (started : Instant) (run : TargetRun) (meter : BudgetMeter) :
    Run (Except ExecutorError RunResult) := do
  let request_id ← Run.new_v4
  let now ← Run.now
  let recorded ← record crates
    { plan, tool, caller_kind, caller_id, request_id, args, output_redacted := run.value
      status := run.status, entries := run.entries, meter, elapsed := some (now - started) }
  match recorded with
  | .error e => return .error (.Record e)
  | .ok run_id => return .ok { run_id, status := run.status, value := run.value, error := run.error }

def Executor.run_tool (executor : Executor) (plan : EndpointPlan) (tool_name : String) (args : Value)
    (caller_kind : RunCallerKind) (caller_id : String) : Run (Except ExecutorError RunResult) := do
  let started ← Run.now
  match plan.tool tool_name with
  | none => return .error (.ToolNotFound tool_name)
  | some tool =>
    match ← AuthProviders.load plan with
    | .error e => return .error (.Auth e)
    | .ok auth =>
      let ctx : DispatchContext :=
        { policy := executor.policy, auth, max_redirects := executor.max_redirects }
      let limits := ConcurrencyLimits.build plan tool.budgets.max_concurrency
      let now ← Run.now
      let utc_now ← Run.utc_now
      let meter := BudgetMeter.new tool.budgets now utc_now
      let (result, meter) ← run_target crates engine plan ctx limits meter tool tool_name args
      match result with
      | .error e => return .error e
      | .ok run => finish crates plan tool caller_kind caller_id args started run meter

/-- What the caller is told once the store has answered for the record. -/
def TargetRun.result (run : TargetRun) : Except StoreError Uuid → Except ExecutorError RunResult
  | .error e => .error (.Record e)
  | .ok run_id => .ok { run_id, status := run.status, value := run.value, error := run.error }

/-- A run whose target comes to an end, whatever the store answers. -/
theorem run_tool_answered (executor : Executor) {plan : EndpointPlan} {tool : PlannedTool}
    {tool_name : String} {args : Value} (caller_kind : RunCallerKind) (caller_id : String)
    {auth : AuthProviders} {loaded evs : List RunEvent} {run : TargetRun} {meter : BudgetMeter}
    (htool : plan.tool tool_name = some tool) (started now : Instant) (utc_now : DateTime)
    (hload : (AuthProviders.load plan).Emits loaded (.done (.ok auth)))
    (hrun : (run_target crates engine plan ⟨executor.policy, auth, executor.max_redirects⟩
      (ConcurrencyLimits.build plan tool.budgets.max_concurrency)
      (BudgetMeter.new tool.budgets now utc_now) tool tool_name args).Emits evs (.done (.ok run, meter)))
    (request_id : String) (finished : Instant) (answer : Except StoreError Uuid) :
    let record : RunRecord :=
      { plan, tool, caller_kind, caller_id, request_id, args, output_redacted := run.value
        status := run.status, entries := run.entries, meter, elapsed := some (finished - started) }
    (executor.run_tool crates engine plan tool_name args caller_kind caller_id).Emits
      (⟨.now, started⟩ :: (loaded ++ ⟨.now, now⟩ :: ⟨.utc_now, utc_now⟩ :: (evs ++
        [⟨.new_v4, request_id⟩, ⟨.now, finished⟩,
          ⟨.create_run (new_run crates record) (run.entries.filterMap (new_run_call crates)), answer⟩])))
      (.done (run.result answer)) := by
  intro record
  unfold Executor.run_tool
  rw [Run.now_bind]
  refine .cons ?_
  rw [htool]
  refine hload.bind ?_
  dsimp only
  rw [Run.now_bind]
  refine .cons ?_
  rw [Run.utc_now_bind]
  refine .cons (hrun.bind ?_)
  dsimp only
  unfold finish
  rw [Run.new_v4_bind]
  refine .cons ?_
  rw [Run.now_bind]
  refine .cons ?_
  unfold recorder.record
  rw [Run.create_run_bind]
  refine .cons ?_
  cases answer with
  | error e => exact .nil _
  | ok run_id => exact .nil _

/-- A run whose target comes to an end, and that is recorded. -/
theorem run_tool_emits (executor : Executor) {plan : EndpointPlan} {tool : PlannedTool}
    {tool_name : String} {args : Value} (caller_kind : RunCallerKind) (caller_id : String)
    {auth : AuthProviders} {loaded evs : List RunEvent} {run : TargetRun} {meter : BudgetMeter}
    (htool : plan.tool tool_name = some tool) (started now : Instant) (utc_now : DateTime)
    (hload : (AuthProviders.load plan).Emits loaded (.done (.ok auth)))
    (hrun : (run_target crates engine plan ⟨executor.policy, auth, executor.max_redirects⟩
      (ConcurrencyLimits.build plan tool.budgets.max_concurrency)
      (BudgetMeter.new tool.budgets now utc_now) tool tool_name args).Emits evs (.done (.ok run, meter)))
    (request_id : String) (finished : Instant) (run_id : Uuid) :
    let record : RunRecord :=
      { plan, tool, caller_kind, caller_id, request_id, args, output_redacted := run.value
        status := run.status, entries := run.entries, meter, elapsed := some (finished - started) }
    (executor.run_tool crates engine plan tool_name args caller_kind caller_id).Emits
      (⟨.now, started⟩ :: (loaded ++ ⟨.now, now⟩ :: ⟨.utc_now, utc_now⟩ :: (evs ++
        [⟨.new_v4, request_id⟩, ⟨.now, finished⟩,
          ⟨.create_run (new_run crates record) (run.entries.filterMap (new_run_call crates)),
            .ok run_id⟩])))
      (.done (.ok { run_id, status := run.status, value := run.value, error := run.error })) :=
  run_tool_answered crates engine executor caller_kind caller_id htool started now utc_now hload hrun
    request_id finished (.ok run_id)

variable {crates engine}

/-- A run of a tool that is one call, which comes to an end, whatever the store
answers. -/
theorem run_tool_alone_answered (executor : Executor) {plan : EndpointPlan} {tool : PlannedTool}
    {tool_name : String} {slug : Slug} {args : Value} (caller_kind : RunCallerKind) (caller_id : String)
    {auth : AuthProviders} {loaded : List RunEvent} (htool : plan.tool tool_name = some tool)
    (htarget : tool.target = .ApiCall slug) (hload : (AuthProviders.load plan).Emits loaded (.done (.ok auth)))
    (started now : Instant) (utc_now : DateTime) {reserved measured : Instant} {meter : BudgetMeter}
    {remaining : Option Duration}
    (hreserve : (BudgetMeter.new tool.budgets now utc_now).reserve_calls reserved 1#32 = (.ok (), meter))
    (hremaining : meter.remaining_time measured = .ok remaining) {evs : List DispatchEvent}
    {result : Except DispatchError DispatchOutcome}
    (hdispatch : (dispatch crates plan ⟨executor.policy, auth, executor.max_redirects⟩ none tool_name args
      (call_budget meter remaining)).Emits evs (.done result)) (finished : Instant)
    (answer : Except StoreError Uuid) :
    let run := of_batch (settle meter [tool_name] [result]).1
    let record : RunRecord :=
      { plan, tool, caller_kind, caller_id, request_id := "", args, output_redacted := run.value
        status := run.status, entries := run.entries, meter := (settle meter [tool_name] [result]).2
        elapsed := some (finished - started) }
    ∃ joined : Joined (ConcurrencyLimits.build plan tool.budgets.max_concurrency)
        (fan_items crates plan ⟨executor.policy, auth, executor.max_redirects⟩ none (call_budget meter remaining)
          [(tool_name, args)]),
      own 0 joined.moves = evs ∧ joined.last.results = some [result] ∧
        (executor.run_tool crates engine plan tool_name args caller_kind caller_id).Emits
          (⟨.now, started⟩ :: (loaded ++ [⟨.now, now⟩, ⟨.utc_now, utc_now⟩, ⟨.now, reserved⟩, ⟨.now, measured⟩,
            ⟨.fan_out _ _, joined⟩, ⟨.new_v4, ""⟩, ⟨.now, finished⟩,
            ⟨.create_run (new_run crates record) (run.entries.filterMap (new_run_call crates)), answer⟩]))
          (.done (run.result answer)) := by
  intro run record
  let limits := ConcurrencyLimits.build plan tool.budgets.max_concurrency
  have hlimits : ∀ key n, limits.get key = some n → 0 < n := fun key n hn => ConcurrencyLimits.build_pos hn
  obtain ⟨joined, hown, hresults, hbatch⟩ := run_batch_alone hlimits hreserve hremaining hdispatch
  have htarget_run : (run_target crates engine plan ⟨executor.policy, auth, executor.max_redirects⟩
      (ConcurrencyLimits.build plan tool.budgets.max_concurrency) (BudgetMeter.new tool.budgets now utc_now) tool
      tool_name args).Emits [⟨.now, reserved⟩, ⟨.now, measured⟩, ⟨.fan_out _ _, joined⟩]
        (.done (.ok run, (settle meter [tool_name] [result]).2)) := by
    unfold run_target
    rw [htarget]
    exact hbatch.bind_done rfl
  have hemits := run_tool_answered crates engine executor caller_kind caller_id htool started now utc_now hload
    htarget_run "" finished answer
  exact ⟨joined, hown, hresults, hemits⟩

/-- A run of a tool that is one call, which comes to an end. -/
theorem run_tool_alone (executor : Executor) {plan : EndpointPlan} {tool : PlannedTool} {tool_name : String}
    {slug : Slug} {args : Value} (caller_kind : RunCallerKind) (caller_id : String) {auth : AuthProviders}
    {loaded : List RunEvent} (htool : plan.tool tool_name = some tool) (htarget : tool.target = .ApiCall slug)
    (hload : (AuthProviders.load plan).Emits loaded (.done (.ok auth))) (started now : Instant) (utc_now : DateTime)
    {reserved measured : Instant} {meter : BudgetMeter} {remaining : Option Duration}
    (hreserve : (BudgetMeter.new tool.budgets now utc_now).reserve_calls reserved 1#32 = (.ok (), meter))
    (hremaining : meter.remaining_time measured = .ok remaining) {evs : List DispatchEvent}
    {result : Except DispatchError DispatchOutcome}
    (hdispatch : (dispatch crates plan ⟨executor.policy, auth, executor.max_redirects⟩ none tool_name args
      (call_budget meter remaining)).Emits evs (.done result)) (finished : Instant) (run_id : Uuid) :
    let run := of_batch (settle meter [tool_name] [result]).1
    ∃ joined : Joined (ConcurrencyLimits.build plan tool.budgets.max_concurrency)
        (fan_items crates plan ⟨executor.policy, auth, executor.max_redirects⟩ none (call_budget meter remaining)
          [(tool_name, args)]),
      own 0 joined.moves = evs ∧ joined.last.results = some [result] ∧ ∃ row calls,
        row.definition_snapshot = snapshot.build_snapshot plan tool ∧
        (executor.run_tool crates engine plan tool_name args caller_kind caller_id).Emits
          (⟨.now, started⟩ :: (loaded ++ [⟨.now, now⟩, ⟨.utc_now, utc_now⟩, ⟨.now, reserved⟩, ⟨.now, measured⟩,
            ⟨.fan_out _ _, joined⟩, ⟨.new_v4, ""⟩, ⟨.now, finished⟩, ⟨.create_run row calls, .ok run_id⟩]))
          (.done (.ok { run_id, status := run.status, value := run.value, error := run.error })) := by
  intro run
  obtain ⟨joined, hown, hresults, hemits⟩ := run_tool_alone_answered executor caller_kind caller_id htool htarget
    hload started now utc_now hreserve hremaining hdispatch finished (.ok run_id)
  exact ⟨joined, hown, hresults, _, _, rfl, hemits⟩

end

end api2mcp.runtime
