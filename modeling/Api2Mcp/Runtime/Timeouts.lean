import Api2Mcp.Runtime.Deadline
import Api2Mcp.Runtime.Scope

namespace api2mcp.runtime

open interact serde_json
open api2mcp.http api2mcp.model api2mcp.resolve api2mcp.script
open api2mcp.runtime.budget api2mcp.runtime.dispatch api2mcp.runtime.fanout api2mcp.runtime.batch

/-- The timeout that an api_call declares, or its service for it. -/
def declared_timeout (planned : PlannedApiCall) : Duration :=
  from_millis (planned.api_call.timeout_ms.getD planned.service.timeout_ms)

/-- What the wall clock of a run leaves a batch that is joined. -/
def time_left (budgets : Budgets) (clock : Clock) : Duration :=
  match budgets.wall_clock with
  | some wall_clock => clock.start + wall_clock - clock.reading
  | none => NO_WALL_CLOCK_BUDGET_FALLBACK

/-- A request that a run sends for an api_call, with what the clocks of the run
and of the call had said by then. -/
def SendsFor (crates : Crates) (plan : EndpointPlan) (evs : List RunEvent) (clock : Clock) (watch : Watch)
    (planned : PlannedApiCall) (request : Request) : Prop :=
  ∃ before limits ctx caller_script budget items,
    ∃ joined : Joined limits (fan_items crates plan ctx caller_script budget items),
    ∃ after i name args client exchange sent unsent,
      evs = before ++ ⟨.fan_out limits _, joined⟩ :: after ∧ items[i]? = some (name, args) ∧
        resolve plan caller_script name = .ok planned ∧
        own i joined.moves = sent ++ ⟨.io (.exchange client request), exchange⟩ :: unsent ∧
        clock = clock_of before ∧ watch = watch_of sent

/-- The run leaves a request no more than the timeout that is declared for it. -/
def LeavesDeclared (budgets : Budgets) (clock : Clock) (watch : Watch) (planned : PlannedApiCall) : Prop :=
  time_left budgets clock - (watch.reading - watch.started) ≤ declared_timeout planned

section

variable {crates : Crates} {engine : Engine} {executor : Executor} {plan : EndpointPlan}
  {tool : PlannedTool} {tool_name : String} {args : Value} {caller_kind : store.RunCallerKind}
  {caller_id : String} {evs : List RunEvent} {rest : Run (Except ExecutorError RunResult)}

theorem SendsFor.sends {clock : Clock} {watch : Watch} {planned : PlannedApiCall} {request : Request}
    (h : SendsFor crates plan evs clock watch planned request) : ∃ exchange, Sends evs clock watch request exchange := by
  obtain ⟨before, limits, ctx, caller_script, budget, items, joined, after, i, name, args, client, exchange, sent,
    unsent, hevs, hitem, -, hown, hclock, hwatch⟩ := h
  have hcall : ∃ call, (fan_items crates plan ctx caller_script budget items)[i]? = some call := by
    unfold fan_items
    rw [List.getElem?_map, hitem]
    exact ⟨_, rfl⟩
  obtain ⟨call, hcall⟩ := hcall
  exact ⟨exchange, before, limits, _, joined, after, i, call, client, sent, unsent, hevs, hcall, hown, hclock, hwatch⟩

theorem deadline_of_remaining {meter : BudgetMeter} {budgets : Budgets} {clock : Clock} {remaining : Option Duration}
    (hdeadline : meter.deadline = budgets.wall_clock.map (clock.start + ·))
    (h : meter.remaining_time clock.reading = .ok remaining) :
    (call_budget meter remaining).deadline = time_left budgets clock := by
  unfold time_left call_budget
  cases hwall : budgets.wall_clock with
  | none =>
    rw [hwall, Option.map_none] at hdeadline
    rw [BudgetMeter.remaining_time, hdeadline] at h
    obtain rfl := Except.ok.inj h
    rfl
  | some wall_clock =>
    rw [hwall, Option.map_some] at hdeadline
    obtain ⟨-, rfl⟩ := remaining_time_eq hdeadline h
    rfl

/-- Whatever timeout is declared, a request has what its run leaves it. -/
theorem timeout_of_run (h : (executor.run_tool crates engine plan tool_name args caller_kind caller_id).Emits evs rest)
    (htool : plan.tool tool_name = some tool) {clock : Clock} {watch : Watch} {request : Request}
    {exchange : Exchange} (hsends : Sends evs clock watch request exchange) :
    Timed (time_left tool.budgets clock) watch request := by
  obtain ⟨before, limits, calls, joined, after, i, ⟨slug, p⟩, client, sent, unsent, rfl, hcall, hown,
    rfl, rfl⟩ := hsends
  obtain ⟨auth, meter, remaining, caller_script, items, rfl, rfl, hdeadline, hremaining, _⟩ :=
    batched_of_run h htool
  obtain ⟨name, args', _, rfl⟩ := getElem?_fan_items hcall
  obtain ⟨left, hemits⟩ := (Together.tracks joined.path).runs hcall
  rw [hown] at hemits
  rw [← deadline_of_remaining hdeadline hremaining]
  exact dispatch_timed.question hemits

/-- Each request of a run has at most the timeout that is declared for it exactly
when the run itself leaves it no more. -/
theorem timeouts_declared_iff
    (h : (executor.run_tool crates engine plan tool_name args caller_kind caller_id).Emits evs rest)
    (htool : plan.tool tool_name = some tool) :
    (∀ clock watch planned request, SendsFor crates plan evs clock watch planned request →
        request.timeout ≤ declared_timeout planned) ↔
      ∀ clock watch planned request, SendsFor crates plan evs clock watch planned request →
        LeavesDeclared tool.budgets clock watch planned := by
  refine forall₄_congr fun clock watch planned request => forall_congr' fun hsends => ?_
  obtain ⟨exchange, hsent⟩ := hsends.sends
  obtain ⟨-, htimeout⟩ := timeout_of_run h htool hsent
  rw [LeavesDeclared, htimeout]

end

def limited_plan (timeout_ms : Option Nat) : EndpointPlan :=
  { sample_plan with calls := [(sample_slug, limited_call timeout_ms)] }

/-- The one request of a run without a wall clock has an hour. -/
theorem limited_run (timeout_ms : Option Nat) :
    ∃ evs result, ((Executor.new {}).run_tool sample_crates (fun _ _ _ _ => .done (.ok .null))
        (limited_plan timeout_ms) "ping" (.object []) .Cli "").Emits evs (.done (.ok result)) ∧
      SendsFor sample_crates (limited_plan timeout_ms) evs {} { started := (0 : Nat), reading := (0 : Nat), fresh := true }
        (limited_call timeout_ms) (sample_request NO_WALL_CLOCK_BUDGET_FALLBACK) := by
  let meter : BudgetMeter := { BudgetMeter.new {} (0 : Nat) 0 with calls_used := 1 }
  have hping : dispatch.resolve (limited_plan timeout_ms) none "ping" = .ok (limited_call timeout_ms) := rfl
  have hpolicy : sample_context.policy = {} := rfl
  have hheaders : hop_headers sample_bound (sample_context.auth.get sample_slug) = .done (.ok []) := rfl
  have hbytes : 4 ≤ (call_budget meter none).max_response_bytes.toNat := Nat.le_of_ble_eq_true rfl
  have hpages : 0 < (call_budget meter none).max_pages.toNat := Nat.le_of_ble_eq_true rfl
  have hdispatch := limited_dispatched timeout_ms hping hpolicy hheaders (0 : Nat) (call_budget meter none) hbytes hpages
  have htool : (limited_plan timeout_ms).tool "ping" =
      some { name := "ping", input_schema := .object [], target := .ApiCall sample_slug, budgets := {} } := rfl
  have hload : (AuthProviders.load (limited_plan timeout_ms)).Emits [⟨.provider 1 sample_slug, .ok none⟩]
      (.done (.ok [])) := .cons (.nil _)
  have hreserve : (BudgetMeter.new {} (0 : Nat) 0).reserve_calls (0 : Nat) 1#32 = (.ok (), meter) := rfl
  have hremaining : meter.remaining_time (0 : Nat) = .ok none := rfl
  have halone := @run_tool_alone sample_crates (fun _ _ _ _ => .done (.ok .null))
  obtain ⟨joined, hown, -, _, _, -, hrun⟩ := halone (.new {}) .Cli "" htool rfl hload (0 : Nat) (0 : Nat) 0
    hreserve hremaining hdispatch (0 : Nat) 0
  refine ⟨_, _, hrun, [⟨.now, (0 : Nat)⟩, ⟨.provider 1 sample_slug, .ok none⟩, ⟨.now, (0 : Nat)⟩, ⟨.utc_now, 0⟩,
    ⟨.now, (0 : Nat)⟩, ⟨.now, (0 : Nat)⟩], _, _, none, _, [("ping", .object [])], joined, _, 0, "ping", .object [],
    client_of dispatch.sample_service {}, _, (sample_events (0 : Nat) NO_WALL_CLOCK_BUDGET_FALLBACK).take 3, [], rfl, rfl, rfl,
    hown, rfl, rfl⟩

/-- A call that declares an hour has that hour. -/
theorem hour_declared :
    ∃ evs rest, ((Executor.new {}).run_tool sample_crates (fun _ _ _ _ => .done (.ok .null))
        (limited_plan (some 3600000)) "ping" (.object []) .Cli "").Emits evs rest ∧
      (∃ clock watch planned request, SendsFor sample_crates (limited_plan (some 3600000)) evs clock watch planned request) ∧
      ∀ clock watch planned request, SendsFor sample_crates (limited_plan (some 3600000)) evs clock watch planned request →
        request.timeout ≤ declared_timeout planned := by
  obtain ⟨evs, result, hrun, hsends⟩ := limited_run (some 3600000)
  have htool : (limited_plan (some 3600000)).tool "ping" =
      some { name := "ping", input_schema := .object [], target := .ApiCall sample_slug, budgets := {} } := rfl
  refine ⟨evs, _, hrun, ⟨_, _, _, _, hsends⟩, (timeouts_declared_iff hrun htool).mpr ?_⟩
  rintro clock watch planned request ⟨_, _, _, _, _, _, _, _, _, _, _, _, _, _, _, -, -, hresolve, -, -, -⟩
  obtain rfl := List.mem_singleton.mp (planned_of_resolve hresolve)
  have hleft : time_left {} clock = 3600000 * 1000 := by
    simp only [time_left, NO_WALL_CLOCK_BUDGET_FALLBACK]
  have hdeclared : declared_timeout (limited_call (some 3600000)) = 3600000 * 1000 := by
    simp only [declared_timeout, limited_call, Option.getD_some, from_millis]
  show time_left {} clock - _ ≤ _
  rw [hleft, hdeclared]
  exact Nat.sub_le _ _

/-- A call of a service that allows a second has an hour too. -/
theorem hour_undeclared :
    ∃ evs rest, ((Executor.new {}).run_tool sample_crates (fun _ _ _ _ => .done (.ok .null)) (limited_plan none)
        "ping" (.object []) .Cli "").Emits evs rest ∧
      ∃ clock watch planned request, SendsFor sample_crates (limited_plan none) evs clock watch planned request ∧
        declared_timeout planned = 1000000 ∧ request.timeout = 3600000000 := by
  obtain ⟨evs, result, hrun, hsends⟩ := limited_run none
  refine ⟨evs, _, hrun, _, _, _, _, hsends, ?_, ?_⟩
  · simp only [declared_timeout, limited_call, Option.getD_none, from_millis, sample_planned, dispatch.sample_service]
  · simp only [sample_request, NO_WALL_CLOCK_BUDGET_FALLBACK]

end api2mcp.runtime
