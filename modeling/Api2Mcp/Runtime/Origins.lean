import Api2Mcp.Http.Confined
import Api2Mcp.Http.Egress
import Api2Mcp.Runtime.Deadline

namespace api2mcp.runtime

open interact serde_json net
open api2mcp.http api2mcp.model api2mcp.resolve
open api2mcp.runtime.budget api2mcp.runtime.dispatch api2mcp.runtime.fanout api2mcp.runtime.batch

/-- A call that a tool may dispatch: its own, or one that its script reaches. -/
def Reaches (plan : EndpointPlan) (tool : PlannedTool) (tool_name : String)
    (planned : PlannedApiCall) : Prop :=
  match tool.target with
  | .ApiCall _ => resolve plan none tool_name = .ok planned
  | .Script slug => ∃ name, resolve plan (some slug) name = .ok planned

/-- The URL is one of the plan's origins. -/
def WithinOrigins (plan : EndpointPlan) (url : Url) : Prop :=
  ∃ origin, Origin.of url = .ok origin ∧ Origin.contains plan.origins origin = true

/-- What the guard lets through for a service stays within the plan's origins. -/
def Covered (plan : EndpointPlan) (policy : SsrfPolicy) (service : Service) : Prop :=
  ∀ url, check_url url service.origin_allowlist policy = .ok () → WithinOrigins plan url

/-- An allowlist of the plan's origins. -/
theorem covered_of_allowlist {plan : EndpointPlan} {policy : SsrfPolicy} {service : Service}
    (h : ∀ o ∈ service.origin_allowlist, Origin.contains plan.origins o = true) :
    Covered plan policy service := by
  intro url hchecked
  obtain ⟨origin, horigin, hcontains⟩ := origin_of_check_url hchecked
  refine ⟨origin, horigin, ?_⟩
  obtain ⟨o, hmem, hsame⟩ := List.any_eq_true.mp hcontains
  rw [decide_eq_true_eq] at hsame
  have ho := h o hmem
  rw [Origin.contains, hsame] at ho
  exact ho

section

variable {crates : Crates} {plan : EndpointPlan} {ctx : DispatchContext} {caller_script : Option Slug}
  {name : String} {args : Value} {budget : CallBudget}

/-- A request goes to what the guard lets through for a service. -/
def AsksChecked (policy : SsrfPolicy) (resolved : PlannedApiCall → Prop) : Question → Prop
  | .exchange _ request => ∃ planned, resolved planned ∧
      check_url request.url planned.service.origin_allowlist policy = .ok ()
  | _ => True

/-- A call only requests what the guard lets through for its service. -/
theorem dispatch_checked : (dispatch crates plan ctx caller_script name args budget).Safe
    (io_note fun (_ : Unit) _ => ())
    (io_asks fun _ => AsksChecked ctx.policy fun planned => resolve plan caller_script name = .ok planned)
    (fun _ _ => True) () := by
  refine dispatch_safe fun planned request client hresolve => ?_
  have hguarded : (fetch crates ctx planned budget request client).AllAsks
      (Guarded client (send_params ctx planned budget)) :=
    paginate_guarded request planned.api_call.pagination budget.max_pages.toNat
  refine .of_asks hguarded (fun _ q hq => ?_) ()
  cases q with
  | now => trivial
  | env key => trivial
  | exchange client request => exact ⟨planned, hresolve, hq.2⟩

end

section

variable {crates : Crates} {engine : script.Engine} {executor : Executor} {plan : EndpointPlan}
  {tool : PlannedTool} {tool_name : String} {args : Value} {caller_kind : store.RunCallerKind}
  {caller_id : String} {evs : List RunEvent} {rest : Run (Except ExecutorError RunResult)}

/-- Every request of a run passed the guard for a call that the tool reaches. -/
theorem checked_of_run
    (h : (executor.run_tool crates engine plan tool_name args caller_kind caller_id).Emits evs rest)
    (htool : plan.tool tool_name = some tool) {clock : Clock} {watch : Watch} {request : Request}
    {exchange : Exchange} (hsends : Sends evs clock watch request exchange) :
    ∃ planned, Reaches plan tool tool_name planned ∧
      check_url request.url planned.service.origin_allowlist executor.policy = .ok () := by
  obtain ⟨before, limits, calls, joined, after, i, ⟨slug, p⟩, client, sent, unsent, rfl, hcall, hown,
    -, -⟩ := hsends
  obtain ⟨auth, meter, remaining, caller_script, items, rfl, rfl, -, -, hitems⟩ := batched_of_run h htool
  obtain ⟨name, args', hitem, rfl⟩ := getElem?_fan_items hcall
  obtain ⟨left, hemits⟩ := (Together.tracks joined.path).runs hcall
  rw [hown] at hemits
  obtain ⟨planned, hresolve, hchecked⟩ := dispatch_checked.question hemits
  refine ⟨planned, ?_, hchecked⟩
  have hmem := List.mem_of_getElem? hitem
  cases htarget : tool.target with
  | ApiCall slug =>
    rw [ItemsOf, htarget] at hitems
    obtain ⟨rfl, rfl⟩ := hitems
    rw [Reaches, htarget]
    obtain rfl : name = tool_name := (Prod.mk.inj (List.mem_singleton.mp hmem)).1
    exact hresolve
  | Script slug =>
    rw [ItemsOf, htarget] at hitems
    obtain ⟨rfl, _⟩ := hitems
    rw [Reaches, htarget]
    exact ⟨name, hresolve⟩

/-- Where the guard lets nothing more through for the services of a tool's
calls than the plan's origins, no run of the tool leaves these. -/
theorem run_tool_within_origins
    (h : (executor.run_tool crates engine plan tool_name args caller_kind caller_id).Emits evs rest)
    (htool : plan.tool tool_name = some tool)
    (hcovered : ∀ planned, Reaches plan tool tool_name planned →
      Covered plan executor.policy planned.service) :
    ∀ clock watch request exchange, Sends evs clock watch request exchange →
      WithinOrigins plan request.url := by
  intro clock watch request exchange hsends
  obtain ⟨planned, hreaches, hchecked⟩ := checked_of_run h htool hsends
  exact hcovered planned hreaches request.url hchecked

end

/-- A call whose service may go nowhere else. -/
theorem single_origin_kept :
    ∃ evs rest, ((Executor.new {}).run_tool sample_crates (fun _ _ _ _ => .done (.ok .null)) timed_plan
        "ping" (.object []) .Cli "").Emits evs rest ∧
      (∃ clock watch request exchange, Sends evs clock watch request exchange) ∧
      ∀ clock watch request exchange, Sends evs clock watch request exchange →
        WithinOrigins timed_plan request.url := by
  obtain ⟨evs, rest, hemits, hsends, _⟩ := timed_run (0 : Nat)
  refine ⟨evs, rest, hemits, ⟨_, _, _, _, hsends⟩, run_tool_within_origins hemits rfl ?_⟩
  intro planned hreaches
  obtain rfl : sample_planned = planned := Except.ok.inj hreaches
  exact covered_of_allowlist (by decide)

def away_url : Url := { scheme := "https", host := some (.Domain "away.example") }

def away_origin : Origin := ⟨.Tuple "https" (.Domain "away.example") 443, by decide⟩

def away_service : Service := 
  { dispatch.sample_service with origin_allowlist := [away_origin, sample_origin] }

def away_planned : PlannedApiCall := { sample_planned with service := away_service }

/-- The endpoint of `ping` once more, where the service may redirect. -/
def away_plan : EndpointPlan := { sample_plan with calls := [(sample_slug, away_planned)] }

def away_crates : Crates :=
  { sample_crates with url := { sample_crates.url with join := fun _ _ => .ok away_url } }

def away_page : CallResponse where
  status := .OK
  headers := (chain_moved .OK).headers
  url := away_url
  body := []

theorem away_dispatched (budget : CallBudget) (hpages : 0 < budget.max_pages.toNat) :
    ∃ evs result, (dispatch away_crates away_plan sample_context none "ping" (.object []) budget).Emits
      evs (.done result) ∧ ∃ sent client request exchange unsent,
        evs = sent ++ ⟨.io (.exchange client request), exchange⟩ :: unsent ∧ request.url = away_url := by
  let client := client_of away_service {}
  let request : BoundRequest := { method := .GET, url := sample_url, headers := [], body := none }
  let params := send_params sample_context away_planned budget
  let moved : Exchange := ⟨0, .ok [], .ok (chain_moved ⟨302, by decide⟩)⟩
  let arrived : Exchange := ⟨0, .ok [], .ok (chain_moved .OK)⟩
  let ask (url : Url) : Request :=
    { method := .GET, url, headers := [], timeout := params.deadline - (0 - 0), body := none }
  let evs : List IoEvent := [⟨.now, (0 : Nat)⟩, ⟨.now, (0 : Nat)⟩, ⟨.exchange client (ask sample_url), moved⟩,
    ⟨.now, (0 : Nat)⟩, ⟨.exchange client (ask away_url), arrived⟩]
  have htime : ¬ params.deadline < (0 : Instant) - 0 := Nat.not_lt_zero _
  have hmoved : (send_hops away_crates.url client params (0 : Nat) 5 request).Emits _ _ :=
    send_hops_redirected client (0 : Nat) 4 request ⟨.GET, away_url, [], none⟩ (0 : Nat) moved [] rfl
      htime rfl rfl rfl (next_hop_moved _ rfl)
  have harrived : (send_hops away_crates.url client params (0 : Nat) 4 ⟨.GET, away_url, [], none⟩).Emits
      [⟨.now, (0 : Nat)⟩, ⟨.exchange client (ask away_url), arrived⟩] (.done (.ok away_page)) :=
    send_hops_emits (0 : Nat) arrived rfl htime rfl rfl rfl rfl
  have hsend : (send away_crates.url client request params).Emits evs (.done (.ok away_page)) :=
    .cons (hmoved.append harrived)
  obtain ⟨left, hleft⟩ := Nat.exists_eq_succ_of_ne_zero hpages.ne'
  have hfetch : (fetch away_crates sample_context away_planned budget request client).Emits (evs ++ [])
      (.done (.ok [away_page])) := by
    unfold fetch paginate
    rw [hleft]
    exact hsend.bind (.nil _)
  have hping : resolve away_plan none "ping" = .ok away_planned := rfl
  refine ⟨_, .ok { sample_outcome with pages := [away_page] }, dispatch_emits hping rfl rfl hfetch rfl, ?_⟩
  exact ⟨[_, _, _, _, _], _, _, _, [], rfl, rfl⟩

/-- A tool whose service may be redirected to another origin on its allowlist
sends requests there, and the plan does not say so. -/
theorem redirect_leaves_origins :
    reachable_origins away_plan.calls = .ok away_plan.origins ∧
    ∃ evs rest, ((Executor.new {}).run_tool away_crates (fun _ _ _ _ => .done (.ok .null)) away_plan
        "ping" (.object []) .Cli "").Emits evs rest ∧
      ∃ clock watch request exchange, Sends evs clock watch request exchange ∧
        ¬ WithinOrigins away_plan request.url := by
  let meter : BudgetMeter := BudgetMeter.new {} (0 : Nat) 0
  let admitted : BudgetMeter := { meter with calls_used := meter.calls_used + 1#32 }
  obtain ⟨lane, result, hdispatch, sent, client, request, exchange, unsent, hlane, hurl⟩ :=
    away_dispatched (call_budget admitted none) (by decide)
  have hreserve : meter.reserve_calls (0 : Nat) 1#32 = (.ok (), admitted) := rfl
  have hremaining : admitted.remaining_time (0 : Nat) = .ok none := rfl
  obtain ⟨joined, hown, _, hbatch⟩ := run_batch_alone (fun key n hn => ConcurrencyLimits.build_pos hn)
    hreserve hremaining hdispatch
  have hload : (AuthProviders.load away_plan).Emits [⟨.provider 1 sample_slug, .ok none⟩]
      (.done (.ok [])) := .cons (.nil _)
  have htool : away_plan.tool "ping" = some _ := rfl
  have hrun := run_tool_emits away_crates (fun _ _ _ _ => .done (.ok .null)) (Executor.new {}) .Cli ""
    htool (0 : Nat) (0 : Nat) 0 hload (hbatch.bind (.nil _)) "" (0 : Nat) 0
  refine ⟨rfl, _, _, hrun, _, _, request, exchange, ⟨[⟨.now, (0 : Nat)⟩, ⟨.provider 1 sample_slug, .ok none⟩,
    ⟨.now, (0 : Nat)⟩, ⟨.utc_now, 0⟩, ⟨.now, (0 : Nat)⟩, ⟨.now, (0 : Nat)⟩], _, _, joined, _, 0, _, client,
    sent, unsent, rfl, rfl, hown.trans hlane, rfl, rfl⟩, ?_⟩
  rw [hurl]
  rintro ⟨origin, horigin, hcontains⟩
  obtain rfl : away_origin = origin := Except.ok.inj horigin
  exact absurd hcontains (by decide)

end api2mcp.runtime
