import Api2Mcp.Interact.Rules
import Api2Mcp.Runtime.Executor

namespace api2mcp.runtime

open btree interact serde_json
open api2mcp.http api2mcp.model api2mcp.resolve api2mcp.store api2mcp.script
open api2mcp.runtime.budget api2mcp.runtime.dispatch api2mcp.runtime.fanout api2mcp.runtime.batch
open api2mcp.runtime.recorder

/-- What the clock of a run has said: its last reading, and the one its meter
was made with. -/
structure Clock where
  reading : Instant := 0
  start : Instant := 0

def Clock.note (clock : Clock) : RunEvent → Clock
  | ⟨.now, t⟩ => { clock with reading := t }
  | ⟨.utc_now, _⟩ => { clock with start := clock.reading }
  | _ => clock

/-- The clock after the events. -/
def clock_of (evs : List RunEvent) : Clock := evs.foldl Clock.note {}

/-- The items of a batch are the tool's own call, or calls of one name that the
tool's script was let make. -/
def ItemsOf (plan : EndpointPlan) (tool : PlannedTool) (tool_name : String) (args : Value)
    (caller_script : Option Slug) (items : List (String × Value)) : Prop :=
  match tool.target with
  | .ApiCall _ => caller_script = none ∧ items = [(tool_name, args)]
  | .Script slug => caller_script = some slug ∧ (∃ script, plan.scripts.get slug = some script) ∧
      ∃ name planned, resolve plan (some slug) name = .ok planned ∧ ∀ item ∈ items, item.1 = name

section

variable (crates : Crates) (executor : Executor) (plan : EndpointPlan) (tool : PlannedTool)
  (tool_name : String) (args : Value)

/-- What a run joins are the calls of a batch of the tool, under what its meter
allows when it is joined. -/
def Batched (clock : Clock) : RunQuestion → Prop
  | .fan_out limits calls => ∃ auth meter remaining caller_script items,
      limits = ConcurrencyLimits.build plan tool.budgets.max_concurrency ∧
      calls = fan_items crates plan ⟨executor.policy, auth, executor.max_redirects⟩ caller_script
        (call_budget meter remaining) items ∧
      meter.deadline = tool.budgets.wall_clock.map (clock.start + ·) ∧
      meter.remaining_time clock.reading = .ok remaining ∧
      ItemsOf plan tool tool_name args caller_script items
  | _ => True

/-- The same, with the providers that were loaded. -/
def Joins (auth : AuthProviders) (clock : Clock) : RunQuestion → Prop
  | .fan_out limits calls => ∃ meter remaining caller_script items,
      limits = ConcurrencyLimits.build plan tool.budgets.max_concurrency ∧
      calls = fan_items crates plan ⟨executor.policy, auth, executor.max_redirects⟩ caller_script
        (call_budget meter remaining) items ∧
      meter.deadline = tool.budgets.wall_clock.map (clock.start + ·) ∧
      meter.remaining_time clock.reading = .ok remaining ∧
      ItemsOf plan tool tool_name args caller_script items
  | _ => True

/-- Anything but a batch. -/
def Joinless : RunQuestion → Prop
  | .fan_out .. => False
  | _ => True

/-- A part of the run that comes after the meter was made. -/
abbrev Metered {α : Type} (auth : AuthProviders) (start : Instant) (meter_of : α → BudgetMeter)
    (clock : Clock) (p : Run α) : Prop :=
  p.Safe Clock.note (Joins crates executor plan tool tool_name args auth)
    (fun clock' a => clock'.start = start ∧
      (meter_of a).deadline = tool.budgets.wall_clock.map (start + ·)) clock

end

section

variable {crates : Crates} {engine : Engine} {executor : Executor} {plan : EndpointPlan}
  {tool : PlannedTool} {tool_name : String} {args : Value} {auth : AuthProviders} {meter : BudgetMeter}
  {caller_script : Option Slug} {items : List (String × Value)} {clock : Clock} {start : Instant}

theorem Joins.batched {q : RunQuestion} (h : Joins crates executor plan tool tool_name args auth clock q) :
    Batched crates executor plan tool tool_name args clock q := by
  cases q with
  | fan_out limits calls => exact ⟨auth, h⟩
  | _ => trivial

/-- A batch joins its calls under what its second reading of the clock left. -/
theorem run_batch_metered (hmeter : meter.deadline = tool.budgets.wall_clock.map (start + ·))
    (hclock : clock.start = start) (hitems : ItemsOf plan tool tool_name args caller_script items) :
    Metered crates executor plan tool tool_name args auth start (·.2) clock
      (run_batch crates plan ⟨executor.policy, auth, executor.max_redirects⟩
        (ConcurrencyLimits.build plan tool.budgets.max_concurrency) meter caller_script items) := by
  unfold run_batch
  split
  · exact .done ⟨hclock, hmeter⟩
  rw [Run.now_bind]
  refine .ask trivial fun reserved => ?_
  split
  · rename_i trip meter' hreserve
    obtain ⟨calls_used, rfl⟩ := reserve_calls_cases hreserve
    exact .done ⟨hclock, hmeter⟩
  rename_i meter' hreserve
  obtain rfl := reserve_calls_ok hreserve
  rw [Run.now_bind]
  refine .ask trivial fun measured => ?_
  split
  · exact .done ⟨hclock, hmeter⟩
  rename_i remaining hremaining
  simp only [fan_out, Run.join_bind, Prog.ask_bind]
  refine .ask ⟨_, remaining, caller_script, items, rfl, rfl, ?_, hremaining, hitems⟩
    fun joined => ?_
  · rw [hclock.symm] at hmeter
    exact hmeter
  split
  · exact .done ⟨hclock, hmeter⟩
  · rw [Run.panicked_bind]
    exact .ask trivial (by rintro ⟨⟩)

theorem service_one_metered {script_slug : Slug} (htarget : tool.target = .Script script_slug)
    (hscript : ∃ script, plan.scripts.get script_slug = some script) (call : BindingCall) {ledger : Ledger}
    (hmeter : ledger.meter.deadline = tool.budgets.wall_clock.map (start + ·))
    (hclock : clock.start = start) :
    Metered crates executor plan tool tool_name args auth start (·.2.meter) clock
      (service_one crates plan ⟨executor.policy, auth, executor.max_redirects⟩
        (ConcurrencyLimits.build plan tool.budgets.max_concurrency) script_slug call ledger) := by
  unfold service_one
  split
  · exact .done ⟨hclock, hmeter⟩
  split
  · exact .done ⟨hclock, hmeter⟩
  rename_i planned hresolve
  have hitems : ItemsOf plan tool tool_name args (some script_slug)
      (call.batch.map fun args => (call.name, args)) := by
    rw [ItemsOf, htarget]
    refine ⟨rfl, hscript, call.name, planned, hresolve, fun item hitem => ?_⟩
    obtain ⟨args, _, rfl⟩ := List.mem_map.mp hitem
    rfl
  refine (run_batch_metered hmeter hclock hitems).bind ?_
  rintro clock' ⟨outcome, meter'⟩ ⟨hclock', hmeter'⟩
  exact .done ⟨hclock', hmeter'⟩

/-- By induction on the script: whatever it asks for. -/
theorem service_metered {α : Type} {script_slug : Slug} (htarget : tool.target = .Script script_slug)
    (hscript : ∃ script, plan.scripts.get script_slug = some script) (script : Script α) (ledger : Ledger)
    (hmeter : ledger.meter.deadline = tool.budgets.wall_clock.map (start + ·))
    (hclock : clock.start = start) :
    Metered crates executor plan tool tool_name args auth start (·.2.meter) clock
      (service crates plan ⟨executor.policy, auth, executor.max_redirects⟩
        (ConcurrencyLimits.build plan tool.budgets.max_concurrency) script_slug script ledger) := by
  induction script generalizing ledger clock with
  | done a => exact .done ⟨hclock, hmeter⟩
  | ask q next ih =>
    cases q with
    | now => exact .ask trivial fun now => ih now ledger hmeter hclock
    | call call =>
      unfold service
      refine (service_one_metered htarget hscript call hmeter hclock).bind ?_
      rintro clock' ⟨reply, ledger'⟩ ⟨hclock', hmeter'⟩
      exact ih reply ledger' hmeter' hclock'

theorem wall_clock_deadline_metered (hclock : clock.start = start) :
    (wall_clock_deadline meter).Safe Clock.note (Joins crates executor plan tool tool_name args auth)
      (fun clock' _ => clock'.start = start) clock := by
  unfold wall_clock_deadline
  rw [Run.now_bind]
  refine .ask trivial fun now => ?_
  split
  · exact .ask trivial fun now => .done hclock
  · exact .done hclock
  · exact .ask trivial fun now => .done hclock

theorem run_script_metered {script_slug : Slug} {script : ScriptDef}
    (htarget : tool.target = .Script script_slug) (hscript : ∃ script, plan.scripts.get script_slug = some script)
    (hmeter : meter.deadline = tool.budgets.wall_clock.map (start + ·)) (hclock : clock.start = start) :
    Metered crates executor plan tool tool_name args auth start (·.2) clock
      (run_script crates engine plan ⟨executor.policy, auth, executor.max_redirects⟩
        (ConcurrencyLimits.build plan tool.budgets.max_concurrency) meter script_slug script args) := by
  unfold run_script
  split
  · exact .done ⟨hclock, hmeter⟩
  refine (wall_clock_deadline_metered hclock).bind fun clock' deadline hclock' => ?_
  refine (service_metered htarget hscript _ _ hmeter hclock').bind ?_
  rintro clock'' ⟨result, ledger⟩ hledger
  dsimp only
  split
  · exact .done hledger
  · exact .done hledger

theorem run_target_metered (hmeter : meter.deadline = tool.budgets.wall_clock.map (start + ·))
    (hclock : clock.start = start) :
    Metered crates executor plan tool tool_name args auth start (·.2) clock
      (run_target crates engine plan ⟨executor.policy, auth, executor.max_redirects⟩
        (ConcurrencyLimits.build plan tool.budgets.max_concurrency) meter tool tool_name args) := by
  unfold run_target
  split
  · rename_i script_slug htarget
    split
    · exact .done ⟨hclock, hmeter⟩
    rename_i script hscript
    refine (run_script_metered htarget ⟨script, hscript⟩ hmeter hclock).bind ?_
    rintro clock' ⟨result, meter'⟩ hmeter'
    exact .done hmeter'
  · rename_i slug htarget
    have hitems : ItemsOf plan tool tool_name args none [(tool_name, args)] := by
      rw [ItemsOf, htarget]
      exact ⟨rfl, rfl⟩
    refine (run_batch_metered hmeter hclock hitems).bind ?_
    rintro clock' ⟨batch, meter'⟩ hmeter'
    exact .done hmeter'

/-- Loading the providers asks for nothing else. -/
theorem load_joinless (plan : EndpointPlan) : (AuthProviders.load plan).AllAsks Joinless := by
  have hcalls : ∀ (calls : List PlannedApiCall) (map : AuthProviders),
      (AuthProviders.load_from plan calls map).AllAsks Joinless := by
    intro calls
    induction calls with
    | nil => exact fun _ => .done _
    | cons planned calls ih =>
      intro map
      unfold AuthProviders.load_from
      split
      · exact ih _
      rw [Run.provider_bind]
      refine .ask trivial fun answer => ?_
      split
      · exact .done _
      · exact ih _
      · exact ih _
  exact hcalls _ _

theorem finish_joinless {caller_kind : RunCallerKind} {caller_id : String} {started : Instant}
    {run : TargetRun} :
    (finish crates plan tool caller_kind caller_id args started run meter).AllAsks Joinless := by
  unfold finish
  rw [Run.new_v4_bind]
  refine .ask trivial fun request_id => ?_
  rw [Run.now_bind]
  refine .ask trivial fun now => ?_
  unfold record
  rw [Run.create_run_bind]
  refine .ask trivial fun recorded => ?_
  split
  · exact .done _
  · exact .done _

theorem Joinless.joins {q : RunQuestion} (h : Joinless q) :
    Joins crates executor plan tool tool_name args auth clock q := by
  cases q with
  | fan_out limits calls => exact h.elim
  | _ => trivial

theorem Joinless.batched {q : RunQuestion} (h : Joinless q) :
    Batched crates executor plan tool tool_name args clock q := by
  cases q with
  | fan_out limits calls => exact h.elim
  | _ => trivial

theorem run_tool_metered {caller_kind : RunCallerKind} {caller_id : String}
    (htool : plan.tool tool_name = some tool) :
    (executor.run_tool crates engine plan tool_name args caller_kind caller_id).Safe Clock.note
      (Batched crates executor plan tool tool_name args) (fun _ _ => True) clock := by
  unfold Executor.run_tool
  rw [Run.now_bind]
  refine .ask trivial fun started => ?_
  rw [htool]
  dsimp only
  refine Prog.Safe.bind (.of_asks (load_joinless plan) (fun _ _ => Joinless.batched) _)
    fun clock' auth _ => ?_
  split
  · exact .done trivial
  rename_i auth
  rw [Run.now_bind]
  refine .ask trivial fun now => ?_
  rw [Run.utc_now_bind]
  refine .ask trivial fun utc_now => ?_
  have htarget : ∀ clock : Clock, clock.start = now →
      Metered crates executor plan tool tool_name args auth now (·.2) clock
        (run_target crates engine plan ⟨executor.policy, auth, executor.max_redirects⟩
          (ConcurrencyLimits.build plan tool.budgets.max_concurrency)
          (BudgetMeter.new tool.budgets now utc_now) tool tool_name args) :=
    fun _ hclock => run_target_metered rfl hclock
  refine ((htarget _ rfl).weaken fun _ _ => Joins.batched).bind ?_
  rintro clock'' ⟨result, meter⟩ _
  dsimp only
  split
  · exact .done trivial
  · exact .of_asks finish_joinless (fun _ _ => Joinless.batched) _

/-- Every fan-out of a run of a tool is one of its batches. -/
theorem batched_of_run {caller_kind : RunCallerKind} {caller_id : String} {before after : List RunEvent}
    {limits : ConcurrencyLimits} {calls : List BoxedCall} {joined : Joined limits calls}
    {rest : Run (Except ExecutorError RunResult)}
    (h : (executor.run_tool crates engine plan tool_name args caller_kind caller_id).Emits
      (before ++ ⟨.fan_out limits calls, joined⟩ :: after) rest) (htool : plan.tool tool_name = some tool) :
    Batched crates executor plan tool tool_name args (clock_of before) (.fan_out limits calls) :=
  (run_tool_metered htool).question h

end

section

variable {σ : Type} {crates : Crates} {plan : EndpointPlan} {ctx : DispatchContext}
  {caller_script : Option Slug} {name : String} {args : Value} {budget : CallBudget}

/-- A record of what requests ask, kept of a call. -/
def io_note (note : σ → IoEvent → σ) (s : σ) : DispatchEvent → σ
  | ⟨.io q, a⟩ => note s ⟨q, a⟩
  | _ => s

def io_asks (P : σ → Question → Prop) (s : σ) : DispatchQuestion → Prop
  | .io q => P s q
  | _ => True

/-- A call asks what fetching its pages asks. -/
theorem dispatch_safe {note : σ → IoEvent → σ} {P : σ → Question → Prop} {s : σ}
    (hfetch : ∀ planned request client, resolve plan caller_script name = .ok planned →
      (fetch crates ctx planned budget request client).Safe note P (fun _ _ => True) s) :
    (dispatch crates plan ctx caller_script name args budget).Safe (io_note note) (io_asks P)
      (fun _ _ => True) s := by
  unfold dispatch
  split
  · exact .done trivial
  rename_i planned hresolve
  unfold dispatch_call
  split
  · exact .done trivial
  split
  · exact .done trivial
  rename_i request _
  rw [Dispatch.client_for_bind]
  refine .ask trivial fun answer => ?_
  split
  · exact .done trivial
  rename_i client
  have hio : (Dispatch.io (fetch crates ctx planned budget request client)).Safe (io_note note)
      (io_asks P) (fun _ _ => True) s := by
    unfold Dispatch.io
    refine Prog.Safe.among ?_ ?_ (hfetch planned request client hresolve)
    · exact fun _ _ _ => rfl
    · exact fun _ _ hq => hq
  refine hio.bind fun s' result _ => ?_
  split
  · exact .done trivial
  unfold conclude
  dsimp only
  split
  · split
    · exact .ask trivial fun a => nomatch a
    · exact .done trivial
  · split
    · exact .done trivial
    · exact .done trivial

/-- What a call of a batch is made of. -/
theorem getElem?_fan_items {items : List (String × Value)} {i : Nat} {slug : Slug}
    {p : Dispatch (Except DispatchError DispatchOutcome)}
    (h : (fan_items crates plan ctx caller_script budget items)[i]? = some (slug, p)) :
    ∃ name args, items[i]? = some (name, args) ∧
      p = dispatch crates plan ctx caller_script name args budget := by
  unfold fan_items at h
  rw [List.getElem?_map, Option.map_eq_some_iff] at h
  obtain ⟨⟨name, args⟩, hitem, hcall⟩ := h
  exact ⟨name, args, hitem, (Prod.mk.inj hcall).2.symm⟩

end

end api2mcp.runtime
