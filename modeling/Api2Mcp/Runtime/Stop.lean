import Api2Mcp.Concurrent.Path
import Api2Mcp.Runtime.Audit
import Api2Mcp.Runtime.Course

namespace api2mcp.runtime

open btree concurrent interact serde_json
open api2mcp.http api2mcp.model api2mcp.resolve api2mcp.schema api2mcp.script
open api2mcp.runtime.budget api2mcp.runtime.dispatch api2mcp.runtime.fanout api2mcp.runtime.batch

/-- A call of a script that was answered: what happened meanwhile, and what
became of its items. -/
structure Answered where
  call : BindingCall
  evs : List RunEvent
  outcomes : List ItemOutcome

/-- The bytes or the pages cut the item. -/
def Cuts (outcome : ItemOutcome) : Prop :=
  outcome.budget_axis = some .Bytes ∨ outcome.budget_axis = some .Pages

/-- All the bytes or all the pages are used. -/
def Exhausted (meter : BudgetMeter) : Prop :=
  (∃ max ∈ meter.max_bytes, max ≤ meter.bytes_used) ∨ ∃ max ∈ meter.max_pages, max ≤ meter.pages_used

/-- A run is to send nothing more: a budget is used up, or has cut an item. -/
def Spent (ledger : Ledger) : Prop := Exhausted ledger.meter ∨ ∃ entry ∈ ledger.audit, Cuts entry.outcome

/-- No call of a batch sends a request. -/
def NothingSent (evs : List RunEvent) : Prop :=
  ∀ limits calls, ∀ joined : Joined limits calls, (⟨.fan_out limits calls, joined⟩ : RunEvent) ∈ evs →
    ∀ i < calls.length, ∀ e ∈ own i joined.moves, ∀ client request,
      e.question ≠ .io (.exchange client request)

section

variable (crates : Crates) (plan : EndpointPlan) (ctx : DispatchContext) (limits : ConcurrencyLimits)
  (caller_script : Slug)

/-- The calls of a script, one after the other. -/
def Answers (ledger : Ledger) (step : Answered) (ledger' : Ledger) : Prop :=
  (∃ reply, (service_one crates plan ctx limits caller_script step.call ledger).Emits step.evs
    (.done (reply, ledger'))) ∧
  ledger'.audit.map (·.outcome) = ledger.audit.map (·.outcome) ++ step.outcomes

/-- The arguments do not make a request. -/
def Unbound (planned : PlannedApiCall) (args : Value) : Prop :=
  (∃ e, bind_args planned.api_call.params args = .error e) ∨
    ∃ bound e, bind_args planned.api_call.params args = .ok bound ∧
      http.bind crates.url crates.values planned.api_call planned.service bound = .error e

/-- A call that is refused, one that the calls budget or one of the two readings
of the clock declines, or one none of whose items makes a request. -/
inductive Idle (ledger : Ledger) (call : BindingCall) (evs : List RunEvent) : Prop
  | long (h : MAX_BATCH < call.batch.length)
  | empty (h : call.batch = [])
  | undeclared {e : DispatchError} (h : resolve plan (some caller_script) call.name = .error e)
  | declined {reserved : Instant} {trip : BudgetTrip} {meter : BudgetMeter}
      (hread : evs[0]? = some ⟨.now, reserved⟩)
      (h : ledger.meter.reserve_calls reserved (.ofNat 32 call.batch.length) = (.error trip, meter))
  | late {measured : Instant} {trip : BudgetTrip} (hread : evs[1]? = some ⟨.now, measured⟩)
      (h : ledger.meter.remaining_time measured = .error trip)
  | unbound (h : ∀ planned, resolve plan (some caller_script) call.name = .ok planned →
      ∀ args ∈ call.batch, Unbound crates planned args)

end

section

variable {crates : Crates} {plan : EndpointPlan} {ctx : DispatchContext} {limits : ConcurrencyLimits}
  {meter : BudgetMeter} {caller_script : Slug} {items : List (String × Value)} {ledger last : Ledger}
  {evs : List RunEvent}

end

end api2mcp.runtime
