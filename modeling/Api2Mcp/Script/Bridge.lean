import Api2Mcp.Runtime.Errors

namespace api2mcp.script

open interact serde_json
open api2mcp.http api2mcp.model api2mcp.resolve
open api2mcp.runtime.budget api2mcp.runtime.dispatch api2mcp.runtime.fanout api2mcp.runtime.batch

def MAX_BATCH : Nat := 500

/-- A call of a script's `api`, `api_try` or `api_many`. -/
structure BindingCall where
  name : String
  batch : List Value

inductive BridgeReply where
  | Entries (entries : List Value)
  | Refused (message : String)
  | Terminated (message : String)

/-- What a running script asks: the time, between two operations, and the calls
it makes. -/
inductive ScriptQuestion where
  | now
  | call (call : BindingCall)

abbrev ScriptAnswer : ScriptQuestion → Type
  | .now => Instant
  | .call _ => BridgeReply

abbrev Script := Prog ScriptQuestion ScriptAnswer

abbrev ScriptEvent := Event ScriptQuestion ScriptAnswer

/-- What a run keeps while its script runs: the meter, and the entries for the
record. -/
structure Ledger where
  meter : BudgetMeter
  audit : List BatchEntry

/-- The entries go on from the number that was reached. -/
def Ledger.sink (ledger : Ledger) (meter : BudgetMeter) (entries : List BatchEntry) : Ledger where
  meter
  audit := ledger.audit ++
    entries.mapIdx fun i e => { e with index := ledger.audit.length + i }

section

variable (crates : Crates) (plan : EndpointPlan) (ctx : DispatchContext) (limits : ConcurrencyLimits)
  (caller_script : Slug)

def entry_to_json (entry : BatchEntry) : Value :=
  match entry.outcome with
  | .Ok outcome =>
    .json [("ok", .bool true), ("index", .of_nat entry.index), ("value", outcome.value)]
  | _ =>
    .json [("ok", .bool false), ("index", .of_nat entry.index), ("error", entry.error_value crates.url)]

/-- What a script is told of its batch. -/
def reply_of (outcome : BatchOutcome) : BridgeReply :=
  if outcome.status = .AllFailedOnBudget .WallClock then .Terminated "budget exceeded: wall_clock"
  else .Entries (outcome.entries.map (entry_to_json crates))

def service_one (call : BindingCall) (ledger : Ledger) : Run (BridgeReply × Ledger) :=
  if call.batch.length > MAX_BATCH then
    return (.Refused ("api_many: batch of " ++ Nat.repr call.batch.length ++
      " exceeds the maximum of " ++ Nat.repr MAX_BATCH), ledger)
  else
    match resolve plan (some caller_script) call.name with
    | .error e => return (.Refused e.to_string, ledger)
    | .ok _ => do
      let (outcome, meter) ← run_batch crates plan ctx limits ledger.meter (some caller_script)
        (call.batch.map fun args => (call.name, args))
      return (reply_of crates outcome, ledger.sink meter outcome.entries)

/-- The calls of a script, answered one after the other until it ends. -/
def service {α : Type} : Script α → Ledger → Run (α × Ledger)
  | .done a, ledger => return (a, ledger)
  | .ask .now next, ledger => do
    let now ← Run.now
    service (next now) ledger
  | .ask (.call call) next, ledger => do
    let (reply, ledger) ← service_one crates plan ctx limits caller_script call ledger
    service (next reply) ledger

/-- What a script was told, one after the other, while its calls were answered. -/
inductive Serves : Ledger → List RunEvent → List ScriptEvent → Ledger → Prop
  | nil (ledger : Ledger) : Serves ledger [] [] ledger
  | now {ledger last : Ledger} {evs : List RunEvent} {told : List ScriptEvent} (t : Instant) :
      Serves ledger evs told last → Serves ledger (⟨.now, t⟩ :: evs) (⟨.now, t⟩ :: told) last
  | call {ledger mid last : Ledger} {call : BindingCall} {reply : BridgeReply} {before evs : List RunEvent}
      {told : List ScriptEvent} :
      (service_one crates plan ctx limits caller_script call ledger).Emits before (.done (reply, mid)) →
        Serves mid evs told last → Serves ledger (before ++ evs) (⟨.call call, reply⟩ :: told) last

variable {crates plan ctx limits caller_script}

/-- The calls of a script are answered exactly by what it goes on with. -/
theorem service_iff {α : Type} {script : Script α} {ledger last : Ledger} {evs : List RunEvent} {a : α} :
    (service crates plan ctx limits caller_script script ledger).Emits evs (.done (a, last)) ↔
      ∃ told, script.Emits told (.done a) ∧ Serves crates plan ctx limits caller_script ledger evs told last := by
  induction script generalizing ledger evs with
  | done b =>
    constructor
    · intro h
      obtain ⟨rfl, hdone⟩ := h.of_done
      obtain ⟨rfl, rfl⟩ := Prod.mk.inj (Prog.done.inj hdone)
      exact ⟨[], .nil _, .nil _⟩
    · rintro ⟨told, hscript, hserves⟩
      obtain ⟨rfl, hdone⟩ := hscript.of_done
      obtain rfl := Prog.done.inj hdone
      cases hserves
      exact .nil _
  | ask q next ih =>
    cases q with
    | now =>
      constructor
      · intro h
        unfold service at h
        rw [Run.now_bind] at h
        obtain ⟨_, hask⟩ | ⟨t, rest, rfl, hrest⟩ := h.of_ask
        · cases hask
        · obtain ⟨told, hscript, hserves⟩ := (ih t).mp hrest
          exact ⟨_, .cons hscript, .now t hserves⟩
      · rintro ⟨told, hscript, hserves⟩
        obtain ⟨_, hask⟩ | ⟨t, rest, rfl, hrest⟩ := hscript.of_ask
        · cases hask
        · cases hserves with
          | now t hserves =>
            unfold service
            rw [Run.now_bind]
            exact .cons ((ih t).mpr ⟨rest, hrest, hserves⟩)
    | call call =>
      constructor
      · intro h
        unfold service at h
        obtain ⟨⟨reply, mid⟩, before, after, rfl, hone, hrest⟩ := h.done_of_bind
        obtain ⟨told, hscript, hserves⟩ := (ih reply).mp hrest
        exact ⟨_, .cons hscript, .call hone hserves⟩
      · rintro ⟨told, hscript, hserves⟩
        obtain ⟨_, hask⟩ | ⟨reply, rest, rfl, hrest⟩ := hscript.of_ask
        · cases hask
        · cases hserves with
          | call hone hserves =>
            unfold service
            exact hone.bind ((ih reply).mpr ⟨rest, hrest, hserves⟩)

end

end api2mcp.script
