import Api2Mcp.Script.Bridge

namespace api2mcp.script

open interact serde_json
open api2mcp.http api2mcp.model api2mcp.resolve api2mcp.schema
open api2mcp.runtime.budget api2mcp.runtime.dispatch api2mcp.runtime.fanout api2mcp.runtime.batch

inductive ScriptFailureKind where
  | Compile
  | Runtime
  | Terminated
  | Panic
  deriving DecidableEq, Repr

/-- `impl Debug for ScriptFailureKind`. -/
def ScriptFailureKind.debug : ScriptFailureKind → String
  | .Compile => "Compile"
  | .Runtime => "Runtime"
  | .Terminated => "Terminated"
  | .Panic => "Panic"

structure ScriptFailure where
  kind : ScriptFailureKind
  message : String
  line : Option Nat
  column : Option Nat
  snippet : Option String
  deriving DecidableEq, Repr

/-- `impl Display for ScriptFailure`. -/
def ScriptFailure.to_string (failure : ScriptFailure) : String :=
  failure.kind.debug ++ ": " ++ failure.message

inductive RunScriptError where
  | Args (e : ValidationError)
  | Script (failure : ScriptFailure)
  deriving DecidableEq, Repr

/-- `impl Display for RunScriptError`. -/
def RunScriptError.to_string : RunScriptError → String
  | .Args e => "arguments: " ++ e.to_string
  | .Script failure => failure.to_string

/-- What `run_blocking` makes of a source, its params, a deadline and the time
the run started at. How the closure ends is its result, a panic of it included. -/
abbrev Engine := String → List (String × Value) → Option Instant → DateTime →
  Script (Except ScriptFailure Value)

/-- `set_max_operations`. -/
def MAX_OPERATIONS : Nat := 2000000

/-- The script makes at most `n` calls, whatever it is answered. -/
def CallsWithin {α : Type} : Script α → Nat → Prop
  | .done _, _ => True
  | .ask .now next, n => ∀ now, CallsWithin (next now) n
  | .ask (.call _) next, n => ∃ m, n = m + 1 ∧ ∀ reply, CallsWithin (next reply) m

/-- The engine ends a script that goes on after so many operations. A call is
one of them. -/
def Limited (engine : Engine) : Prop :=
  ∀ source params deadline execution_start,
    CallsWithin (engine source params deadline execution_start) MAX_OPERATIONS

structure ScriptRun where
  value : Value
  calls : List BatchEntry

def wall_clock_deadline (meter : BudgetMeter) : Run (Option Instant) := do
  let now ← Run.now
  match meter.remaining_time now with
  | .ok (some remaining) => do
    let now ← Run.now
    return some (now + remaining)
  | .ok none => return none
  | .error _ => do
    let now ← Run.now
    return some now

/-- The entries of a script that fails are dropped. -/
def run_script (crates : Crates) (engine : Engine) (plan : EndpointPlan) (ctx : DispatchContext)
    (limits : ConcurrencyLimits) (meter : BudgetMeter) (caller_script : Slug) (script : ScriptDef)
    (args : Value) : Run (Except RunScriptError ScriptRun × BudgetMeter) :=
  match bind_args script.params args with
  | .error e => return (.error (.Args e), meter)
  | .ok bound => do
    let deadline ← wall_clock_deadline meter
    let (result, ledger) ← service crates plan ctx limits caller_script
      (engine script.source bound deadline meter.execution_start) ⟨meter, []⟩
    match result with
    | .ok value => return (.ok { value, calls := ledger.audit }, ledger.meter)
    | .error failure => return (.error (.Script failure), ledger.meter)

end api2mcp.script
