import Api2Mcp.Http.World
import Api2Mcp.Model.Endpoint
import Api2Mcp.Numeric.Word

namespace api2mcp.runtime.budget

open numeric
open api2mcp.model api2mcp.http

abbrev u32 := BitVec 32
abbrev u64 := BitVec 64

inductive BudgetAxis where
  | Calls
  | Bytes
  | WallClock
  | Pages
  deriving DecidableEq, Repr

def BudgetAxis.as_str : BudgetAxis → String
  | .Calls => "calls"
  | .Bytes => "bytes"
  | .WallClock => "wall_clock"
  | .Pages => "pages"

structure BudgetTrip where
  axis : BudgetAxis
  deriving DecidableEq, Repr

/-- What a run may spend and has spent. -/
structure BudgetMeter where
  max_calls : Option u32
  max_bytes : Option u64
  max_pages : Option u32
  wall_clock_ms : Option u64
  calls_used : u32
  bytes_used : u64
  pages_used : u32
  deadline : Option Instant
  execution_start : DateTime
  deriving DecidableEq

/-- The sum of the amounts, which wraps. -/
def wrapping_sum {w : Nat} (amounts : List (BitVec w)) : BitVec w := amounts.foldl (· + ·) 0

/-- The loop of the commits: the total of what fits, and the index of what does
not. -/
def commit_loop {w : Nat} (max : BitVec w) : BitVec w → BitVec w → List (Nat × BitVec w) →
    Option Nat × BitVec w
  | _, committed, [] => (none, committed)
  | used, committed, (index, amount) :: rest =>
    let candidate := saturating_add used amount
    if max < candidate then (some index, committed)
    else commit_loop max candidate (committed + amount) rest

/-- What both commits do to their axis. -/
def commit_in_order {w : Nat} (max : Option (BitVec w)) (used : BitVec w)
    (ordered : List (Nat × BitVec w)) : Option Nat × BitVec w :=
  match max with
  | none => (none, used + wrapping_sum (ordered.map (·.2)))
  | some max =>
    let (trip_at, committed) := commit_loop max used 0 ordered
    (trip_at, used + committed)

namespace BudgetMeter

/-- The limits of a run's budgets are machine words already. -/
def new (budgets : Budgets) (now : Instant) (utc_now : DateTime) : BudgetMeter where
  max_calls := budgets.max_calls.map (.ofNat 32)
  max_bytes := budgets.max_bytes.map (.ofNat 64)
  max_pages := budgets.max_pages.map (.ofNat 32)
  wall_clock_ms := budgets.wall_clock.map fun d => .ofNat 64 (d / 1000)
  calls_used := 0
  bytes_used := 0
  pages_used := 0
  deadline := budgets.wall_clock.map (now + ·)
  execution_start := utc_now

def deadline_passed (meter : BudgetMeter) (now : Instant) : Bool :=
  meter.deadline.any fun dl => now ≥ dl

def remaining_time (meter : BudgetMeter) (now : Instant) : Except BudgetTrip (Option Duration) :=
  match meter.deadline with
  | none => .ok none
  | some dl => if now ≥ dl then .error ⟨.WallClock⟩ else .ok (some (dl - now))

/-- A reservation that no other one meets. -/
def reserve_calls (meter : BudgetMeter) (now : Instant) (n : u32) :
    Except BudgetTrip Unit × BudgetMeter :=
  if meter.deadline_passed now then (.error ⟨.WallClock⟩, meter)
  else
    match meter.max_calls with
    | none => (.ok (), { meter with calls_used := meter.calls_used + n })
    | some max =>
      match checked_add meter.calls_used n with
      | none => (.error ⟨.Calls⟩, meter)
      | some next =>
        if max < next then (.error ⟨.Calls⟩, meter) else (.ok (), { meter with calls_used := next })

def batch_byte_cap (meter : BudgetMeter) (per_call_ceiling : u64) : u64 :=
  match meter.max_bytes with
  | none => per_call_ceiling
  | some max =>
    let left := saturating_sub max meter.bytes_used
    if left ≤ per_call_ceiling then left else per_call_ceiling

def batch_page_cap (meter : BudgetMeter) : u32 :=
  match meter.max_pages with
  | none => .allOnes 32
  | some max => saturating_sub max meter.pages_used

def commit_bytes_in_order (meter : BudgetMeter) (ordered : List (Nat × u64)) :
    Option Nat × BudgetMeter :=
  let (trip_at, used) := commit_in_order meter.max_bytes meter.bytes_used ordered
  (trip_at, { meter with bytes_used := used })

def commit_pages_in_order (meter : BudgetMeter) (ordered : List (Nat × u32)) :
    Option Nat × BudgetMeter :=
  let (trip_at, used) := commit_in_order meter.max_pages meter.pages_used ordered
  (trip_at, { meter with pages_used := used })

end BudgetMeter

end api2mcp.runtime.budget
