import Api2Mcp.Runtime.Fanout

namespace api2mcp.runtime.batch

open btree interact serde_json
open api2mcp.model api2mcp.resolve
open api2mcp.runtime.budget api2mcp.runtime.dispatch api2mcp.runtime.fanout

/-- One item's fate within a batch. -/
inductive ItemOutcome where
  | Ok (outcome : DispatchOutcome)
  | Failed (e : DispatchError)
  | NotAttempted (axis : BudgetAxis)
  | BudgetCut (axis : BudgetAxis) (outcome : DispatchOutcome)

namespace ItemOutcome

def is_ok : ItemOutcome → Bool
  | Ok _ => true
  | _ => false

def budget_axis : ItemOutcome → Option BudgetAxis
  | NotAttempted axis => some axis
  | BudgetCut axis _ => some axis
  | Failed e => e.budget_trip
  | Ok _ => none

def dispatch_outcome : ItemOutcome → Option DispatchOutcome
  | Ok o => some o
  | BudgetCut _ o => some o
  | _ => none

end ItemOutcome

structure BatchEntry where
  index : Nat
  name : String
  outcome : ItemOutcome

inductive BatchStatus where
  | Ok
  | Partial
  | AllFailedOnBudget (axis : BudgetAxis)
  | AllFailed
  deriving DecidableEq, Repr

structure BatchOutcome where
  entries : List BatchEntry
  status : BatchStatus

/-- `NO_WALL_CLOCK_BUDGET_FALLBACK`, an hour. -/
def NO_WALL_CLOCK_BUDGET_FALLBACK : Duration := 3600 * 1000000

/-- The whole batch, refused on one axis. -/
def not_attempted (items : List (String × Value)) (axis : BudgetAxis) : BatchOutcome where
  entries := items.zipIdx.map fun ((name, _), index) =>
    { index, name, outcome := .NotAttempted axis }
  status := .AllFailedOnBudget axis

def derive_status (entries : List BatchEntry) : BatchStatus :=
  let succeeded := entries.countP (·.outcome.is_ok)
  if succeeded = entries.length then .Ok
  else if succeeded > 0 then .Partial
  else
    let axes := entries.map (·.outcome.budget_axis)
    match axes.head?.join with
    | some first => if axes.all (· = some first) then .AllFailedOnBudget first else .AllFailed
    | none => .AllFailed

/-- What the successful items weigh, each with its index. -/
def totals {α : Type} (amount : DispatchOutcome → α)
    (results : List (Except DispatchError DispatchOutcome)) : List (Nat × α) :=
  results.zipIdx.filterMap fun (r, i) => r.toOption.map fun o => (i, amount o)

/-- The lower of two indices, with its axis. -/
def cut_of : Option Nat → Option Nat → Option (Nat × BudgetAxis)
  | some b, some p => if p < b then some (p, .Pages) else some (b, .Bytes)
  | some b, none => some (b, .Bytes)
  | none, some p => some (p, .Pages)
  | none, none => none

def item_outcome (cut : Option (Nat × BudgetAxis)) (index : Nat) :
    Except DispatchError DispatchOutcome → ItemOutcome
  | .ok outcome =>
    match cut with
    | some (cut_index, axis) => if cut_index ≤ index then .BudgetCut axis outcome else .Ok outcome
    | none => .Ok outcome
  | .error e => .Failed e

/-- An index is below a cut that may not be there. -/
def below (cut : Option Nat) (index : Nat) : Bool := cut.all (index < ·)

/-- A success stays one exactly below the cut. -/
theorem item_outcome_ok (cut : Option (Nat × BudgetAxis)) (index : Nat) (o : DispatchOutcome) :
    item_outcome cut index (.ok o) = .Ok o ∧ below (cut.map (·.1)) index = true ∨
      (∃ axis, item_outcome cut index (.ok o) = .BudgetCut axis o) ∧
        below (cut.map (·.1)) index = false := by
  cases cut with
  | none => exact .inl ⟨rfl, rfl⟩
  | some cut =>
    obtain ⟨cut_index, axis⟩ := cut
    by_cases hle : cut_index ≤ index
    · refine .inr ⟨⟨axis, ?_⟩, by simp [below, hle]⟩
      simp only [item_outcome, if_pos hle]
    · refine .inl ⟨?_, by simpa [below] using hle⟩
      simp only [item_outcome, if_neg hle]

def entries_of (names : List String) (cut : Option (Nat × BudgetAxis))
    (results : List (Except DispatchError DispatchOutcome)) : List BatchEntry :=
  (names.zip results).zipIdx.map fun ((name, result), index) =>
    { index, name, outcome := item_outcome cut index result }

/-- The results are charged in the order of the items, one axis after the
other; both may cut the batch. -/
def settle (meter : BudgetMeter) (names : List String)
    (results : List (Except DispatchError DispatchOutcome)) : BatchOutcome × BudgetMeter :=
  let (byte_trip_at, meter) := meter.commit_bytes_in_order (totals (·.bytes_in) results)
  let (page_trip_at, meter) := meter.commit_pages_in_order (totals (·.pages_fetched) results)
  let entries := entries_of names (cut_of byte_trip_at page_trip_at) results
  ({ entries, status := derive_status entries }, meter)

section

variable (crates : Crates)

/-- The calls of a batch, each under the service of what its name resolves to. -/
def fan_items (plan : EndpointPlan) (ctx : DispatchContext) (caller_script : Option Slug)
    (call_budget : CallBudget) (items : List (String × Value)) : List BoxedCall :=
  items.map fun (name, args) =>
    let service_slug := match resolve plan caller_script name with
      | .ok planned => planned.service.slug
      | .error _ => plan.slug
    (service_slug, dispatch crates plan ctx caller_script name args call_budget)

/-- What each call of a batch may use, from what is left for the run. -/
def call_budget (meter : BudgetMeter) (remaining : Option Duration) : CallBudget where
  max_response_bytes := meter.batch_byte_cap (.allOnes 64)
  max_pages := if meter.batch_page_cap = 0 then 1 else meter.batch_page_cap
  deadline := remaining.getD NO_WALL_CLOCK_BUDGET_FALLBACK

/-- One reservation, one reading of the clock and one set of caps for the whole
batch. -/
def run_batch (plan : EndpointPlan) (ctx : DispatchContext) (limits : ConcurrencyLimits)
    (meter : BudgetMeter) (caller_script : Option Slug) (items : List (String × Value)) :
    Run (BatchOutcome × BudgetMeter) :=
  if items.length = 0 then return ({ entries := [], status := .Ok }, meter)
  else do
    let now ← Run.now
    match meter.reserve_calls now (.ofNat 32 items.length) with
    | (.error trip, meter) => return (not_attempted items trip.axis, meter)
    | (.ok (), meter) =>
      let now ← Run.now
      match meter.remaining_time now with
      | .error trip => return (not_attempted items trip.axis, meter)
      | .ok remaining =>
        let calls := fan_items crates plan ctx caller_script (call_budget meter remaining) items
        let results ← fan_out limits calls
        return settle meter (items.map (·.1)) results

/-- A batch that sends nothing: it is empty, or refused on one axis. -/
def Declined (meter : BudgetMeter) (items : List (String × Value))
    (result : BatchOutcome × BudgetMeter) : Prop :=
  (items = [] ∧ result.1 = { entries := [], status := .Ok } ∨
    ∃ axis, result.1 = not_attempted items axis) ∧
  ∃ calls_used, result.2 = { meter with calls_used }

variable {crates} {plan : EndpointPlan} {ctx : DispatchContext} {limits : ConcurrencyLimits}
  {meter : BudgetMeter} {caller_script : Option Slug} {items : List (String × Value)}

theorem reserve_calls_cases {now : http.Instant} {n : u32} {meter' : BudgetMeter}
    {result : Except BudgetTrip Unit} (h : meter.reserve_calls now n = (result, meter')) :
    ∃ calls_used, meter' = { meter with calls_used } := by
  unfold BudgetMeter.reserve_calls at h
  split at h
  · exact ⟨meter.calls_used, (Prod.mk.inj h).2.symm⟩
  split at h
  · exact ⟨_, (Prod.mk.inj h).2.symm⟩
  split at h
  · exact ⟨meter.calls_used, (Prod.mk.inj h).2.symm⟩
  split at h
  · exact ⟨meter.calls_used, (Prod.mk.inj h).2.symm⟩
  · exact ⟨_, (Prod.mk.inj h).2.symm⟩

/-- The meter of a batch that was admitted. -/
def admitted (meter : BudgetMeter) (items : List (String × Value)) : BudgetMeter :=
  { meter with calls_used := meter.calls_used + .ofNat 32 items.length }

theorem reserve_calls_ok {now : http.Instant} {n : u32} {meter' : BudgetMeter}
    (h : meter.reserve_calls now n = (.ok (), meter')) :
    meter' = { meter with calls_used := meter.calls_used + n } := by
  unfold BudgetMeter.reserve_calls at h
  split at h
  · cases h
  split at h
  · exact (Prod.mk.inj h).2.symm
  split at h
  · cases h
  rename_i next hnext
  split at h
  · cases h
  · rw [← (Prod.mk.inj h).2]
    unfold numeric.checked_add at hnext
    split at hnext
    · rw [Option.some.inj hnext]
    · cases hnext

/-- What is left of a batch whose calls have been joined. -/
def after_join (meter : BudgetMeter) (items : List (String × Value)) {limits : ConcurrencyLimits}
    {calls : List BoxedCall} (joined : Joined limits calls) : Run (BatchOutcome × BudgetMeter) :=
  match joined.last.results with
  | some results => .done (settle meter (items.map (·.1)) results)
  | none => Run.panicked

/-- A batch that is admitted joins its calls. -/
theorem run_batch_emits {reserved measured : http.Instant} {meter' : BudgetMeter}
    {remaining : Option Duration} (hitems : items.length ≠ 0)
    (hreserve : meter.reserve_calls reserved (.ofNat 32 items.length) = (.ok (), meter'))
    (hremaining : meter'.remaining_time measured = .ok remaining)
    (joined : Joined limits (fan_items crates plan ctx caller_script (call_budget meter' remaining) items)) :
    (run_batch crates plan ctx limits meter caller_script items).Emits
      [⟨.now, reserved⟩, ⟨.now, measured⟩, ⟨.fan_out _ _, joined⟩] (after_join meter' items joined) := by
  unfold run_batch
  rw [if_neg hitems, Run.now_bind]
  refine .cons ?_
  simp only [hreserve, Run.now_bind]
  refine .cons ?_
  simp only [hremaining, fan_out, Run.join_bind, Prog.ask_bind]
  refine .cons ?_
  unfold after_join
  cases joined.last.results with
  | some results => exact .nil _
  | none =>
    rw [Run.panicked_bind]
    exact .nil _

/-- A batch of one call that comes to an end. -/
theorem run_batch_alone {name : String} {args : Value} {reserved measured : http.Instant}
    {meter' : BudgetMeter} {remaining : Option Duration} {evs : List DispatchEvent}
    {result : Except DispatchError DispatchOutcome}
    (hlimits : ∀ key n, limits.get key = some n → 0 < n)
    (hreserve : meter.reserve_calls reserved 1#32 = (.ok (), meter'))
    (hremaining : meter'.remaining_time measured = .ok remaining)
    (hdispatch : (dispatch crates plan ctx caller_script name args (call_budget meter' remaining)).Emits
      evs (.done result)) :
    ∃ joined : Joined limits
        (fan_items crates plan ctx caller_script (call_budget meter' remaining) [(name, args)]),
      own 0 joined.moves = evs ∧ joined.last.results = some [result] ∧
      (run_batch crates plan ctx limits meter caller_script [(name, args)]).Emits
        [⟨.now, reserved⟩, ⟨.now, measured⟩, ⟨.fan_out _ _, joined⟩]
        (.done (settle meter' [name] [result])) := by
  obtain ⟨moves, last, path, hcomplete, hresults, hown⟩ := Together.alone hlimits hdispatch
  let joined : Joined limits
      (fan_items crates plan ctx caller_script (call_budget meter' remaining) [(name, args)]) :=
    { moves, last, path, joined := .inl hcomplete }
  refine ⟨joined, hown, hresults, ?_⟩
  have hitems : [(name, args)].length ≠ 0 := Nat.succ_ne_zero 0
  have hemits := run_batch_emits hitems hreserve hremaining joined
  rw [after_join, hresults] at hemits
  exact hemits

/-- A run of a batch only reads the clock, or joins its calls after two
readings, under what the second one left. -/
theorem run_batch_cases {evs : List RunEvent} {rest : Run (BatchOutcome × BudgetMeter)}
    (h : (run_batch crates plan ctx limits meter caller_script items).Emits evs rest) :
    ((∀ e ∈ evs, e.question = .now) ∧ ∀ result, rest = .done result → Declined meter items result) ∨
    ∃ (reserved measured : http.Instant) (remaining : Option Duration)
      (joined : Joined limits (fan_items crates plan ctx caller_script
        (call_budget (admitted meter items) remaining) items)),
      evs = [⟨.now, reserved⟩, ⟨.now, measured⟩, ⟨.fan_out _ _, joined⟩] ∧
      meter.remaining_time measured = .ok remaining ∧
      rest = after_join (admitted meter items) items joined := by
  have hdone : ∀ {a : BatchOutcome × BudgetMeter} {evs : List RunEvent},
      (Prog.done a : Run _).Emits evs rest → Declined meter items a →
      (∀ e ∈ evs, e.question = .now) ∧ ∀ result, rest = .done result → Declined meter items result := by
    intro a evs hemits hdeclined
    obtain ⟨rfl, rfl⟩ := hemits.of_done
    refine ⟨by simp, fun result hresult => ?_⟩
    rw [Prog.done.injEq] at hresult
    rwa [← hresult]
  have hnow : ∀ {t : http.Instant} {evs : List RunEvent},
      (∀ e ∈ evs, e.question = .now) → ∀ e ∈ ⟨.now, t⟩ :: evs, e.question = .now := by
    intro t evs hall e he
    obtain rfl | he := List.mem_cons.mp he
    · rfl
    · exact hall e he
  unfold run_batch at h
  split at h
  · rename_i hempty
    refine .inl (hdone h ⟨.inl ⟨List.length_eq_zero_iff.mp hempty, rfl⟩, meter.calls_used, rfl⟩)
  rw [Run.now_bind] at h
  obtain ⟨rfl, rfl⟩ | ⟨reserved, evs, rfl, hreserved⟩ := h.of_ask
  · exact .inl ⟨by simp, fun result hresult => nomatch hresult⟩
  dsimp only at hreserved
  split at hreserved
  · rename_i trip meter' hreserve
    obtain ⟨calls_used, rfl⟩ := reserve_calls_cases hreserve
    obtain ⟨hquestions, hresult⟩ := hdone hreserved ⟨.inr ⟨_, rfl⟩, calls_used, rfl⟩
    exact .inl ⟨hnow hquestions, hresult⟩
  rename_i meter' hreserve
  obtain rfl := reserve_calls_ok hreserve
  rw [Run.now_bind] at hreserved
  obtain ⟨rfl, rfl⟩ | ⟨measured, evs, rfl, hmeasured⟩ := hreserved.of_ask
  · exact .inl ⟨hnow (by simp), fun result hresult => nomatch hresult⟩
  split at hmeasured
  · obtain ⟨hquestions, hresult⟩ := hdone hmeasured ⟨.inr ⟨_, rfl⟩, _, rfl⟩
    exact .inl ⟨hnow (hnow hquestions), hresult⟩
  rename_i remaining hremaining
  simp only [fan_out, Run.join_bind, Prog.ask_bind] at hmeasured
  obtain ⟨rfl, rfl⟩ | ⟨joined, evs, rfl, hjoined⟩ := hmeasured.of_ask
  · exact .inl ⟨hnow (hnow (by simp)), fun result hresult => nomatch hresult⟩
  refine .inr ⟨reserved, measured, remaining, joined, ?_⟩
  unfold after_join
  split at hjoined
  · rename_i results hresults
    obtain ⟨rfl, rfl⟩ := hjoined.of_done
    exact ⟨rfl, hremaining, by rw [hresults]; rfl⟩
  · rename_i hresults
    rw [Run.panicked_bind] at hjoined
    obtain ⟨rfl, rfl⟩ | ⟨a, _⟩ := hjoined.of_ask
    · exact ⟨rfl, hremaining, by rw [hresults]; rfl⟩
    · cases a

end

/-- A run that may fetch one page. -/
def sample_meter : BudgetMeter := BudgetMeter.new { max_pages := some 1 } 0 0

def sample_items : List (String × Value) := [("ping", .object []), ("ping", .object [])]

/-- A batch of two calls that both succeed. -/
theorem sample_batch (meter : BudgetMeter) (hmeter : meter.deadline = none)
    (hcalls : meter.max_calls = none) (hbytes : 4 ≤ (meter.batch_byte_cap (.allOnes 64)).toNat) :
    ∃ joined : Joined (ConcurrencyLimits.build sample_plan none) (fan_items sample_crates sample_plan
        sample_context none (call_budget (admitted meter sample_items) none) sample_items),
      joined.last.results = some [.ok sample_outcome, .ok sample_outcome] ∧
      (run_batch sample_crates sample_plan sample_context (ConcurrencyLimits.build sample_plan none)
        meter none sample_items).Emits
          [⟨.now, (0 : Nat)⟩, ⟨.now, (0 : Nat)⟩, ⟨.fan_out _ _, joined⟩]
          (.done (settle (admitted meter sample_items) ["ping", "ping"]
            [.ok sample_outcome, .ok sample_outcome])) := by
  have hpages : 0 < (call_budget (admitted meter sample_items) none).max_pages.toNat := by
    unfold call_budget
    dsimp only
    split
    · decide
    · rename_i hcap
      exact Nat.pos_of_ne_zero fun hzero => hcap (BitVec.eq_of_toNat_eq hzero)
  have hping := sample_dispatched (call_budget (admitted meter sample_items) none) hbytes hpages
  obtain ⟨joined, hjoined⟩ : ∃ joined : Joined (ConcurrencyLimits.build sample_plan none)
      (fan_items sample_crates sample_plan sample_context none
        (call_budget (admitted meter sample_items) none) sample_items),
      joined.last.results = some [.ok sample_outcome, .ok sample_outcome] :=
    exists_joined (fun key n hn => ConcurrencyLimits.build_pos hn) (.cons hping (.cons hping .nil))
  have hreserve : meter.reserve_calls 0 (.ofNat 32 sample_items.length) =
      (.ok (), admitted meter sample_items) := by
    simp only [BudgetMeter.reserve_calls, BudgetMeter.deadline_passed, hmeter, hcalls,
      Option.any_none, Bool.false_eq_true, if_false, admitted]
  have hremaining : (admitted meter sample_items).remaining_time 0 = .ok none := by
    simp only [BudgetMeter.remaining_time, admitted, hmeter]
  have hemits := run_batch_emits (by decide) hreserve hremaining joined
  rw [after_join, hjoined] at hemits
  exact ⟨joined, hjoined, hemits⟩

end api2mcp.runtime.batch
