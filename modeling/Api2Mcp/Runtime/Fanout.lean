import Api2Mcp.Interact.Together
import Api2Mcp.Runtime.Dispatch
import Api2Mcp.Store.Run

namespace api2mcp.runtime.fanout

open btree concurrent interact
open api2mcp.model api2mcp.resolve api2mcp.store
open api2mcp.runtime.dispatch

/-- The permits of each service. -/
abbrev ConcurrencyLimits := BTreeMap Slug Nat

def ConcurrencyLimits.build (plan : EndpointPlan) (budget_max_concurrency : Option Nat) :
    ConcurrencyLimits :=
  plan.calls.values.foldl (fun by_service planned =>
    let ceiling := match budget_max_concurrency with
      | some b => min planned.service.max_concurrency b
      | none => planned.service.max_concurrency
    by_service.or_insert planned.service.slug (max ceiling 1)) []

/-- What a planned call allows its service: never none at all. -/
def ceiling (budget_max_concurrency : Option Nat) (planned : PlannedApiCall) : Nat :=
  max (match budget_max_concurrency with
    | some b => min planned.service.max_concurrency b
    | none => planned.service.max_concurrency) 1

/-- The first call of a service sets its permits. -/
theorem ConcurrencyLimits.get_build (plan : EndpointPlan) (budget_max_concurrency : Option Nat)
    (slug : Slug) : (build plan budget_max_concurrency).get slug =
      (plan.calls.values.find? fun planned => planned.service.slug = slug).map
        (ceiling budget_max_concurrency) := by
  exact BTreeMap.get_foldl_or_insert (fun planned : PlannedApiCall => planned.service.slug)
    (ceiling budget_max_concurrency) plan.calls.values [] slug

theorem ConcurrencyLimits.build_pos {plan : EndpointPlan} {budget_max_concurrency : Option Nat}
    {slug : Slug} {n : Nat} (h : (build plan budget_max_concurrency).get slug = some n) : 0 < n := by
  rw [get_build, Option.map_eq_some_iff] at h
  obtain ⟨planned, _, rfl⟩ := h
  exact Nat.lt_of_lt_of_le Nat.zero_lt_one (Nat.le_max_right _ _)

/-- A call of a batch, with the service whose permit it waits for. -/
abbrev BoxedCall := Slug × Dispatch (Except DispatchError DispatchOutcome)

abbrev Calls := Together Slug DispatchQuestion DispatchAnswer (Except DispatchError DispatchOutcome)

abbrev CallMove := Move DispatchQuestion DispatchAnswer (Except DispatchError DispatchOutcome)

/-- A fan-out that is over: the order in which its calls got their permits, were
answered and ended. -/
structure Joined (limits : ConcurrencyLimits) (items : List BoxedCall) where
  moves : List CallMove
  last : Calls
  path : Path (Together.Step limits.get) (Together.start items) moves last
  joined : last.Over

/-- What a run asks outside of its calls. -/
inductive RunQuestion where
  | now
  | utc_now
  | new_v4
  | provider (owner_id : Uuid) (service_slug : Slug)
  | fan_out (limits : ConcurrencyLimits) (items : List BoxedCall)
  | create_run (run : NewRun) (calls : List NewRunCall)
  | panic

abbrev RunAnswer : RunQuestion → Type
  | .now => http.Instant
  | .utc_now => DateTime
  | .new_v4 => String
  | .provider .. => Except StoreError (Option AuthProvider)
  | .fan_out limits items => Joined limits items
  | .create_run .. => Except StoreError Uuid
  | .panic => Empty

abbrev Run := Prog RunQuestion RunAnswer

abbrev RunEvent := Event RunQuestion RunAnswer

namespace Run

def now : Run http.Instant := Prog.query RunQuestion.now

def utc_now : Run DateTime := Prog.query RunQuestion.utc_now

def new_v4 : Run String := Prog.query RunQuestion.new_v4

def provider (owner_id : Uuid) (service_slug : Slug) : Run (Except StoreError (Option AuthProvider)) :=
  Prog.query (RunQuestion.provider owner_id service_slug)

def join (limits : ConcurrencyLimits) (items : List BoxedCall) : Run (Joined limits items) :=
  Prog.query (RunQuestion.fan_out limits items)

def create_run (run : NewRun) (calls : List NewRunCall) : Run (Except StoreError Uuid) :=
  Prog.query (RunQuestion.create_run run calls)

def panicked {α : Type} : Run α := .ask .panic fun a => nomatch a

variable {α : Type}

@[simp] theorem now_bind (f : http.Instant → Run α) : (now >>= f) = .ask .now f := rfl

@[simp] theorem utc_now_bind (f : DateTime → Run α) : (utc_now >>= f) = .ask .utc_now f := rfl

@[simp] theorem new_v4_bind (f : String → Run α) : (new_v4 >>= f) = .ask .new_v4 f := rfl

@[simp] theorem provider_bind (owner_id : Uuid) (service_slug : Slug)
    (f : Except StoreError (Option AuthProvider) → Run α) :
    (provider owner_id service_slug >>= f) = .ask (.provider owner_id service_slug) f := rfl

@[simp] theorem join_bind (limits : ConcurrencyLimits) (items : List BoxedCall)
    (f : Joined limits items → Run α) : (join limits items >>= f) = .ask (.fan_out limits items) f :=
  rfl

@[simp] theorem create_run_bind (run : NewRun) (calls : List NewRunCall)
    (f : Except StoreError Uuid → Run α) :
    (create_run run calls >>= f) = .ask (.create_run run calls) f := rfl

@[simp] theorem panicked_bind {β : Type} (f : α → Run β) : (panicked >>= f) = panicked := by
  show Prog.ask RunQuestion.panic _ = Prog.ask RunQuestion.panic _
  congr 1
  funext a
  cases a

end Run

/-- Calls that end may be joined. -/
theorem exists_joined {limits : ConcurrencyLimits} {items : List BoxedCall}
    {results : List (Except DispatchError DispatchOutcome)}
    (hlimits : ∀ key n, limits.get key = some n → 0 < n)
    (h : List.Forall₂ (fun item result => ∃ evs, item.2.Emits evs (.done result)) items results) :
    ∃ joined : Joined limits items, joined.last.results = some results := by
  obtain ⟨moves, last, path, hcomplete, hresults⟩ := Together.one_by_one hlimits h
  exact ⟨{ moves, last, path, joined := .inl hcomplete }, hresults⟩

/-- The results in the order of the items, whatever the order they came in. A
call that panics takes the run with it. -/
def fan_out (limits : ConcurrencyLimits) (items : List BoxedCall) :
    Run (List (Except DispatchError DispatchOutcome)) := do
  let joined ← Run.join limits items
  match joined.last.results with
  | some results => return results
  | none => Run.panicked

end api2mcp.runtime.fanout
