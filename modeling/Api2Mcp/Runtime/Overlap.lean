import Api2Mcp.Collections.Pointwise
import Api2Mcp.Runtime.Scope
import Mathlib.Algebra.Order.BigOperators.Group.List
import Mathlib.Algebra.Order.Group.Nat

namespace api2mcp.runtime

open btree concurrent interact serde_json
open api2mcp.http api2mcp.model api2mcp.resolve
open api2mcp.runtime.budget api2mcp.runtime.dispatch api2mcp.runtime.fanout api2mcp.runtime.batch

/-- A call of a tool. -/
structure Invocation where
  executor : Executor
  plan : EndpointPlan
  tool_name : String
  args : Value
  caller_kind : store.RunCallerKind
  caller_id : String

/-- A fan-out that is not over: what its calls have done so far. -/
structure Joining (limits : ConcurrencyLimits) (items : List BoxedCall) where
  moves : List CallMove
  calls : Calls
  path : Path (Together.Step limits.get) (Together.start items) moves calls

/-- How far a run has come: it is between two of its batches, or joins one. -/
inductive Stage where
  | alone (p : Run (Except ExecutorError RunResult))
  | joining (limits : ConcurrencyLimits) (items : List BoxedCall) (joining : Joining limits items)
      (next : Joined limits items → Run (Except ExecutorError RunResult))

/-- A call of a tool, and how far its run has come. -/
structure Active where
  call : Invocation
  stage : Stage

/-- What happens next: a tool is called, a run goes on, or it is dropped. -/
inductive Change where
  | start (call : Invocation)
  | go (i : Nat)
  | drop (i : Nat)

def Joining.start (limits : ConcurrencyLimits) (items : List BoxedCall) : Joining limits items where
  moves := []
  calls := Together.start items
  path := .nil _

def Joining.move {limits : ConcurrencyLimits} {items : List BoxedCall} (joining : Joining limits items)
    {move : CallMove} {calls : Calls} (hstep : Together.Step limits.get joining.calls move calls) :
    Joining limits items where
  moves := joining.moves ++ [move]
  calls
  path := joining.path.append (.cons hstep (.nil _))

def Joining.joined {limits : ConcurrencyLimits} {items : List BoxedCall} (joining : Joining limits items)
    (hover : joining.calls.Over) : Joined limits items where
  moves := joining.moves
  last := joining.calls
  path := joining.path
  joined := hover

/-- What is left of a run. -/
def Stage.program : Stage → Run (Except ExecutorError RunResult)
  | alone p => p
  | joining limits items _ next => .ask (.fan_out limits items) next

inductive Stage.Step : Stage → Stage → Prop
  | answer {q : RunQuestion} {next : RunAnswer q → Run (Except ExecutorError RunResult)} (a : RunAnswer q)
      (hq : Joinless q) : Step (.alone (.ask q next)) (.alone (next a))
  | join {limits : ConcurrencyLimits} {items : List BoxedCall}
      {next : Joined limits items → Run (Except ExecutorError RunResult)} :
      Step (.alone (.ask (.fan_out limits items) next)) (.joining limits items (.start limits items) next)
  | move {limits : ConcurrencyLimits} {items : List BoxedCall} {now : Joining limits items}
      {next : Joined limits items → Run (Except ExecutorError RunResult)} {move : CallMove} {calls : Calls}
      (hstep : Together.Step limits.get now.calls move calls) :
      Step (.joining limits items now next) (.joining limits items (now.move hstep) next)
  | resume {limits : ConcurrencyLimits} {items : List BoxedCall} {now : Joining limits items}
      {next : Joined limits items → Run (Except ExecutorError RunResult)} (hover : now.calls.Over) :
      Step (.joining limits items now next) (.alone (next (now.joined hover)))

section

variable (crates : Crates) (engine : script.Engine)

def Invocation.run (call : Invocation) : Run (Except ExecutorError RunResult) :=
  call.executor.run_tool crates engine call.plan call.tool_name call.args call.caller_kind call.caller_id

/-- Each run makes its own permits; nothing is shared between them. -/
inductive Active.Step : List Active → Change → List Active → Prop
  | start {s : List Active} (call : Invocation) :
      Step s (.start call) (s ++ [⟨call, .alone (call.run crates engine)⟩])
  | go {s : List Active} {i : Nat} {r : Active} {stage : Stage} (hrun : s[i]? = some r)
      (hstep : r.stage.Step stage) : Step s (.go i) (s.set i ⟨r.call, stage⟩)
  | drop {s : List Active} (i : Nat) : Step s (.drop i) (s.eraseIdx i)

end

/-- A request of the call is with its upstream. -/
def sending : Lane DispatchQuestion DispatchAnswer (Except DispatchError DispatchOutcome) → Bool
  | .running (.ask (.io (.exchange _ _)) _) => true
  | _ => false

def Stage.requests (service_slug : Slug) : Stage → Nat
  | alone _ => 0
  | joining _ _ now _ => now.calls.lanes.countP fun lane => decide (lane.1 = service_slug) && sending lane.2

/-- The requests in flight to a service of an owner. -/
def requests (owner_id : Uuid) (service_slug : Slug) (s : List Active) : Nat :=
  (s.map fun r => if r.call.plan.owner_id = owner_id then r.stage.requests service_slug else 0).sum

/-- What a fan-out may still have in flight to a service at one time: its calls
that have not ended, as far as the permits of the run go. -/
def demand (service_slug : Slug) (limits : ConcurrencyLimits) (calls : Calls) : Nat :=
  match limits.get service_slug with
  | some permits => min permits (calls.unfinished service_slug)
  | none => 0

def Stage.demand (service_slug : Slug) : Stage → Nat
  | alone _ => 0
  | joining limits _ now _ => runtime.demand service_slug limits now.calls

def demands (owner_id : Uuid) (service_slug : Slug) (s : List Active) : Nat :=
  (s.map fun r => if r.call.plan.owner_id = owner_id then r.stage.demand service_slug else 0).sum

/-- The plan has the service with no more than this `max_concurrency`. -/
def Allows (owner_id : Uuid) (service_slug : Slug) (max_concurrency : Nat) (plan : EndpointPlan) : Prop :=
  plan.owner_id = owner_id → ∀ planned ∈ plan.calls.values, planned.service.slug = service_slug →
    planned.service.max_concurrency ≤ max_concurrency

/-- A run joins a batch while no other run has calls of the service to make, or
what all of them may have in flight together is not too much. -/
def Fits (owner_id : Uuid) (service_slug : Slug) (max_concurrency : Nat) (s : List Active) : Change → Prop
  | .start call => Allows owner_id service_slug max_concurrency call.plan
  | .go i => ∀ call limits items next, s[i]? = some ⟨call, .alone (.ask (.fan_out limits items) next)⟩ →
      call.plan.owner_id = owner_id → demands owner_id service_slug s = 0 ∨
        demands owner_id service_slug s + demand service_slug limits (Together.start items) ≤
          max max_concurrency 1
  | .drop _ => True

theorem demand_move (service_slug : Slug) {limits : ConcurrencyLimits} {calls calls' : Calls}
    {move : CallMove} (hstep : Together.Step limits.get calls move calls') :
    demand service_slug limits calls' ≤ demand service_slug limits calls := by
  unfold demand
  split
  · have hunfinished := Together.unfinished_step hstep service_slug
    omega
  · exact Nat.zero_le _

theorem demand_le_length (service_slug : Slug) (limits : ConcurrencyLimits) (calls : Calls) :
    demand service_slug limits calls ≤ calls.lanes.length := by
  unfold demand
  split
  · exact (Nat.min_le_right _ _).trans List.countP_le_length
  · exact Nat.zero_le _

section

variable {crates : Crates} {engine : script.Engine} {owner_id : Uuid} {service_slug : Slug}
  {max_concurrency : Nat}

/-- The run has come as far as its stage says. -/
def Active.Reached (crates : Crates) (engine : script.Engine) (r : Active) : Prop :=
  ∃ evs, (r.call.run crates engine).Emits evs r.stage.program

theorem Stage.Step.reached {call : Invocation} {stage stage' : Stage} (hstep : stage.Step stage')
    (h : (⟨call, stage⟩ : Active).Reached crates engine) :
    (⟨call, stage'⟩ : Active).Reached crates engine := by
  obtain ⟨evs, hemits⟩ := h
  cases hstep with
  | answer a _ => exact ⟨_, hemits.append (.cons (.nil _))⟩
  | join => exact ⟨evs, hemits⟩
  | move _ => exact ⟨evs, hemits⟩
  | resume _ => exact ⟨_, hemits.append (.cons (.nil _))⟩

/-- What a run joins are calls of its plan, under the permits of its plan. -/
theorem Active.Reached.batched {call : Invocation} {stage : Stage} {limits : ConcurrencyLimits}
    {items : List BoxedCall} {next : Joined limits items → Run (Except ExecutorError RunResult)}
    (h : (⟨call, stage⟩ : Active).Reached crates engine)
    (hprogram : stage.program = .ask (.fan_out limits items) next) :
    ∃ tool ctx caller_script budget batch_items, call.plan.tool call.tool_name = some tool ∧
      limits = ConcurrencyLimits.build call.plan tool.budgets.max_concurrency ∧
      items = fan_items crates call.plan ctx caller_script budget batch_items ∧
      ItemsOf call.plan tool call.tool_name call.args caller_script batch_items := by
  obtain ⟨evs, hemits⟩ := h
  rw [hprogram] at hemits
  cases htool : call.plan.tool call.tool_name with
  | none =>
    unfold Invocation.run Executor.run_tool at hemits
    rw [Run.now_bind, htool] at hemits
    obtain ⟨_, hask⟩ | ⟨_, _, _, hdone⟩ := hemits.of_ask
    · cases hask
    · obtain ⟨_, hask⟩ := hdone.of_done
      cases hask
  | some tool =>
    have hsafe : Prog.Safe Clock.note (Batched crates call.executor call.plan tool call.tool_name call.args)
      (fun _ _ => True) (⟨0, 0⟩ : Clock) (call.run crates engine) := run_tool_metered htool
    cases hsafe.emits hemits with
    | ask hbatched _ =>
      obtain ⟨auth, meter, remaining, caller_script, batch_items, hlimits, hitems, -, -, hof⟩ := hbatched
      exact ⟨tool, _, caller_script, _, batch_items, rfl, hlimits, hitems, hof⟩

/-- A call that sends a request waited for the permit of the service it sends
it to. -/
theorem service_of_sending {plan : EndpointPlan} {ctx : DispatchContext} {caller_script : Option Slug}
    {budget : CallBudget} {batch_items : List (String × Value)} {moves : List CallMove} {calls : Calls}
    (htracks : Together.Tracks (fan_items crates plan ctx caller_script budget batch_items) moves calls)
    {i : Nat} {lane : Lane DispatchQuestion DispatchAnswer (Except DispatchError DispatchOutcome)}
    (hlane : calls.lanes[i]? = some (service_slug, lane)) (hsending : sending lane = true) :
    ∃ name args planned, batch_items[i]? = some (name, args) ∧
      resolve plan caller_script name = .ok planned ∧ planned.service.slug = service_slug := by
  obtain ⟨p, slot, hitem, -, hfollows⟩ := htracks.item hlane
  unfold fan_items at hitem
  rw [List.getElem?_map, Option.map_eq_some_iff] at hitem
  obtain ⟨⟨name, args⟩, hbatch, hcall⟩ := hitem
  obtain ⟨hslug, rfl⟩ := Prod.mk.inj hcall
  cases hresolve : resolve plan caller_script name with
  | ok planned =>
    rw [hresolve] at hslug
    exact ⟨name, args, planned, hbatch, hresolve, hslug⟩
  | error e =>
    cases lane with
    | queued p => cases hsending
    | finished => cases hsending
    | running p =>
      have hemits := hfollows.1
      unfold dispatch at hemits
      rw [hresolve] at hemits
      obtain ⟨-, rfl⟩ := hemits.of_done
      cases hsending

/-- The requests of a run in flight are within what it may have in flight. -/
theorem Active.Reached.requests_le {r : Active} (h : r.Reached crates engine) :
    r.stage.requests service_slug ≤ r.stage.demand service_slug := by
  obtain ⟨call, stage⟩ := r
  cases stage with
  | alone p => exact Nat.le_refl _
  | joining limits items now next =>
    obtain ⟨tool, ctx, caller_script, budget, batch_items, -, rfl, rfl, -⟩ := h.batched rfl
    have hin_flight : (Stage.joining _ _ now next).requests service_slug ≤ now.calls.in_flight service_slug := by
      refine List.countP_mono_left fun lane _ hlane => ?_
      obtain ⟨key, _ | p | _⟩ := lane <;> simp_all [sending, Lane.is_running]
    have hunfinished : (Stage.joining _ _ now next).requests service_slug ≤
        now.calls.unfinished service_slug := by
      refine List.countP_mono_left fun lane _ hlane => ?_
      obtain ⟨key, _ | p | _⟩ := lane <;> simp_all [sending, Lane.is_finished]
    show _ ≤ runtime.demand _ _ _
    unfold demand
    split
    · rename_i permits hpermits
      exact Nat.le_min.mpr ⟨hin_flight.trans (Together.within_limits now.path _ _ hpermits), hunfinished⟩
    · rename_i hnone
      refine Nat.le_zero.mpr (List.countP_eq_zero.mpr fun lane hlane hsending => ?_)
      rw [Bool.and_eq_true, decide_eq_true_eq] at hsending
      obtain ⟨i, hi, hget⟩ := List.getElem_of_mem hlane
      have hlane' : now.calls.lanes[i]? = some (service_slug, lane.2) := by
        rw [List.getElem?_eq_getElem hi, hget, ← hsending.1]
      obtain ⟨name, args, planned, -, hresolve, hslug⟩ :=
        service_of_sending (Together.tracks now.path) hlane' hsending.2
      rw [ConcurrencyLimits.get_build, Option.map_eq_none_iff, List.find?_eq_none] at hnone
      exact hnone planned (planned_of_resolve hresolve) (decide_eq_true hslug)

/-- On its own a run keeps to what its plan has as the service's limit. -/
theorem demand_le {plan : EndpointPlan} (budget_max_concurrency : Option Nat)
    (hallows : Allows plan.owner_id service_slug max_concurrency plan) (calls : Calls) :
    demand service_slug (ConcurrencyLimits.build plan budget_max_concurrency) calls ≤
      max max_concurrency 1 := by
  unfold demand
  split
  · rename_i permits hpermits
    rw [ConcurrencyLimits.get_build, Option.map_eq_some_iff] at hpermits
    obtain ⟨planned, hfind, rfl⟩ := hpermits
    have hslug := List.find?_some hfind
    have hlimit := hallows rfl planned (List.mem_of_find?_eq_some hfind) (of_decide_eq_true hslug)
    have hceiling : ceiling budget_max_concurrency planned ≤ max max_concurrency 1 := by
      unfold ceiling
      split <;> omega
    exact (Nat.min_le_left _ _).trans hceiling
  · exact Nat.zero_le _

/-- What holds of the runs in progress: each has come as far as its stage says,
its plan allows the service no more, and together they ask for no more. -/
structure Overlapping (crates : Crates) (engine : script.Engine) (owner_id : Uuid) (service_slug : Slug)
    (max_concurrency : Nat) (s : List Active) : Prop where
  reached : ∀ r ∈ s, r.Reached crates engine
  allows : ∀ r ∈ s, Allows owner_id service_slug max_concurrency r.call.plan
  demands : demands owner_id service_slug s ≤ max max_concurrency 1

theorem demands_set (service_slug : Slug) {s : List Active} {i : Nat} {call : Invocation} {stage : Stage}
    (hrun : s[i]? = some ⟨call, stage⟩) (howner : call.plan.owner_id = owner_id) (stage' : Stage) :
    demands owner_id service_slug (s.set i ⟨call, stage'⟩) + stage.demand service_slug =
      demands owner_id service_slug s + stage'.demand service_slug := by
  have hset := pointwise.sum_set (fun r : Active => if r.call.plan.owner_id = owner_id then
    r.stage.demand service_slug else 0) ⟨call, stage'⟩ hrun
  simp only [howner, if_true] at hset
  exact hset

theorem demands_go {s : List Active} {i : Nat} {call : Invocation} {stage stage' : Stage}
    (h : Overlapping crates engine owner_id service_slug max_concurrency s)
    (hrun : s[i]? = some ⟨call, stage⟩) (hstep : stage.Step stage')
    (hfits : Fits owner_id service_slug max_concurrency s (.go i)) :
    demands owner_id service_slug (s.set i ⟨call, stage'⟩) ≤ max max_concurrency 1 := by
  have hdemands := h.demands
  by_cases howner : call.plan.owner_id = owner_id
  · have hset := demands_set service_slug hrun howner stage'
    cases hstep with
    | answer a hq =>
      simp only [Stage.demand] at hset
      omega
    | @join limits items next =>
      have hmem := List.mem_of_getElem? hrun
      simp only [Stage.demand] at hset
      obtain hnone | hfit := hfits call limits items next hrun howner
      · obtain ⟨tool, ctx, caller_script, budget, batch_items, -, rfl, -⟩ := (h.reached _ hmem).batched rfl
        have hallows := h.allows _ hmem
        rw [← howner] at hallows
        have hown := demand_le tool.budgets.max_concurrency hallows
          (Joining.start (ConcurrencyLimits.build call.plan tool.budgets.max_concurrency) items).calls
        omega
      · have hstart : (Joining.start limits items).calls = Together.start items := rfl
        rw [hstart] at hset
        omega
    | @move limits items now next move calls hmove =>
      have hless := demand_move service_slug hmove
      have hmoved : (now.move hmove).calls = calls := rfl
      simp only [Stage.demand, hmoved] at hset
      omega
    | resume _ =>
      simp only [Stage.demand] at hset
      omega
  · have hset := pointwise.sum_set (fun r : Active => if r.call.plan.owner_id = owner_id then
      r.stage.demand service_slug else 0) ⟨call, stage'⟩ hrun
    simp only [howner, if_false] at hset
    unfold demands at hdemands ⊢
    omega

theorem overlapping_step {s s' : List Active} {change : Change}
    (h : Overlapping crates engine owner_id service_slug max_concurrency s)
    (hstep : Active.Step crates engine s change s')
    (hfits : Fits owner_id service_slug max_concurrency s change) :
    Overlapping crates engine owner_id service_slug max_concurrency s' := by
  cases hstep with
  | start call =>
    refine ⟨fun r hr => ?_, fun r hr => ?_, ?_⟩
    · obtain hr | hr := List.mem_append.mp hr
      · exact h.reached r hr
      · rw [List.mem_singleton.mp hr]
        exact ⟨[], .nil _⟩
    · obtain hr | hr := List.mem_append.mp hr
      · exact h.allows r hr
      · rw [List.mem_singleton.mp hr]
        exact hfits
    · have hdemands := h.demands
      unfold demands at hdemands ⊢
      simpa [Stage.demand] using hdemands
  | @go i r stage hrun hgo =>
    have hmem := List.mem_of_getElem? hrun
    refine ⟨fun r' hr => ?_, fun r' hr => ?_, demands_go h hrun hgo hfits⟩
    · obtain hr | rfl := List.mem_or_eq_of_mem_set hr
      · exact h.reached r' hr
      · exact hgo.reached (h.reached r hmem)
    · obtain hr | rfl := List.mem_or_eq_of_mem_set hr
      · exact h.allows r' hr
      · exact h.allows r hmem
  | drop i =>
    refine ⟨fun r hr => h.reached r (List.mem_of_mem_eraseIdx hr),
      fun r hr => h.allows r (List.mem_of_mem_eraseIdx hr), ?_⟩
    exact (List.Sublist.sum_le_sum ((List.eraseIdx_sublist s i).map _) fun _ _ => Nat.zero_le _).trans h.demands

/-- Where no two runs ask too much of a service at the same time, it never has
more requests in flight than its `max_concurrency`. -/
theorem requests_within {changes : List Change} {s : List Active}
    (hpath : Path (fun a change b => Active.Step crates engine a change b ∧
      Fits owner_id service_slug max_concurrency a change) [] changes s) :
    requests owner_id service_slug s ≤ max max_concurrency 1 := by
  have hempty : Overlapping crates engine owner_id service_slug max_concurrency [] :=
    ⟨fun _ hr => (List.not_mem_nil hr).elim, fun _ hr => (List.not_mem_nil hr).elim, Nat.zero_le _⟩
  have hstep : ∀ a change b, Overlapping crates engine owner_id service_slug max_concurrency a →
      Active.Step crates engine a change b ∧ Fits owner_id service_slug max_concurrency a change →
        Overlapping crates engine owner_id service_slug max_concurrency b :=
    fun _ _ _ h hstep => overlapping_step h hstep.1 hstep.2
  have hoverlapping := hpath.inv hstep hempty
  refine le_trans (List.sum_le_sum fun r hr => ?_) hoverlapping.demands
  split
  · exact (hoverlapping.reached r hr).requests_le
  · exact Nat.le_refl _

/-- A run that was called last goes on. -/
theorem Stage.Step.last {s : List Active} {call : Invocation} {stage stage' : Stage}
    (hstep : stage.Step stage') :
    Active.Step crates engine (s ++ [⟨call, stage⟩]) (.go s.length) (s ++ [⟨call, stage'⟩]) := by
  have hrun : (s ++ [(⟨call, stage⟩ : Active)])[s.length]? = some ⟨call, stage⟩ := by simp
  have hgo : Active.Step crates engine (s ++ [⟨call, stage⟩]) (.go s.length)
      (List.set (s ++ [⟨call, stage⟩]) s.length ⟨call, stage'⟩) := .go hrun hstep
  simpa only [List.set_append_right _ _ (Nat.le_refl _), Nat.sub_self, List.set_cons_zero] using hgo

variable {W : List Active → Change → Prop} {s : List Active} {call : Invocation}

/-- It gets as far as its next batch while the others rest. -/
theorem path_of_joinless
    (hgo : ∀ stage, (⟨call, stage⟩ : Active).Reached crates engine → W (s ++ [⟨call, stage⟩]) (.go s.length))
    {p rest : Run (Except ExecutorError RunResult)} {evs : List RunEvent} (hemits : p.Emits evs rest)
    (hjoinless : ∀ e ∈ evs, Joinless e.question)
    (hreached : (⟨call, .alone p⟩ : Active).Reached crates engine) :
    ∃ changes, Path (fun a change b => Active.Step crates engine a change b ∧ W a change)
      (s ++ [⟨call, .alone p⟩]) changes (s ++ [⟨call, .alone rest⟩]) := by
  induction hemits with
  | nil p => exact ⟨[], .nil _⟩
  | @cons q next a evs rest _ ih =>
    have hanswer : (Stage.alone (.ask q next)).Step (.alone (next a)) :=
      .answer a (hjoinless ⟨q, a⟩ List.mem_cons_self)
    obtain ⟨changes, hpath⟩ := ih (fun e he => hjoinless e (List.mem_cons_of_mem _ he))
      (hanswer.reached hreached)
    exact ⟨_, .cons ⟨hanswer.last, hgo _ hreached⟩ hpath⟩

/-- So do the calls of a batch that it joins. -/
theorem path_of_moves
    (hgo : ∀ stage, (⟨call, stage⟩ : Active).Reached crates engine → W (s ++ [⟨call, stage⟩]) (.go s.length))
    {limits : ConcurrencyLimits} {items : List BoxedCall}
    {next : Joined limits items → Run (Except ExecutorError RunResult)} {now after : Joining limits items}
    {moves : List CallMove} (hmoves : Path (Together.Step limits.get) now.calls moves after.calls)
    (hafter : after.moves = now.moves ++ moves)
    (hreached : (⟨call, .joining limits items now next⟩ : Active).Reached crates engine) :
    ∃ changes, Path (fun a change b => Active.Step crates engine a change b ∧ W a change)
      (s ++ [⟨call, .joining limits items now next⟩]) changes
      (s ++ [⟨call, .joining limits items after next⟩]) := by
  generalize hcalls : now.calls = first at hmoves
  generalize hlast : after.calls = last at hmoves
  induction hmoves generalizing now with
  | nil _ =>
    obtain ⟨moves, calls, path⟩ := now
    obtain ⟨moves', calls', path'⟩ := after
    dsimp only at hcalls hlast hafter
    subst hcalls hlast
    rw [List.append_nil] at hafter
    subst hafter
    exact ⟨[], .nil _⟩
  | @cons _ mid _ move moves hmove _ ih =>
    subst hcalls
    have hmoved : (Stage.joining limits items now next).Step (.joining limits items (now.move hmove) next) :=
      .move hmove
    have hrest : after.moves = (now.move hmove).moves ++ moves := by
      rw [hafter, List.append_cons]
      rfl
    obtain ⟨changes, hpath⟩ := ih hrest (hmoved.reached hreached) rfl hlast
    exact ⟨_, .cons ⟨hmoved.last, hgo _ hreached⟩ hpath⟩

end

def sample_engine : script.Engine := fun _ _ _ _ => .done (.ok .null)

/-- A call of the tool `ping`, whose service allows four requests at a time. -/
def ping_call : Invocation where
  executor := .new {}
  plan := sample_plan
  tool_name := "ping"
  args := .object []
  caller_kind := .Cli
  caller_id := ""

/-- Its request is with the upstream. -/
theorem ping_sends (budget : CallBudget) (hbytes : 4 ≤ budget.max_response_bytes.toNat)
    (hpages : 0 < budget.max_pages.toNat) :
    ∃ evs p, (dispatch sample_crates sample_plan sample_context none "ping" (.object []) budget).Emits evs p ∧
      sending (.running p) = true := by
  have hping : resolve sample_plan none "ping" = .ok sample_planned := rfl
  have hdispatch := sample_dispatched_at hping (0 : Nat) budget hbytes hpages
  have hsplit : sample_events (0 : Nat) budget.deadline = [_, _, _] ++ [_] := rfl
  rw [hsplit] at hdispatch
  obtain ⟨mid, hbefore, hafter⟩ := hdispatch.of_append
  cases hafter with
  | cons _ => exact ⟨_, _, hbefore, rfl⟩

/-- A run of it joins the one call of its batch. -/
theorem ping_joins : ∃ evs, (∀ e ∈ evs, Joinless e.question) ∧ ∃ limits budget next,
    (∀ key n, limits.get key = some n → 0 < n) ∧ 4 ≤ budget.max_response_bytes.toNat ∧
    0 < budget.max_pages.toNat ∧
    (ping_call.run sample_crates sample_engine).Emits evs (.ask (.fan_out limits
      [(sample_slug, dispatch sample_crates sample_plan sample_context none "ping" (.object []) budget)])
      next) := by
  let meter : BudgetMeter := BudgetMeter.new {} (0 : Nat) 0
  let admitted : BudgetMeter := { meter with calls_used := meter.calls_used + 1#32 }
  have hping : resolve sample_plan none "ping" = .ok sample_planned := rfl
  have hdispatch := sample_dispatched_at hping (0 : Nat) (call_budget admitted none) (by decide) (by decide)
  have hreserve : meter.reserve_calls (0 : Nat) 1#32 = (.ok (), admitted) := rfl
  have hremaining : admitted.remaining_time (0 : Nat) = .ok none := rfl
  obtain ⟨joined, -, -, hbatch⟩ := run_batch_alone (fun key n hn => ConcurrencyLimits.build_pos hn)
    hreserve hremaining hdispatch
  have hload : (AuthProviders.load sample_plan).Emits [⟨.provider 1 sample_slug, .ok none⟩]
      (.done (.ok [])) := .cons (.nil _)
  have htool : sample_plan.tool "ping" = some _ := rfl
  have hrun := run_tool_emits sample_crates sample_engine (Executor.new {}) .Cli "" htool (0 : Nat) (0 : Nat) 0
    hload (hbatch.bind (.nil _)) "" (0 : Nat) 0
  let asked : List RunEvent := [⟨.now, (0 : Nat)⟩, ⟨.provider 1 sample_slug, .ok none⟩, ⟨.now, (0 : Nat)⟩,
    ⟨.utc_now, 0⟩, ⟨.now, (0 : Nat)⟩, ⟨.now, (0 : Nat)⟩]
  have hsplit : (ping_call.run sample_crates sample_engine).Emits (asked ++ ⟨.fan_out _ _, joined⟩ :: _) _ :=
    hrun
  obtain ⟨mid, hbefore, hafter⟩ := hsplit.of_append
  cases hafter with
  | cons _ =>
    refine ⟨_, ?_, _, call_budget admitted none, _, fun key n hn => ConcurrencyLimits.build_pos hn, by decide,
      by decide, hbefore⟩
    simp [asked, Joinless]

/-- A run of it comes to where its request is with the upstream, whatever other
runs are in progress. -/
theorem exists_sending : ∃ stage : Stage, stage.requests sample_slug = 1 ∧ stage.demand sample_slug ≤ 1 ∧
    ∀ (W : List Active → Change → Prop) (s : List Active), W s (.start ping_call) →
      (∀ stage, (⟨ping_call, stage⟩ : Active).Reached sample_crates sample_engine →
        W (s ++ [⟨ping_call, stage⟩]) (.go s.length)) →
      ∃ changes, Path (fun a change b => Active.Step sample_crates sample_engine a change b ∧ W a change)
        s changes (s ++ [⟨ping_call, stage⟩]) := by
  obtain ⟨evs, hjoinless, limits, budget, next, hlimits, hbytes, hpages, hrun⟩ := ping_joins
  obtain ⟨sent, p, hsent, hsending⟩ := ping_sends budget hbytes hpages
  let ping := dispatch sample_crates sample_plan sample_context none "ping" (.object []) budget
  have hfree : ∀ n ∈ limits.get sample_slug, (Together.start [(sample_slug, ping)]).in_flight sample_slug < n := by
    intro n hn
    rw [Together.in_flight_start]
    exact hlimits _ _ hn
  have hacquire : Together.Step limits.get (Together.start [(sample_slug, ping)]) (.acquire 0)
      ⟨[(sample_slug, .running ping)], [none]⟩ := .acquire rfl hfree
  have hlane : (⟨[(sample_slug, .running ping)], [none]⟩ : Calls).lanes[0]? =
      some (sample_slug, .running ping) := rfl
  obtain ⟨moves, hpath, -⟩ := Together.path_of_running limits.get hlane hsent
  let start := Joining.start limits [(sample_slug, ping)]
  have hmoves : Path (Together.Step limits.get) start.calls (.acquire 0 :: moves)
      ⟨[(sample_slug, .running p)], [none]⟩ := .cons hacquire hpath
  let sends : Joining limits [(sample_slug, ping)] := ⟨_, _, hmoves⟩
  have hcalled : (⟨ping_call, .alone (ping_call.run sample_crates sample_engine)⟩ : Active).Reached
      sample_crates sample_engine := ⟨[], .nil _⟩
  have hjoins : (⟨ping_call, .alone (.ask (.fan_out limits [(sample_slug, ping)]) next)⟩ : Active).Reached
      sample_crates sample_engine := ⟨evs, hrun⟩
  have hjoining : (⟨ping_call, .joining limits [(sample_slug, ping)] start next⟩ : Active).Reached
      sample_crates sample_engine := ⟨evs, hrun⟩
  have hjoin : (Stage.alone (.ask (.fan_out limits [(sample_slug, ping)]) next)).Step
      (.joining limits [(sample_slug, ping)] start next) := .join
  refine ⟨.joining limits [(sample_slug, ping)] sends next, ?_, demand_le_length _ _ _, ?_⟩
  · simp [Stage.requests, sends, hsending]
  intro W s hcall hgo
  obtain ⟨before, hbefore⟩ := path_of_joinless hgo hrun hjoinless hcalled
  have hsends : sends.moves = start.moves ++ (.acquire 0 :: moves) := rfl
  obtain ⟨after, hafter⟩ := path_of_moves hgo hmoves hsends hjoining
  exact ⟨_, .cons ⟨.start ping_call, hcall⟩ (hbefore.append (.cons ⟨hjoin.last, hgo _ hjoins⟩ hafter))⟩

/-- So do several of them. -/
theorem many_sending : ∃ stage : Stage, stage.requests sample_slug = 1 ∧ stage.demand sample_slug ≤ 1 ∧
    ∀ (W : List Active → Change → Prop) (k : Nat),
      (∀ n < k, W (List.replicate n ⟨ping_call, stage⟩) (.start ping_call) ∧
        ∀ stage', (⟨ping_call, stage'⟩ : Active).Reached sample_crates sample_engine →
          W (List.replicate n ⟨ping_call, stage⟩ ++ [⟨ping_call, stage'⟩]) (.go n)) →
      ∃ changes, Path (fun a change b => Active.Step sample_crates sample_engine a change b ∧ W a change)
        [] changes (List.replicate k ⟨ping_call, stage⟩) := by
  obtain ⟨stage, hrequests, hdemand, hmore⟩ := exists_sending
  refine ⟨stage, hrequests, hdemand, fun W k => ?_⟩
  induction k with
  | zero => exact fun _ => ⟨[], .nil _⟩
  | succ k ih =>
    intro hW
    obtain ⟨before, hbefore⟩ := ih fun n hn => hW n (Nat.lt_succ_of_lt hn)
    obtain ⟨hstart, hgo⟩ := hW k (Nat.lt_succ_self k)
    obtain ⟨after, hafter⟩ := hmore W _ hstart (by simpa only [List.length_replicate] using hgo)
    rw [List.replicate_succ']
    exact ⟨_, hbefore.append hafter⟩

theorem requests_replicate (stage : Stage) (k : Nat) :
    requests 1 sample_slug (List.replicate k ⟨ping_call, stage⟩) = k * stage.requests sample_slug := by
  have howner : ping_call.plan.owner_id = 1 := rfl
  simp only [requests, List.map_replicate, howner, if_true, List.sum_replicate_nat]

/-- A call of the tool allows the service four requests, and asks for one. -/
theorem ping_fits {stage : Stage} (hdemand : stage.demand sample_slug ≤ 1) {n : Nat} (hn : n < 4) {stage' : Stage}
    (hreached : (⟨ping_call, stage'⟩ : Active).Reached sample_crates sample_engine) :
    Fits 1 sample_slug 4 (List.replicate n ⟨ping_call, stage⟩ ++ [⟨ping_call, stage'⟩]) (.go n) := by
  intro call limits items next hrun _
  obtain ⟨rfl, rfl⟩ : ping_call = call ∧ stage' = .alone (.ask (.fan_out limits items) next) := by
    simpa using hrun
  obtain ⟨tool, ctx, caller_script, budget, batch_items, htool, rfl, rfl, hitems⟩ := hreached.batched rfl
  obtain rfl : _ = tool := Option.some.inj htool
  obtain ⟨-, rfl⟩ := hitems
  have howner : ping_call.plan.owner_id = 1 := rfl
  refine .inr ?_
  have hjoin : demand sample_slug (ConcurrencyLimits.build ping_call.plan none)
      (Together.start (fan_items sample_crates ping_call.plan ctx caller_script budget
        [(ping_call.tool_name, ping_call.args)])) ≤ 1 := demand_le_length _ _ _
  have hothers : demands 1 sample_slug (List.replicate n ⟨ping_call, stage⟩ ++
      [⟨ping_call, .alone (.ask (.fan_out _ _) next)⟩]) = n * stage.demand sample_slug := by
    simp only [demands, List.map_append, List.map_replicate, howner, if_true, List.sum_append,
      List.sum_replicate_nat, List.map_cons, List.map_nil, List.sum_cons, List.sum_nil, Stage.demand,
      Nat.add_zero]
  rw [hothers]
  have hmul : n * stage.demand sample_slug ≤ 3 := by
    have hone := Nat.mul_le_mul_left n hdemand
    omega
  exact (Nat.add_le_add hmul hjoin).trans (Nat.le_max_left 4 1)

/-- Two runs with a request each are within the four. -/
theorem two_requests_in_flight : ∃ changes s,
    Path (fun a change b => Active.Step sample_crates sample_engine a change b ∧
      Fits 1 sample_slug dispatch.sample_service.max_concurrency a change) [] changes s ∧
    requests 1 sample_slug s = 2 ∧ requests 1 sample_slug s ≤ max dispatch.sample_service.max_concurrency 1 := by
  obtain ⟨stage, hrequests, hdemand, hmany⟩ := many_sending
  obtain ⟨changes, hpath⟩ := hmany (Fits 1 sample_slug 4) 2 fun n hn =>
    ⟨fun _ planned hplanned _ => by
      obtain rfl : planned = sample_planned := by simpa [ping_call, sample_plan, BTreeMap.values] using hplanned
      decide, fun stage' hreached => ping_fits hdemand (by omega) hreached⟩
  refine ⟨changes, _, hpath, ?_, requests_within hpath⟩
  rw [requests_replicate, hrequests]

/-- Five runs, each with a request in flight to a service that allows four. -/
theorem five_requests_in_flight : ∃ changes s, Path (Active.Step sample_crates sample_engine) [] changes s ∧
    (∀ r ∈ s, r.call.plan = sample_plan) ∧ sample_plan.calls.values = [sample_planned] ∧
    sample_planned.service = dispatch.sample_service ∧
    ¬ requests dispatch.sample_service.owner_id dispatch.sample_service.slug s ≤
      max dispatch.sample_service.max_concurrency 1 := by
  obtain ⟨stage, hrequests, -, hmany⟩ := many_sending
  obtain ⟨changes, hpath⟩ := hmany (fun _ _ => True) 5 fun _ _ => ⟨trivial, fun _ _ => trivial⟩
  refine ⟨changes, _, hpath.imp fun _ _ _ h => h.1, ?_, rfl, rfl, ?_⟩
  · intro r hr
    rw [List.eq_of_mem_replicate hr]
    rfl
  · show ¬ requests 1 sample_slug _ ≤ 4
    rw [requests_replicate, hrequests]
    decide

end api2mcp.runtime
