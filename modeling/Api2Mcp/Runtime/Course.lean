import Api2Mcp.Runtime.Batches

namespace api2mcp.runtime

open btree interact serde_json
open api2mcp.http api2mcp.model api2mcp.resolve api2mcp.schema api2mcp.store api2mcp.script
open api2mcp.runtime.budget api2mcp.runtime.dispatch api2mcp.runtime.fanout api2mcp.runtime.batch
open api2mcp.runtime.recorder

/-- How the target of a tool came to its end: the batch of its one call and
what that call did, arguments that were refused, or a script that ended after
what it was told. -/
inductive Course where
  | api_call (batch : BatchOutcome) (call : List DispatchEvent)
  | args (e : ValidationError)
  | script (deadline : Option Instant) (told : List ScriptEvent) (result : Except ScriptFailure Value)
      (ledger : Ledger)

/-- The entries of every batch, one after the other. -/
def Course.entries : Course → List BatchEntry
  | api_call batch _ => batch.entries
  | args _ => []
  | script _ _ _ ledger => ledger.audit

def Course.target : Course → TargetRun
  | api_call batch _ => of_batch batch
  | args e => of_script (.error (.Args e))
  | script _ _ (.ok value) ledger => of_script (.ok { value, calls := ledger.audit })
  | script _ _ (.error failure) _ => of_script (.error (.Script failure))

/-- What the one call of a batch did. -/
def call_events (evs : List RunEvent) : List DispatchEvent :=
  evs.flatMap fun e =>
    match e with
    | ⟨.fan_out _ _, joined⟩ => own 0 joined.moves
    | _ => []

section

variable (crates : Crates) (engine : Engine) (plan : EndpointPlan) (ctx : DispatchContext)
  (limits : ConcurrencyLimits) (meter : BudgetMeter) (tool : PlannedTool) (tool_name : String) (args : Value)

inductive Course.Takes : List RunEvent → Course → BudgetMeter → Prop
  | api_call {slug : Slug} {evs : List RunEvent} {batch : BatchOutcome} {after : BudgetMeter}
      (htarget : tool.target = .ApiCall slug)
      (hbatch : (run_batch crates plan ctx limits meter none [(tool_name, args)]).Emits evs
        (.done (batch, after))) : Takes evs (.api_call batch (call_events evs)) after
  | args {slug : Slug} {script : ScriptDef} {e : ValidationError} (htarget : tool.target = .Script slug)
      (hscript : plan.scripts.get slug = some script) (hargs : bind_args script.params args = .error e) :
      Takes [] (.args e) meter
  | script {slug : Slug} {script : ScriptDef} {bound : BTreeMap String Value} {deadline : Option Instant}
      {timed evs : List RunEvent} {told : List ScriptEvent} {result : Except ScriptFailure Value}
      {ledger : Ledger} (htarget : tool.target = .Script slug)
      (hscript : plan.scripts.get slug = some script) (hargs : bind_args script.params args = .ok bound)
      (hdeadline : (wall_clock_deadline meter).Emits timed (.done deadline))
      (htold : (engine script.source bound deadline meter.execution_start).Emits told (.done result))
      (hserves : Serves crates plan ctx limits slug ⟨meter, []⟩ evs told ledger) :
      Takes (timed ++ evs) (.script deadline told result ledger) ledger.meter

end

section

variable {crates : Crates} {engine : Engine} {executor : Executor} {plan : EndpointPlan} {ctx : DispatchContext}
  {limits : ConcurrencyLimits} {meter : BudgetMeter} {tool : PlannedTool} {tool_name : String} {args : Value}
  {evs : List RunEvent} {after : BudgetMeter}

theorem Course.takes_of_script {slug : Slug} {script : ScriptDef} {result : Except RunScriptError ScriptRun}
    (htarget : tool.target = .Script slug) (hscript : plan.scripts.get slug = some script)
    (h : (run_script crates engine plan ctx limits meter slug script args).Emits evs (.done (result, after))) :
    ∃ course, Takes crates engine plan ctx limits meter tool tool_name args evs course after ∧
      of_script result = course.target := by
  unfold run_script at h
  split at h
  · rename_i e hargs
    obtain ⟨rfl, hdone⟩ := h.of_done
    obtain ⟨rfl, rfl⟩ := Prod.mk.inj (Prog.done.inj hdone)
    exact ⟨_, .args htarget hscript hargs, rfl⟩
  · rename_i bound hargs
    obtain ⟨deadline, timed, rest, rfl, hdeadline, h⟩ := h.done_of_bind
    obtain ⟨⟨ended, ledger⟩, served, last, rfl, hservice, h⟩ := h.done_of_bind
    obtain ⟨told, htold, hserves⟩ := service_iff.mp hservice
    have htakes : Takes crates engine plan ctx limits meter tool tool_name args _ _ ledger.meter :=
      .script htarget hscript hargs hdeadline htold hserves
    cases ended with
    | ok value =>
      obtain ⟨rfl, hdone⟩ := h.of_done
      obtain ⟨rfl, rfl⟩ := Prod.mk.inj (Prog.done.inj hdone)
      rw [List.append_nil]
      exact ⟨_, htakes, rfl⟩
    | error failure =>
      obtain ⟨rfl, hdone⟩ := h.of_done
      obtain ⟨rfl, rfl⟩ := Prod.mk.inj (Prog.done.inj hdone)
      rw [List.append_nil]
      exact ⟨_, htakes, rfl⟩

/-- A target that came to its end took one course. -/
theorem Course.takes_of_target {run : TargetRun}
    (h : (run_target crates engine plan ctx limits meter tool tool_name args).Emits evs
      (.done (.ok run, after))) :
    ∃ course, Takes crates engine plan ctx limits meter tool tool_name args evs course after ∧
      run = course.target := by
  unfold run_target at h
  split at h
  · rename_i slug htarget
    split at h
    · obtain ⟨_, hdone⟩ := h.of_done
      cases hdone
    · rename_i script hscript
      obtain ⟨⟨result, meter'⟩, before, last, rfl, hrun, h⟩ := h.done_of_bind
      obtain ⟨rfl, hdone⟩ := h.of_done
      obtain ⟨hresult, rfl⟩ := Prod.mk.inj (Prog.done.inj hdone)
      obtain rfl := Except.ok.inj hresult
      rw [List.append_nil]
      exact takes_of_script htarget hscript hrun
  · rename_i slug htarget
    obtain ⟨⟨batch, meter'⟩, before, last, rfl, hrun, h⟩ := h.done_of_bind
    obtain ⟨rfl, hdone⟩ := h.of_done
    obtain ⟨hresult, rfl⟩ := Prod.mk.inj (Prog.done.inj hdone)
    obtain rfl := Except.ok.inj hresult
    rw [List.append_nil]
    exact ⟨_, .api_call htarget hrun, rfl⟩

/-- Each course is one that a target may take. -/
theorem Course.Takes.emits {course : Course}
    (h : course.Takes crates engine plan ctx limits meter tool tool_name args evs after) :
    (run_target crates engine plan ctx limits meter tool tool_name args).Emits evs
      (.done (.ok course.target, after)) := by
  unfold run_target
  cases h with
  | api_call htarget hbatch =>
    rw [htarget]
    exact hbatch.bind_done rfl
  | @args slug script e htarget hscript hargs =>
    have hrun : run_script crates engine plan ctx limits meter slug script args =
        .done (.error (.Args e), meter) := by
      unfold run_script
      rw [hargs]
      rfl
    rw [htarget]
    simp only [hscript, hrun]
    exact .nil _
  | @script slug script _ deadline timed evs told result ledger htarget hscript hargs hdeadline htold hserves =>
    have hservice := service_iff.mpr ⟨_, htold, hserves⟩
    have hrun : ∃ ended, of_script ended = (Course.script deadline told result ledger).target ∧
        (run_script crates engine plan ctx limits meter slug script args).Emits (timed ++ evs)
          (.done (ended, ledger.meter)) := by
      unfold run_script
      rw [hargs]
      cases result with
      | ok value => exact ⟨_, rfl, hdeadline.bind (hservice.bind_done rfl)⟩
      | error failure => exact ⟨_, rfl, hdeadline.bind (hservice.bind_done rfl)⟩
    obtain ⟨ended, hended, hrun⟩ := hrun
    rw [htarget]
    simp only [hscript]
    refine hrun.bind_done ?_
    rw [Prog.pure_eq, hended]

/-- A run that reached its record: the course its target took, what was handed
over of it, and what the store answered. -/
structure Recorded (crates : Crates) (engine : Engine) (executor : Executor) (plan : EndpointPlan)
    (tool_name : String) (args : Value) (caller_kind : RunCallerKind) (caller_id : String) (evs : List RunEvent)
    (meter : BudgetMeter) (course : Course) (finished : Instant) (record : RunRecord)
    (answer : Except StoreError Uuid) : Prop where
  declared : plan.tool tool_name = some record.tool
  metered : ∃ now utc_now, meter = BudgetMeter.new record.tool.budgets now utc_now
  handed : ∃ elapsed, record =
    { plan, tool := record.tool, caller_kind, caller_id, request_id := record.request_id, args
      output_redacted := course.target.value, status := course.target.status
      entries := course.target.entries, meter := record.meter, elapsed }
  took : ∃ before auth middle, evs = before ++ middle ++
      [⟨.new_v4, record.request_id⟩, ⟨.now, finished⟩,
        ⟨.create_run (new_run crates record) (record.entries.filterMap (new_run_call crates)), answer⟩] ∧
    Course.Takes crates engine plan ⟨executor.policy, auth, executor.max_redirects⟩
      (ConcurrencyLimits.build plan record.tool.budgets.max_concurrency) meter record.tool tool_name args middle
      course record.meter

/-- A run that came to its end: the course its target took, and what was
written and told of it. -/
structure Concluded (crates : Crates) (engine : Engine) (executor : Executor) (plan : EndpointPlan)
    (tool_name : String) (args : Value) (evs : List RunEvent) (result : RunResult) (tool : PlannedTool)
    (meter : BudgetMeter) (course : Course) (finished : Instant) : Prop where
  declared : plan.tool tool_name = some tool
  metered : ∃ now utc_now, meter = BudgetMeter.new tool.budgets now utc_now
  took : ∃ before auth middle after last, evs = before ++ middle ++ last ∧ (∃ request_id, ∃ run calls,
      last = [⟨.new_v4, request_id⟩, ⟨.now, finished⟩, ⟨.create_run run calls, .ok result.run_id⟩] ∧
      run.status = course.target.status ∧ run.output_redacted = course.target.value) ∧
    Course.Takes crates engine plan ⟨executor.policy, auth, executor.max_redirects⟩
      (ConcurrencyLimits.build plan tool.budgets.max_concurrency) meter tool tool_name args middle course after
  status : result.status = course.target.status
  value : result.value = course.target.value
  error : result.error = course.target.error

/-- A target that is not on the plan asks for nothing. -/
theorem no_events_of_missing {e : ExecutorError}
    (h : (run_target crates engine plan ctx limits meter tool tool_name args).Emits evs (.done (.error e, after))) :
    evs = [] := by
  unfold run_target at h
  split at h
  · split at h
    · exact h.of_done.1
    · obtain ⟨_, _, _, _, _, h⟩ := h.done_of_bind
      obtain ⟨_, hdone⟩ := h.of_done
      cases hdone
  · obtain ⟨_, _, _, _, _, h⟩ := h.done_of_bind
    obtain ⟨_, hdone⟩ := h.of_done
    cases hdone

/-- A run that is over has reached its record, or made no batch. -/
theorem recorded_of_run {caller_kind : RunCallerKind} {caller_id : String}
    {result : Except ExecutorError RunResult}
    (h : (executor.run_tool crates engine plan tool_name args caller_kind caller_id).Emits evs (.done result)) :
    (∃ meter course finished record answer, Recorded crates engine executor plan tool_name args caller_kind
      caller_id evs meter course finished record answer ∧ result = course.target.result answer) ∨
    ((∃ e, result = .error e) ∧ ∀ e ∈ evs, Joinless e.question) := by
  unfold Executor.run_tool at h
  obtain ⟨started, first, _, rfl, hstarted, h⟩ := h.done_of_bind
  have hfirst := hstarted.of_query
  split at h
  · obtain ⟨rfl, hdone⟩ := h.of_done
    obtain rfl := Prog.done.inj hdone
    subst hfirst
    exact .inr ⟨⟨_, rfl⟩, by simp [Joinless]⟩
  rename_i tool htool
  obtain ⟨answer, loaded, _, rfl, hload, h⟩ := h.done_of_bind
  have hloaded := (load_joinless plan).of_runs ⟨_, hload⟩
  split at h
  · obtain ⟨rfl, hdone⟩ := h.of_done
    obtain rfl := Prog.done.inj hdone
    subst hfirst
    exact .inr ⟨⟨_, rfl⟩, by simpa [Joinless] using hloaded⟩
  rename_i auth
  obtain ⟨now, second, _, rfl, hnow, h⟩ := h.done_of_bind
  obtain ⟨utc_now, third, _, rfl, hutc, h⟩ := h.done_of_bind
  have hsecond := hnow.of_query
  have hthird := hutc.of_query
  obtain ⟨⟨ended, meter⟩, middle, last, rfl, htarget, h⟩ := h.done_of_bind
  dsimp only at h
  split at h
  · obtain ⟨rfl, hdone⟩ := h.of_done
    obtain rfl := Prog.done.inj hdone
    obtain rfl := no_events_of_missing htarget
    subst hfirst hsecond hthird
    refine .inr ⟨⟨_, rfl⟩, ?_⟩
    simp only [List.forall_mem_append]
    exact ⟨by simp [Joinless], hloaded, by simp [Joinless]⟩
  rename_i run
  obtain ⟨course, htakes, rfl⟩ := Course.takes_of_target htarget
  unfold finish at h
  obtain ⟨request_id, _, _, rfl, hid, h⟩ := h.done_of_bind
  obtain ⟨finished, _, _, rfl, hfinished, h⟩ := h.done_of_bind
  obtain ⟨answer, asked, rest, rfl, hrecorded, h⟩ := h.done_of_bind
  have hanswered : rest = [] ∧ result = course.target.result answer := by
    split at h
    · obtain ⟨hnone, hdone⟩ := h.of_done
      exact ⟨hnone, Prog.done.inj hdone⟩
    · obtain ⟨hnone, hdone⟩ := h.of_done
      exact ⟨hnone, Prog.done.inj hdone⟩
  obtain ⟨rfl, hresult⟩ := hanswered
  obtain rfl := hid.of_query
  obtain rfl := hfinished.of_query
  obtain rfl := hrecorded.of_query
  let record : RunRecord :=
    { plan, tool, caller_kind, caller_id, request_id, args, output_redacted := course.target.value
      status := course.target.status, entries := course.target.entries, meter
      elapsed := some (finished - started) }
  refine .inl ⟨BudgetMeter.new tool.budgets now utc_now, course, finished, record, answer,
    ⟨htool, ⟨now, utc_now, rfl⟩, ⟨_, rfl⟩, ?_⟩, hresult⟩
  refine ⟨first ++ (loaded ++ (second ++ third)), auth, middle, ?_, htakes⟩
  simp only [List.append_assoc, List.cons_append, List.nil_append, record]

theorem concluded_of_run {caller_kind : RunCallerKind} {caller_id : String} {result : RunResult}
    (h : (executor.run_tool crates engine plan tool_name args caller_kind caller_id).Emits evs
      (.done (.ok result))) :
    ∃ tool meter course finished,
      Concluded crates engine executor plan tool_name args evs result tool meter course finished := by
  obtain ⟨meter, course, finished, record, answer, hrecorded, hresult⟩ | ⟨⟨e, hfailed⟩, _⟩ := recorded_of_run h
  · obtain ⟨hdeclared, hmetered, ⟨elapsed, hhanded⟩, before, auth, middle, hevs, htakes⟩ := hrecorded
    cases answer with
    | error e => cases hresult
    | ok run_id =>
      obtain rfl := Except.ok.inj hresult
      refine ⟨record.tool, meter, course, finished, hdeclared, hmetered, ?_, rfl, rfl, rfl⟩
      refine ⟨before, auth, middle, record.meter, _, hevs, ⟨record.request_id, _, _, rfl, ?_, ?_⟩, htakes⟩
      · rw [hhanded]
        rfl
      · rw [hhanded]
        rfl
  · cases hfailed

/-- A run whose target takes a course, and that is recorded. -/
theorem concluded_of_takes (executor : Executor) (caller_kind : RunCallerKind) (caller_id : String)
    {auth : AuthProviders} {loaded : List RunEvent} {course : Course}
    (htool : plan.tool tool_name = some tool) (started now : Instant) (utc_now : DateTime)
    (hload : (AuthProviders.load plan).Emits loaded (.done (.ok auth)))
    (htakes : course.Takes crates engine plan ⟨executor.policy, auth, executor.max_redirects⟩
      (ConcurrencyLimits.build plan tool.budgets.max_concurrency) (BudgetMeter.new tool.budgets now utc_now) tool
      tool_name args evs after) (finished : Instant) (run_id : Uuid) :
    ∃ last result,
      (executor.run_tool crates engine plan tool_name args caller_kind caller_id).Emits
        (⟨.now, started⟩ :: (loaded ++ ⟨.now, now⟩ :: ⟨.utc_now, utc_now⟩ :: (evs ++ last))) (.done (.ok result)) ∧
      result.status = course.target.status ∧ result.value = course.target.value ∧
      Concluded crates engine executor plan tool_name args
        (⟨.now, started⟩ :: (loaded ++ ⟨.now, now⟩ :: ⟨.utc_now, utc_now⟩ :: (evs ++ last))) result tool
        (BudgetMeter.new tool.budgets now utc_now) course finished := by
  have hrun := run_tool_emits crates engine executor caller_kind caller_id htool started now utc_now hload
    htakes.emits "" finished run_id
  let record : RunRecord :=
    { plan, tool, caller_kind, caller_id, request_id := "", args, output_redacted := course.target.value
      status := course.target.status, entries := course.target.entries, meter := after
      elapsed := some (finished - started) }
  refine ⟨_, _, hrun, rfl, rfl, htool, ⟨now, utc_now, rfl⟩, ?_, rfl, rfl, rfl⟩
  refine ⟨⟨.now, started⟩ :: (loaded ++ [⟨.now, now⟩, ⟨.utc_now, utc_now⟩]), auth, evs, after, _, ?_,
    ⟨"", new_run crates record, record.entries.filterMap (new_run_call crates), rfl, rfl, rfl⟩, htakes⟩
  simp only [List.cons_append, List.append_assoc, List.nil_append, record]

end

end api2mcp.runtime
