import Api2Mcp.Runtime.Audit
import Api2Mcp.Runtime.Course
import Api2Mcp.Runtime.Schedules

namespace api2mcp.runtime

open btree interact serde_json
open api2mcp.http api2mcp.model api2mcp.resolve api2mcp.schema api2mcp.store api2mcp.script
open api2mcp.runtime.budget api2mcp.runtime.dispatch api2mcp.runtime.fanout api2mcp.runtime.batch

/-- Time ran out while the last response of a call was read. -/
def CutOff (call : List DispatchEvent) : Prop :=
  ∃ client request exchange response e, call.getLast? = some ⟨.io (.exchange client request), exchange⟩ ∧
    exchange.outcome = .ok response ∧ response.chunks.find? (·.toOption.isNone) = some (.error e) ∧
    e.is_timeout = true

/-- The one call of a batch got a response that was not there in time. -/
def BodyLate (batch : BatchOutcome) (call : List DispatchEvent) : Prop :=
  (∃ entry ∈ batch.entries, ∃ message, entry.outcome = .Failed (.Send (.Call (.Body (.Transport message))))) ∧
    CutOff call

/-- What a script is told where its time is up: an instant from its deadline
on, or that it is terminated. -/
def TimeUp (deadline : Option Instant) : ScriptEvent → Prop
  | ⟨.now, t⟩ => ∃ d ∈ deadline, d ≤ t
  | ⟨.call _, reply⟩ => ∃ message, reply = .Terminated message

/-- A script that fails did so because it was told last that its time is up. -/
def ToldLate (deadline : Option Instant) (told : List ScriptEvent) : Prop :=
  ∃ e, told.getLast? = some e ∧ TimeUp deadline e

/-- The deadline of a run had passed when it was over. -/
def Late (meter : BudgetMeter) (finished : Instant) : Prop := ∃ d ∈ meter.deadline, d ≤ finished

/-- The course came to its end because time ran out. -/
def Course.OutOfTime : Course → Prop
  | api_call batch call =>
    (∃ entry ∈ batch.entries, entry.outcome.budget_axis = some .WallClock) ∨ BodyLate batch call
  | args _ => False
  | script deadline told (.error _) _ => ToldLate deadline told
  | script _ _ (.ok _) _ => False

/-- The status tells how the run ended: that its limit ended it, that some item
did not succeed, and that all of them failed on one axis. -/
structure Course.Tells (course : Course) (late : Prop) (status : RunStatus) : Prop where
  timeout : late → course.OutOfTime → status = .Timeout
  ok : status = .Ok → ∀ entry ∈ course.entries, entry.outcome.is_ok = true
  axis : ∀ axis, course.entries ≠ [] → (∀ entry ∈ course.entries, entry.outcome.budget_axis = some axis) →
    status = .BudgetExceeded ∨ status = .Timeout

/-- The call of an api_call was not cut off in its response; a script ended
well and so did its items, or it failed for another reason than its limit and
its items not all on one axis. -/
def Course.Plain (late : Prop) : Course → Prop
  | api_call batch call => ¬ (late ∧ BodyLate batch call)
  | args _ => True
  | script _ _ (.ok _) ledger => ∀ entry ∈ ledger.audit, entry.outcome.is_ok = true
  | script deadline told (.error _) ledger => ¬ (late ∧ ToldLate deadline told) ∧
      ∀ axis, ledger.audit ≠ [] → ∃ entry ∈ ledger.audit, entry.outcome.budget_axis ≠ some axis

theorem ok_of_axis {outcome : ItemOutcome} {axis : BudgetAxis} (h : outcome.budget_axis = some axis) :
    outcome.is_ok = false := by
  cases outcome with
  | Ok o => cases h
  | _ => rfl

theorem derive_status_ok {entries : List BatchEntry} (h : derive_status entries = .Ok) :
    ∀ entry ∈ entries, entry.outcome.is_ok = true := by
  unfold derive_status at h
  dsimp only at h
  split at h
  · rename_i hall
    exact List.countP_eq_length.mp hall
  · repeat' split at h
    all_goals cases h

/-- Items that all failed on one axis are told as such. -/
theorem derive_status_axis {entries : List BatchEntry} {axis : BudgetAxis} (hne : entries ≠ [])
    (h : ∀ entry ∈ entries, entry.outcome.budget_axis = some axis) :
    derive_status entries = .AllFailedOnBudget axis := by
  obtain ⟨first, rest, rfl⟩ := List.exists_cons_of_ne_nil hne
  have hnone : (first :: rest).countP (·.outcome.is_ok) = 0 := by
    refine List.countP_eq_zero.mpr fun entry hentry => ?_
    rw [ok_of_axis (h entry hentry)]
    exact Bool.false_ne_true
  have hfirst := h first List.mem_cons_self
  have hall : ((first :: rest).map (·.outcome.budget_axis)).all (· = some axis) = true := by
    rw [List.all_map, List.all_eq_true]
    exact fun entry hentry => decide_eq_true (h entry hentry)
  unfold derive_status
  simp only [hnone, List.length_cons, (Nat.succ_ne_zero _).symm, if_false, Nat.lt_irrefl, List.map_cons,
    List.head?_cons, hfirst, Option.join_some]
  rw [← hfirst] at hall
  rw [List.map_cons, hfirst] at hall
  rw [if_pos hall]

/-- A batch that is told so has items, which all failed on that axis. -/
theorem axis_of_derive_status {entries : List BatchEntry} {axis : BudgetAxis}
    (h : derive_status entries = .AllFailedOnBudget axis) :
    entries ≠ [] ∧ ∀ entry ∈ entries, entry.outcome.budget_axis = some axis := by
  unfold derive_status at h
  dsimp only at h
  split at h
  · cases h
  rename_i hcount
  split at h
  · cases h
  split at h
  · split at h
    · rename_i first _ hall
      obtain rfl := BatchStatus.AllFailedOnBudget.inj h
      rw [List.all_map, List.all_eq_true] at hall
      refine ⟨fun hnil => hcount (by rw [hnil]; rfl), fun entry hentry => of_decide_eq_true (hall entry hentry)⟩
    · cases h
  · cases h

section

variable {crates : Crates} {engine : Engine} {executor : Executor} {plan : EndpointPlan} {ctx : DispatchContext}
  {limits : ConcurrencyLimits} {meter after : BudgetMeter} {tool : PlannedTool} {tool_name : String}
  {args : Value} {evs : List RunEvent}

/-- The status of a batch is that of its entries. -/
theorem status_of_batch {caller_script : Option Slug} {items : List (String × Value)} {batch : BatchOutcome}
    (hitems : items ≠ [])
    (h : (run_batch crates plan ctx limits meter caller_script items).Emits evs (.done (batch, after))) :
    batch.status = derive_status batch.entries := by
  obtain ⟨-, hresult⟩ | ⟨_, _, _, joined, -, -, hrest⟩ := run_batch_cases h
  · obtain ⟨⟨hempty, -⟩ | ⟨axis, hbatch⟩, -⟩ := hresult _ rfl
    · exact absurd hempty hitems
    · obtain rfl : batch = _ := hbatch
      have hne : (not_attempted items axis).entries ≠ [] := by
        simpa [not_attempted] using hitems
      refine (derive_status_axis hne fun entry hentry => ?_).symm
      obtain ⟨_, _, rfl⟩ := List.mem_map.mp hentry
      rfl
  · unfold after_join at hrest
    split at hrest
    · rw [Prog.done.injEq] at hrest
      obtain rfl : batch = _ := congrArg Prod.fst hrest
      rfl
    · cases hrest

/-- The status of an api_call tells how its run ended, but for a response that
time cut off. -/
theorem batch_tells_iff (late : Prop) {batch : BatchOutcome} (call : List DispatchEvent)
    (h : (run_batch crates plan ctx limits meter none [(tool_name, args)]).Emits evs (.done (batch, after))) :
    (Course.api_call batch call).Tells late (of_batch batch).status ↔ ¬ (late ∧ BodyLate batch call) := by
  obtain ⟨entry, hentry⟩ : ∃ entry, batch.entries = [entry] :=
    List.length_eq_one_iff.mp (entries_of_run h).1
  have hstatus : (of_batch batch).status = to_run_status (derive_status [entry]) := by
    rw [of_batch, status_of_batch (List.cons_ne_nil _ _) h, hentry]
  have haxis : ∀ axis, entry.outcome.budget_axis = some axis →
      (of_batch batch).status = to_run_status (.AllFailedOnBudget axis) := by
    intro axis haxis
    rw [hstatus, derive_status_axis (List.cons_ne_nil _ _) fun e he => by rwa [List.mem_singleton.mp he]]
  constructor
  · rintro htells ⟨hlate, hbody⟩
    have htimeout := htells.timeout hlate (.inr hbody)
    obtain ⟨⟨entry', hmem, message, houtcome⟩, -⟩ := hbody
    rw [hentry, List.mem_singleton] at hmem
    subst hmem
    rw [hstatus] at htimeout
    simp [derive_status, ItemOutcome.is_ok, houtcome, ItemOutcome.budget_axis, DispatchError.budget_trip,
      to_run_status] at htimeout
  · intro hplain
    refine ⟨fun hlate hout => ?_, fun hok => ?_, fun axis _ hall => ?_⟩
    · obtain ⟨entry', hmem, hwall⟩ | hbody := hout
      · rw [hentry, List.mem_singleton] at hmem
        subst hmem
        exact haxis _ hwall
      · exact absurd ⟨hlate, hbody⟩ hplain
    · show ∀ entry ∈ batch.entries, _
      rw [hentry]
      refine derive_status_ok ?_
      rw [hstatus] at hok
      unfold to_run_status at hok
      split at hok
      · assumption
      all_goals cases hok
    · have hentries : (Course.api_call batch call).entries = [entry] := hentry
      rw [hentries] at hall
      rw [haxis axis (hall entry (List.mem_singleton_self _))]
      cases axis <;> simp [to_run_status]

/-- The status of the target tells how the run ended exactly where its course is
plain. -/
theorem Course.Takes.tells_iff {course : Course} (late : Prop)
    (h : course.Takes crates engine plan ctx limits meter tool tool_name args evs after) :
    course.Tells late course.target.status ↔ course.Plain late := by
  cases h with
  | api_call _ hbatch => exact batch_tells_iff late _ hbatch
  | args _ _ _ =>
    refine ⟨fun _ => trivial, fun _ => ⟨fun _ hout => hout.elim, fun hok => ?_, fun _ hne _ => absurd rfl hne⟩⟩
    cases hok
  | @script _ _ _ deadline _ _ told result ledger _ _ _ _ _ _ =>
    cases result with
    | ok value =>
      refine ⟨fun htells => htells.ok rfl, fun hplain => ⟨fun _ hout => hout.elim, fun _ => hplain, ?_⟩⟩
      intro axis hne hall
      obtain ⟨first, hfirst⟩ := List.exists_mem_of_ne_nil _ hne
      have hfailed := ok_of_axis (hall first hfirst)
      rw [hplain first hfirst] at hfailed
      cases hfailed
    | error failure =>
      constructor
      · refine fun htells => ⟨fun ⟨hlate, htold⟩ => ?_, fun axis hne => ?_⟩
        · cases htells.timeout hlate htold
        · by_contra hall
          push Not at hall
          obtain hstatus | hstatus := htells.axis axis hne hall
          · cases hstatus
          · cases hstatus
      · rintro ⟨htime, haxes⟩
        refine ⟨fun hlate hout => absurd ⟨hlate, hout⟩ htime, fun hok => ?_, fun axis hne hall => ?_⟩
        · cases hok
        · obtain ⟨entry, hentry, hother⟩ := haxes axis hne
          exact absurd (hall entry hentry) hother

/-- The status of a run, recorded and returned, tells how it ended exactly where
its course is plain. -/
theorem status_tells_iff {caller_kind : RunCallerKind} {caller_id : String} {result : RunResult}
    (h : (executor.run_tool crates engine plan tool_name args caller_kind caller_id).Emits evs
      (.done (.ok result))) :
    ∃ tool meter course finished,
      Concluded crates engine executor plan tool_name args evs result tool meter course finished ∧
      (course.Tells (Late meter finished) result.status ↔ course.Plain (Late meter finished)) := by
  obtain ⟨tool, meter, course, finished, hconcluded⟩ := concluded_of_run h
  refine ⟨tool, meter, course, finished, hconcluded, ?_⟩
  obtain ⟨_, _, _, _, _, -, -, htakes⟩ := hconcluded.took
  rw [hconcluded.status]
  exact htakes.tells_iff _

end

/-- A call that gets its page has the status it should. -/
theorem single_call_told :
    ∃ evs result, ((Executor.new {}).run_tool sample_crates (one_call (.ok .null)) sample_plan "ping"
        (.object []) .Cli "").Emits evs (.done (.ok result)) ∧
      ∃ tool meter course finished, Concluded sample_crates (one_call (.ok .null)) (.new {}) sample_plan "ping"
          (.object []) evs result tool meter course finished ∧
        course.Tells (Late meter finished) result.status := by
  let meter : BudgetMeter := BudgetMeter.new {} (0 : Nat) 0
  let admitted : BudgetMeter := { meter with calls_used := meter.calls_used + 1#32 }
  have hping : resolve sample_plan none "ping" = .ok sample_planned := rfl
  have hdispatch := sample_dispatched_at hping (0 : Nat) (call_budget admitted none) (by decide) (by decide)
  have hreserve : meter.reserve_calls (0 : Nat) 1#32 = (.ok (), admitted) := rfl
  have hremaining : admitted.remaining_time (0 : Nat) = .ok none := rfl
  obtain ⟨joined, -, -, hbatch⟩ := run_batch_alone (fun key n hn => ConcurrencyLimits.build_pos hn)
    hreserve hremaining hdispatch
  have hload : (AuthProviders.load sample_plan).Emits [⟨.provider 1 sample_slug, .ok none⟩]
      (.done (.ok [])) := .cons (.nil _)
  have htool : sample_plan.tool "ping" = some _ := rfl
  have htarget : (PlannedTool.mk "ping" (.object []) (.ApiCall sample_slug) {}).target = .ApiCall sample_slug := rfl
  have htakes : Course.Takes sample_crates (one_call (.ok .null)) sample_plan ⟨{}, [], 5⟩
      (ConcurrencyLimits.build sample_plan none) meter _ "ping" (.object []) _ _ _ := .api_call htarget hbatch
  obtain ⟨last, result, hrun, -, -, -⟩ := concluded_of_takes (Executor.new {}) .Cli "" htool (0 : Nat) (0 : Nat)
    0 hload htakes (0 : Nat) 0
  obtain ⟨tool, meter, course, finished, hconcluded, htells⟩ := status_tells_iff hrun
  refine ⟨_, _, hrun, tool, meter, course, finished, hconcluded, htells.mpr ?_⟩
  obtain rfl : _ = tool := Option.some.inj hconcluded.declared
  obtain ⟨now, utc_now, rfl⟩ := hconcluded.metered
  obtain ⟨_, _, _, _, _, -, -, htakes⟩ := hconcluded.took
  cases htakes with
  | api_call _ _ =>
    rintro ⟨⟨d, hd, _⟩, _⟩
    cases hd
  | args htarget _ _ => cases htarget
  | script htarget _ _ _ _ _ => cases htarget

/-- A script that may make no call. -/
def starved_tool : PlannedTool := { scripted_tool with budgets := { max_calls := some 0 } }

def starved_plan : EndpointPlan := { scripted_plan with tools := [starved_tool] }

/-- The one call of the script is not attempted, and the status is that all went
well. -/
theorem starved_script_ok :
    ∃ evs result, ((Executor.new {}).run_tool sample_crates (one_call (.ok .null)) starved_plan "report"
        (.object []) .Cli "").Emits evs (.done (.ok result)) ∧ result.status = .Ok ∧
      ∃ tool meter course finished, Concluded sample_crates (one_call (.ok .null)) (.new {}) starved_plan
          "report" (.object []) evs result tool meter course finished ∧
        course.entries.map (·.outcome) = [.NotAttempted .Calls] ∧
        ¬ course.Tells (Late meter finished) result.status := by
  let meter : BudgetMeter := BudgetMeter.new { max_calls := some 0 } (0 : Nat) 0
  let batch := not_attempted [("ping", .object [])] .Calls
  let limits := ConcurrencyLimits.build starved_plan none
  let ledger := Ledger.sink ⟨meter, []⟩ meter batch.entries
  have hone : (service_one sample_crates starved_plan sample_context limits sample_slug ⟨"ping", [.object []]⟩
      ⟨meter, []⟩).Emits [⟨.now, (0 : Nat)⟩] (.done (reply_of sample_crates batch, ledger)) := .cons (.nil _)
  have hserves := Serves.call hone (.nil ledger)
  have hdeadline : (wall_clock_deadline meter).Emits [⟨.now, (0 : Nat)⟩] (.done none) := .cons (.nil _)
  have htold : (one_call (.ok .null) "" [] none 0).Emits
      [⟨.call ⟨"ping", [.object []]⟩, reply_of sample_crates batch⟩] (.done (.ok .null)) := .cons (.nil _)
  have htakes : Course.Takes sample_crates (one_call (.ok .null)) starved_plan ⟨{}, [], 5⟩ limits meter
      starved_tool "report" (.object []) _ _ ledger.meter := .script rfl rfl rfl hdeadline htold hserves
  have hload : (AuthProviders.load starved_plan).Emits [⟨.provider 1 sample_slug, .ok none⟩]
      (.done (.ok [])) := .cons (.nil _)
  have htool : starved_plan.tool "report" = some starved_tool := rfl
  obtain ⟨last, result, hrun, hstatus, -, hconcluded⟩ := concluded_of_takes (Executor.new {}) .Cli "" htool
    (0 : Nat) (0 : Nat) 0 hload htakes (0 : Nat) 0
  refine ⟨_, result, hrun, hstatus, starved_tool, meter, _, (0 : Nat), hconcluded, rfl, fun htells => ?_⟩
  have hok := htells.ok hstatus _ (List.mem_singleton_self _)
  cases hok

end api2mcp.runtime
