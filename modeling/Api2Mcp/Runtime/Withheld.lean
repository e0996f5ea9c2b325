import Api2Mcp.Runtime.Charges
import Api2Mcp.Runtime.Status

namespace api2mcp.runtime

open btree interact serde_json
open api2mcp.http api2mcp.model api2mcp.resolve api2mcp.store api2mcp.script
open api2mcp.runtime.budget api2mcp.runtime.dispatch api2mcp.runtime.fanout api2mcp.runtime.batch
open api2mcp.runtime.recorder

/-- The pages of a call weigh no more than a run may spend on them. -/
def Within (budgets : Budgets) (outcome : DispatchOutcome) : Prop :=
  (∀ max ∈ budgets.max_bytes, outcome.bytes_in ≤ .ofNat 64 max) ∧
    ∀ max ∈ budgets.max_pages, outcome.pages_fetched ≤ .ofNat 32 max

/-- A recorded run of a tool that is one call: the batch of that call, and what
was written and told of it. -/
structure CallRun (crates : Crates) (plan : EndpointPlan) (tool : PlannedTool) (tool_name : String) (args : Value)
    (evs : List RunEvent) (result : RunResult) (batch : BatchOutcome) : Prop where
  took : ∃ ctx limits now utc_now middle after, joined_results evs = joined_results middle ∧
    (run_batch crates plan ctx limits (BudgetMeter.new tool.budgets now utc_now) none [(tool_name, args)]).Emits
      middle (.done (batch, after))
  written : ∃ row, evs.getLast? = some ⟨.create_run row (batch.entries.filterMap (new_run_call crates)),
      .ok result.run_id⟩ ∧
    row.status = (of_batch batch).status ∧ row.output_redacted = (of_batch batch).value
  status : result.status = (of_batch batch).status
  value : result.value = (of_batch batch).value

/-- No value of a run is told or written unless the run went well, and nothing of
an item that a budget withheld. -/
structure NothingCut (evs : List RunEvent) (result : RunResult) (batch : BatchOutcome) : Prop where
  returned : result.value.isSome → result.status = .Ok
  recorded : ∀ row calls answer, evs.getLast? = some ⟨.create_run row calls, answer⟩ →
    row.output_redacted.isSome → row.status = .Ok
  withheld : (∃ entry ∈ batch.entries, ∃ axis outcome, entry.outcome = .BudgetCut axis outcome) →
    result.value = none ∧ ∀ row calls answer, evs.getLast? = some ⟨.create_run row calls, answer⟩ →
      row.output_redacted = none ∧ ∀ call ∈ calls, call.body_redacted = none

section

variable {crates : Crates} {engine : Engine} {executor : Executor} {plan : EndpointPlan} {tool : PlannedTool}
  {tool_name : String} {args : Value} {caller_kind : RunCallerKind} {caller_id : String} {evs : List RunEvent}
  {result : RunResult}

theorem joined_results_append {before : List RunEvent} (h : ∀ e ∈ before, Joinless e.question)
    (after : List RunEvent) : joined_results (before ++ after) = joined_results after := by
  have hnone : joined_results before = none := by
    refine List.findSome?_eq_none_iff.mpr fun e he => ?_
    have hjoinless := h e he
    obtain ⟨question, answer⟩ := e
    cases question with
    | fan_out limits calls => exact hjoinless.elim
    | _ => rfl
  unfold joined_results at hnone ⊢
  rw [List.findSome?_append, hnone, Option.none_or]

theorem joined_results_last {last : List RunEvent} (h : ∀ e ∈ last, Joinless e.question)
    (before : List RunEvent) : joined_results (before ++ last) = joined_results before := by
  have hnone : joined_results last = none := by
    have hlast := joined_results_append h []
    rwa [List.append_nil] at hlast
  unfold joined_results at hnone ⊢
  rw [List.findSome?_append, hnone, Option.or_none]

theorem callRun_of_run {slug : Slug} (htool : plan.tool tool_name = some tool) (htarget : tool.target = .ApiCall slug)
    (h : (executor.run_tool crates engine plan tool_name args caller_kind caller_id).Emits evs
      (.done (.ok result))) :
    ∃ batch, CallRun crates plan tool tool_name args evs result batch := by
  unfold Executor.run_tool at h
  obtain ⟨started, first, _, rfl, hstarted, h⟩ := h.done_of_bind
  rw [htool] at h
  obtain ⟨answer, loaded, _, rfl, hload, h⟩ := h.done_of_bind
  have hloaded := (load_joinless plan).of_runs ⟨_, hload⟩
  split at h
  · obtain ⟨_, hdone⟩ := h.of_done
    cases hdone
  rename_i auth
  obtain ⟨now, second, _, rfl, hnow, h⟩ := h.done_of_bind
  obtain ⟨utc_now, third, _, rfl, hutc, h⟩ := h.done_of_bind
  obtain ⟨⟨ended, meter⟩, middle, last, rfl, hmiddle, h⟩ := h.done_of_bind
  unfold run_target at hmiddle
  rw [htarget] at hmiddle
  obtain ⟨⟨batch, after⟩, middle, none_left, rfl, hbatch, hended⟩ := hmiddle.done_of_bind
  obtain ⟨rfl, hdone⟩ := hended.of_done
  obtain ⟨rfl, rfl⟩ := Prod.mk.inj (Prog.done.inj hdone)
  dsimp only at h
  have hlast := finish_joinless.of_runs ⟨_, h⟩
  unfold finish at h
  obtain ⟨request_id, _, _, rfl, hid, h⟩ := h.done_of_bind
  obtain ⟨finished, _, _, rfl, hfinished, h⟩ := h.done_of_bind
  obtain ⟨answer, _, _, rfl, hrecorded, h⟩ := h.done_of_bind
  split at h
  · obtain ⟨_, hdone⟩ := h.of_done
    cases hdone
  rename_i run_id
  obtain ⟨rfl, hdone⟩ := h.of_done
  obtain rfl := Except.ok.inj (Prog.done.inj hdone)
  obtain rfl := hstarted.of_query
  obtain rfl := hnow.of_query
  obtain rfl := hutc.of_query
  obtain rfl := hid.of_query
  obtain rfl := hfinished.of_query
  obtain rfl := hrecorded.of_query
  let record : RunRecord :=
    { plan, tool, caller_kind, caller_id, request_id, args, output_redacted := (of_batch batch).value
      status := (of_batch batch).status, entries := batch.entries, meter, elapsed := some (finished - started) }
  refine ⟨batch, ⟨_, _, now, utc_now, middle, meter, ?_, hbatch⟩, ⟨new_run crates record, ?_, rfl, rfl⟩, rfl, rfl⟩
  · rw [List.append_nil, joined_results_append (by simp [Joinless]), joined_results_append hloaded,
      joined_results_append (by simp [Joinless]), joined_results_append (by simp [Joinless]),
      joined_results_last hlast]
  · simp only [← List.append_assoc]
    rw [List.append_nil, List.getLast?_concat]
    rfl

theorem commit_alone {w : Nat} (max : Option (BitVec w)) (amount : BitVec w) :
    (commit_in_order max 0#w [(0, amount)]).1 = if max.any (· < amount) then some 0 else none := by
  cases max with
  | none => rfl
  | some m =>
    have hadd : numeric.saturating_add 0#w amount = amount := by
      refine BitVec.eq_of_toNat_eq ?_
      have hmin := numeric.toNat_saturating_add 0#w amount
      have hlt := amount.isLt
      simp only [BitVec.toNat_ofNat, Nat.zero_mod, Nat.zero_add] at hmin
      omega
    unfold commit_in_order commit_loop
    simp only [hadd, commit_loop, Option.any_some, decide_eq_true_eq]
    split <;> rfl

/-- A call that is alone is cut exactly when its pages are over a budget. -/
theorem settle_alone (meter : BudgetMeter) (hbytes : meter.bytes_used = 0#64) (hpages : meter.pages_used = 0#32)
    (name : String) (o : DispatchOutcome) :
    if meter.max_bytes.any (· < o.bytes_in) || meter.max_pages.any (· < o.pages_fetched) then
      ∃ axis, (settle meter [name] [.ok o]).1.entries = [⟨0, name, .BudgetCut axis o⟩]
    else (settle meter [name] [.ok o]).1.entries = [⟨0, name, .Ok o⟩] := by
  have hbyte_trip : (meter.commit_bytes_in_order [(0, o.bytes_in)]).1 =
      if meter.max_bytes.any (· < o.bytes_in) then some 0 else none := by
    rw [← commit_alone, ← hbytes]
    rfl
  have hpage_trip : ((meter.commit_bytes_in_order [(0, o.bytes_in)]).2.commit_pages_in_order
      [(0, o.pages_fetched)]).1 = if meter.max_pages.any (· < o.pages_fetched) then some 0 else none := by
    rw [← commit_alone, ← hpages]
    rfl
  have hentries : (settle meter [name] [.ok o]).1.entries =
      [⟨0, name, item_outcome (cut_of (meter.commit_bytes_in_order [(0, o.bytes_in)]).1
        ((meter.commit_bytes_in_order [(0, o.bytes_in)]).2.commit_pages_in_order [(0, o.pages_fetched)]).1)
        0 (.ok o)⟩] := rfl
  rw [hentries, hbyte_trip, hpage_trip]
  cases meter.max_bytes.any (· < o.bytes_in) <;> cases meter.max_pages.any (· < o.pages_fetched) <;>
    simp [cut_of, item_outcome]

theorem within_iff (budgets : Budgets) (now : Instant) (utc_now : DateTime) (o : DispatchOutcome) :
    Within budgets o ↔ ¬ ((BudgetMeter.new budgets now utc_now).max_bytes.any (· < o.bytes_in) ||
      (BudgetMeter.new budgets now utc_now).max_pages.any (· < o.pages_fetched)) = true := by
  unfold Within BudgetMeter.new
  cases budgets.max_bytes <;> cases budgets.max_pages <;> simp

/-- What the one entry of a batch comes to for the caller of its tool. -/
theorem of_batch_alone {batch : BatchOutcome} {entry : BatchEntry} (hentries : batch.entries = [entry])
    (hstatus : batch.status = derive_status batch.entries) :
    (of_batch batch).value = entry.outcome.dispatch_outcome.map (·.value) ∧
      ((of_batch batch).status = .Ok ↔ entry.outcome.is_ok = true) := by
  refine ⟨by rw [of_batch, hentries]; rfl, ?_⟩
  rw [of_batch, hstatus, hentries]
  constructor
  · intro hok
    refine (show ∀ e ∈ [entry], e.outcome.is_ok = true from derive_status_ok ?_) entry (List.mem_singleton_self _)
    dsimp only at hok
    unfold to_run_status at hok
    split at hok
    · assumption
    all_goals cases hok
  · intro hok
    simp [derive_status, hok, to_run_status]

/-- The one item of a batch is withheld where it got its pages and they weigh
too much. -/
theorem cut_iff {budgets : Budgets} {now : Instant} {utc_now : DateTime} {ctx : DispatchContext}
    {limits : ConcurrencyLimits} {batch : BatchOutcome} {after : BudgetMeter} {entry : BatchEntry}
    (h : (run_batch crates plan ctx limits (BudgetMeter.new budgets now utc_now) none [(tool_name, args)]).Emits
      evs (.done (batch, after))) (hentries : batch.entries = [entry]) :
    (∃ axis o, entry.outcome = .BudgetCut axis o) ↔
      ∃ outcome, joined_results evs = some [.ok outcome] ∧ ¬ Within budgets outcome := by
  obtain ⟨hquestions, hresult⟩ | ⟨reserved, measured, remaining, joined, rfl, _, hrest⟩ := run_batch_cases h
  · have hjoinless : ∀ e ∈ evs, Joinless e.question := by
      intro e he
      rw [hquestions e he]
      trivial
    have hnone : joined_results evs = none := by
      rw [← List.append_nil evs, joined_results_append hjoinless]
      rfl
    obtain ⟨⟨hempty, -⟩ | ⟨axis, hbatch⟩, -⟩ := hresult _ rfl
    · cases hempty
    have hdeclined : entry.outcome = .NotAttempted axis := by
      obtain rfl : batch = _ := hbatch
      rw [← List.singleton_inj.mp hentries]
    simp [hnone, hdeclined]
  · unfold after_join at hrest
    split at hrest
    · rename_i results hresults
      rw [Prog.done.injEq] at hrest
      obtain rfl : batch = _ := congrArg Prod.fst hrest
      have hjoined : joined_results [⟨.now, reserved⟩, ⟨.now, measured⟩, ⟨.fan_out _ _, joined⟩] =
          some results := by
        simp only [joined_results, List.findSome?_cons, hresults]
      have hlen : results.length = 1 := ((Together.tracks joined.path).getElem?_results hresults).1
      obtain ⟨r, rfl⟩ := List.length_eq_one_iff.mp hlen
      rw [hjoined]
      cases r with
      | error e =>
        obtain rfl := List.singleton_inj.mp hentries
        simp [item_outcome]
      | ok o =>
        have halone := settle_alone (admitted (BudgetMeter.new budgets now utc_now) [(tool_name, args)])
          rfl rfl tool_name o
        have hwithin := within_iff budgets now utc_now o
        split at halone
        · rename_i hover
          obtain ⟨axis, hcut⟩ := halone
          obtain rfl := List.singleton_inj.mp (hentries.symm.trans hcut)
          exact iff_of_true ⟨axis, o, rfl⟩ ⟨o, rfl, fun hfits => hwithin.mp hfits hover⟩
        · rename_i hfits
          obtain rfl := List.singleton_inj.mp (hentries.symm.trans halone)
          refine iff_of_false (by rintro ⟨_, _, ⟨⟩⟩) ?_
          rintro ⟨o', ho, hover⟩
          obtain rfl := Except.ok.inj (List.singleton_inj.mp (Option.some.inj ho))
          exact hover (hwithin.mpr hfits)
    · cases hrest

/-- A run of a tool that is one call tells and writes a value only where it went
well, and nothing that a budget withheld, exactly when the pages that its call
got weigh no more than the tool may spend. -/
theorem nothing_cut_iff {slug : Slug} (htool : plan.tool tool_name = some tool)
    (htarget : tool.target = .ApiCall slug)
    (h : (executor.run_tool crates engine plan tool_name args caller_kind caller_id).Emits evs
      (.done (.ok result))) :
    ∃ batch, CallRun crates plan tool tool_name args evs result batch ∧
      (NothingCut evs result batch ↔
        ∀ outcome, joined_results evs = some [.ok outcome] → Within tool.budgets outcome) := by
  obtain ⟨batch, hcall⟩ := callRun_of_run htool htarget h
  refine ⟨batch, hcall, ?_⟩
  obtain ⟨ctx, limits, now, utc_now, middle, after, hjoined, hbatch⟩ := hcall.took
  obtain ⟨row, hlast, hrow_status, hrow_value⟩ := hcall.written
  obtain ⟨entry, hentries⟩ : ∃ entry, batch.entries = [entry] :=
    List.length_eq_one_iff.mp (entries_of_run hbatch).1
  obtain ⟨hvalue, hstatus⟩ := of_batch_alone hentries (status_of_batch (List.cons_ne_nil _ _) hbatch)
  have hnone : NothingCut evs result batch ↔ ¬ ∃ axis o, entry.outcome = .BudgetCut axis o := by
    constructor
    · rintro hnothing ⟨axis, o, hcut⟩
      have hok := hnothing.returned (by rw [hcall.value, hvalue, hcut]; rfl)
      rw [hcall.status, hstatus, hcut] at hok
      cases hok
    · intro hcut
      have hok : entry.outcome.dispatch_outcome.isSome → (of_batch batch).status = .Ok := by
        intro hsome
        refine hstatus.mpr ?_
        cases houtcome : entry.outcome with
        | Ok o => rfl
        | BudgetCut axis o => exact absurd ⟨axis, o, houtcome⟩ hcut
        | _ =>
          rw [houtcome] at hsome
          cases hsome
      refine ⟨?_, ?_, ?_⟩
      · rw [hcall.value, hvalue, Option.isSome_map, hcall.status]
        exact hok
      · intro row' calls answer hrow
        rw [hlast] at hrow
        obtain ⟨rfl, -⟩ := RunQuestion.create_run.inj (congrArg Event.question (Option.some.inj hrow))
        rw [hrow_value, hvalue, Option.isSome_map, hrow_status]
        exact hok
      · rintro ⟨other, hother, axis, o, houtcome⟩
        rw [hentries, List.mem_singleton] at hother
        exact absurd ⟨axis, o, hother ▸ houtcome⟩ hcut
  rw [hnone, cut_iff hbatch hentries, hjoined]
  push Not
  rfl

end

/-- A tool that is one call, with budgets of its own. -/
def budgeted_tool (budgets : Budgets) : PlannedTool where
  name := "ping"
  input_schema := .object []
  target := .ApiCall sample_slug
  budgets

def budgeted_plan (budgets : Budgets) : EndpointPlan := { sample_plan with tools := [budgeted_tool budgets] }

/-- The call gets its one page, whatever number of pages the tool may fetch. -/
theorem budgeted_run (max_pages : Nat) :
    let run := of_batch (settle { BudgetMeter.new { max_pages := some max_pages } (0 : Nat) 0 with calls_used := 1 }
      ["ping"] [.ok sample_outcome]).1
    ∃ evs, joined_results evs = some [.ok sample_outcome] ∧
      ((Executor.new {}).run_tool sample_crates (one_call (.ok .null)) (budgeted_plan { max_pages := some max_pages })
        "ping" (.object []) .Cli "").Emits evs
          (.done (.ok { run_id := 0, status := run.status, value := run.value, error := run.error })) := by
  intro run
  let meter : BudgetMeter :=
    { BudgetMeter.new { max_pages := some max_pages } (0 : Nat) 0 with calls_used := 1 }
  have hping : dispatch.resolve (budgeted_plan { max_pages := some max_pages }) none "ping" = .ok sample_planned := rfl
  have hpages : 0 < (call_budget meter none).max_pages.toNat := by
    unfold call_budget
    dsimp only
    split
    · decide
    · rename_i hcap
      exact Nat.pos_of_ne_zero fun hzero => hcap (BitVec.eq_of_toNat_eq hzero)
  have hbytes : 4 ≤ (call_budget meter none).max_response_bytes.toNat := Nat.le_of_ble_eq_true rfl
  have hdispatch := sample_dispatched_at hping (0 : Nat) (call_budget meter none) hbytes hpages
  have hreserve : (BudgetMeter.new { max_pages := some max_pages } (0 : Nat) 0).reserve_calls (0 : Nat) 1#32 =
      (.ok (), meter) := rfl
  have hremaining : meter.remaining_time (0 : Nat) = .ok none := rfl
  have htool : (budgeted_plan { max_pages := some max_pages }).tool "ping" =
      some (budgeted_tool { max_pages := some max_pages }) := rfl
  have hload : (AuthProviders.load (budgeted_plan { max_pages := some max_pages })).Emits
      [⟨.provider 1 sample_slug, .ok none⟩] (.done (.ok [])) := .cons (.nil _)
  have halone := @run_tool_alone sample_crates (one_call (.ok .null))
  obtain ⟨joined, -, hresults, _, _, -, hrun⟩ := halone (.new {}) .Cli "" htool rfl hload (0 : Nat) (0 : Nat) 0
    hreserve hremaining hdispatch (0 : Nat) 0
  refine ⟨_, ?_, hrun⟩
  simp only [joined_results, List.cons_append, List.nil_append, List.findSome?_cons, hresults]

/-- A tool that may fetch its page tells the value of it. -/
theorem fetched_page_told :
    ∃ evs result batch, ((Executor.new {}).run_tool sample_crates (one_call (.ok .null))
        (budgeted_plan { max_pages := some 1 }) "ping" (.object []) .Cli "").Emits evs (.done (.ok result)) ∧
      result.value.isSome ∧ NothingCut evs result batch := by
  obtain ⟨evs, hjoined, hrun⟩ := budgeted_run 1
  have htool : (budgeted_plan { max_pages := some 1 }).tool "ping" = some (budgeted_tool { max_pages := some 1 }) := rfl
  obtain ⟨batch, -, hnothing⟩ := nothing_cut_iff htool rfl hrun
  refine ⟨evs, _, batch, hrun, rfl, hnothing.mpr fun outcome houtcome => ?_⟩
  rw [hjoined] at houtcome
  obtain rfl := Except.ok.inj (List.singleton_inj.mp (Option.some.inj houtcome))
  constructor
  · intro max hmax
    cases hmax
  · intro max hmax
    obtain rfl := Option.some.inj hmax
    decide

/-- A tool that may fetch no page is told that its budget is exceeded, and the
value of its page. -/
theorem cut_page_told :
    ∃ evs result, ((Executor.new {}).run_tool sample_crates (one_call (.ok .null))
        (budgeted_plan { max_pages := some 0 }) "ping" (.object []) .Cli "").Emits evs (.done (.ok result)) ∧
      result.status = .BudgetExceeded ∧ result.value.isSome := by
  obtain ⟨evs, -, hrun⟩ := budgeted_run 0
  exact ⟨evs, _, hrun, rfl, rfl⟩

end api2mcp.runtime
