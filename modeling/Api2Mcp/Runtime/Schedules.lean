import Api2Mcp.Runtime.Batch
import Mathlib.Tactic.IntervalCases

namespace api2mcp.runtime.batch

open concurrent interact
open api2mcp.runtime.budget api2mcp.runtime.dispatch api2mcp.runtime.fanout

/-- The call of an item ended with the result. -/
def Ended (evs : List RunEvent) (i : Nat) (result : Except DispatchError DispatchOutcome) : Prop :=
  ∃ limits calls, ∃ joined : Joined limits calls,
    (⟨.fan_out limits calls, joined⟩ : RunEvent) ∈ evs ∧ .finish i result ∈ joined.moves

/-- Every one of `n` items ended, in both runs with the same result. -/
def SameResults (n : Nat) (evs evs' : List RunEvent) : Prop :=
  (∀ i < n, ∃ result, Ended evs i result) ∧ ∀ i result, Ended evs i result ↔ Ended evs' i result

/-- An outcome says what the call of an item ended with. -/
def Says (evs : List RunEvent) (i : Nat) : ItemOutcome → Prop
  | .Ok outcome => Ended evs i (.ok outcome)
  | .BudgetCut _ outcome => Ended evs i (.ok outcome)
  | .Failed e => Ended evs i (.error e)
  | .NotAttempted _ => ∀ result, ¬ Ended evs i result

/-- An entry is the one of its item: it has the item's place and name, and says
what the item's call ended with. -/
def EntryOf (evs : List RunEvent) (items : List (String × serde_json.Value)) (i : Nat)
    (entry : BatchEntry) : Prop :=
  entry.index = i ∧ (items[i]?).map (·.1) = some entry.name ∧ Says evs i entry.outcome

/-- At every moment of the fan-out the calls of a service in flight are within
what its first planned call allows. -/
def WithinCeilings (plan : resolve.EndpointPlan) (budget_max_concurrency : Option Nat)
    (evs : List RunEvent) : Prop :=
  ∀ limits calls, ∀ joined : Joined limits calls, (⟨.fan_out limits calls, joined⟩ : RunEvent) ∈ evs →
    ∀ before after s, joined.moves = before ++ after →
      Path (Together.Step limits.get) (Together.start calls) before s →
        ∀ slug planned, plan.calls.values.find? (fun p => p.service.slug = slug) = some planned →
          s.in_flight slug ≤ ceiling budget_max_concurrency planned

variable {crates : Crates} {plan : resolve.EndpointPlan} {ctx : DispatchContext}
  {limits limits' : ConcurrencyLimits} {meter : BudgetMeter} {caller_script : Option model.Slug}
  {items : List (String × serde_json.Value)}

theorem not_ended_of_questions {evs : List RunEvent} (h : ∀ e ∈ evs, e.question = .now) (i : Nat)
    (result : Except DispatchError DispatchOutcome) : ¬ Ended evs i result := by
  rintro ⟨limits, calls, joined, hmem, _⟩
  cases h _ hmem

/-- What a run with one fan-out ended with. -/
theorem ended_iff {reserved measured : http.Instant} {calls : List BoxedCall}
    {joined : Joined limits calls} {i : Nat} {result : Except DispatchError DispatchOutcome} :
    Ended [⟨.now, reserved⟩, ⟨.now, measured⟩, ⟨.fan_out _ _, joined⟩] i result ↔
      .finish i result ∈ joined.moves := by
  constructor
  · rintro ⟨limits, calls, joined', hmem, hfinish⟩
    simp only [List.mem_cons, List.not_mem_nil, or_false] at hmem
    obtain h | h | h := hmem
    · cases h
    · cases h
    · cases h
      exact hfinish
  · intro hfinish
    exact ⟨_, _, joined, by simp, hfinish⟩

theorem says_of_ended {evs : List RunEvent} {i : Nat} {result : Except DispatchError DispatchOutcome}
    (h : Ended evs i result) (cut : Option (Nat × BudgetAxis)) : Says evs i (item_outcome cut i result) := by
  cases result with
  | error e => exact h
  | ok o =>
    obtain ⟨hitem, _⟩ | ⟨⟨axis, hitem⟩, _⟩ := item_outcome_ok cut i o
    · rw [hitem]
      exact h
    · rw [hitem]
      exact h

theorem getElem?_entries_of {names : List String} {cut : Option (Nat × BudgetAxis)}
    {results : List (Except DispatchError DispatchOutcome)} {i : Nat} {entry : BatchEntry}
    (h : (entries_of names cut results)[i]? = some entry) : ∃ name result, names[i]? = some name ∧
      results[i]? = some result ∧ entry = { index := i, name, outcome := item_outcome cut i result } := by
  unfold entries_of at h
  rw [List.getElem?_map, List.getElem?_zipIdx, Option.map_map, Option.map_eq_some_iff] at h
  obtain ⟨⟨name, result⟩, hpair, rfl⟩ := h
  obtain ⟨hname, hresult⟩ := List.getElem?_zip_eq_some.mp hpair
  exact ⟨name, result, hname, hresult, by simp⟩

/-- One entry for each item, in the order of the items. -/
theorem entries_of_run {evs : List RunEvent} {outcome : BatchOutcome} {after : BudgetMeter}
    (h : (run_batch crates plan ctx limits meter caller_script items).Emits evs (.done (outcome, after))) :
    outcome.entries.length = items.length ∧
      ∀ i entry, outcome.entries[i]? = some entry → EntryOf evs items i entry := by
  obtain ⟨hquestions, hresult⟩ | ⟨reserved, measured, remaining, joined, rfl, _, hrest⟩ :=
    run_batch_cases h
  · obtain ⟨⟨rfl, hentries⟩ | ⟨axis, hentries⟩, _⟩ := hresult _ rfl
    · simp [show outcome.entries = [] from congrArg BatchOutcome.entries hentries]
    · have hentries : outcome.entries = _ := congrArg BatchOutcome.entries hentries
      rw [hentries]
      refine ⟨by simp [not_attempted], fun i entry hentry => ?_⟩
      simp only [not_attempted, List.getElem?_map, List.getElem?_zipIdx, Option.map_eq_some_iff,
        Nat.zero_add] at hentry
      obtain ⟨_, ⟨item, hitem, rfl⟩, rfl⟩ := hentry
      exact ⟨rfl, by simp [hitem], fun result => not_ended_of_questions hquestions i result⟩
  · unfold after_join at hrest
    split at hrest
    · rename_i results hresults
      rw [Prog.done.injEq] at hrest
      have hentries : outcome.entries = _ := congrArg (·.1.entries) hrest
      obtain ⟨hlen, hget⟩ := (Together.tracks joined.path).getElem?_results hresults
      have hitems : results.length = items.length := by
        rw [hlen, fan_items, List.length_map]
      rw [hentries]
      refine ⟨?_, fun i entry hentry => ?_⟩
      · simp [settle, entries_of, hitems]
      · obtain ⟨name, result, hname, hresult, rfl⟩ := getElem?_entries_of hentry
        rw [List.getElem?_map] at hname
        rw [hget] at hresult
        exact ⟨rfl, hname, says_of_ended (ended_iff.mpr hresult) _⟩
    · cases hrest

/-- A run in which the calls ended settles their results. -/
theorem settled_of_run {evs : List RunEvent} {outcome : BatchOutcome} {after : BudgetMeter}
    (h : (run_batch crates plan ctx limits meter caller_script items).Emits evs (.done (outcome, after)))
    {i : Nat} {result : Except DispatchError DispatchOutcome} (hended : Ended evs i result) :
    ∃ results, (∀ i result, results[i]? = some result ↔ Ended evs i result) ∧
      (outcome, after) = settle (admitted meter items) (items.map (·.1)) results := by
  obtain ⟨hquestions, _⟩ | ⟨reserved, measured, remaining, joined, rfl, _, hrest⟩ := run_batch_cases h
  · exact absurd hended (not_ended_of_questions hquestions i result)
  · unfold after_join at hrest
    split at hrest
    · rename_i results hresults
      rw [Prog.done.injEq] at hrest
      obtain ⟨_, hget⟩ := (Together.tracks joined.path).getElem?_results hresults
      exact ⟨results, fun i result => (hget i result).trans ended_iff.symm, hrest⟩
    · cases hrest

theorem declined_of_empty {evs : List RunEvent} {outcome : BatchOutcome} {after : BudgetMeter}
    (h : (run_batch crates plan ctx limits meter caller_script []).Emits evs (.done (outcome, after))) :
    outcome = { entries := [], status := .Ok } ∧ after = meter := by
  unfold run_batch at h
  rw [if_pos List.length_nil] at h
  obtain ⟨_, hdone⟩ := h.of_done
  rw [Prog.done.injEq, Prod.mk.injEq] at hdone
  exact hdone

theorem within_ceilings_of_run {budget_max_concurrency : Option Nat} {evs : List RunEvent}
    {rest : Run (BatchOutcome × BudgetMeter)}
    (h : (run_batch crates plan ctx (ConcurrencyLimits.build plan budget_max_concurrency) meter
      caller_script items).Emits evs rest) : WithinCeilings plan budget_max_concurrency evs := by
  intro limits calls joined hmem before after s hmoves hpath slug planned hplanned
  obtain ⟨hquestions, _⟩ | ⟨reserved, measured, remaining, joined', rfl, _, _⟩ := run_batch_cases h
  · cases hquestions _ hmem
  · simp only [List.mem_cons, List.not_mem_nil, or_false] at hmem
    obtain h | h | h := hmem
    · cases h
    · cases h
    · cases h
      refine Together.within_limits hpath slug _ ?_
      rw [ConcurrencyLimits.get_build, hplanned]
      rfl

/-- A batch does not depend on the order in which its calls get their permits
and end: the same results give the same entries, status and meter, under
whatever limits. There is an entry for each item, and it is the item's own; and
no service ever has more calls in flight than its limit and the budget's allow. -/
theorem run_batch_order_free {budget_max_concurrency : Option Nat} {evs evs' : List RunEvent}
    {outcome outcome' : BatchOutcome} {after after' : BudgetMeter}
    (h : (run_batch crates plan ctx (ConcurrencyLimits.build plan budget_max_concurrency) meter
      caller_script items).Emits evs (.done (outcome, after)))
    (h' : (run_batch crates plan ctx limits' meter caller_script items).Emits evs'
      (.done (outcome', after'))) :
    (SameResults items.length evs evs' → outcome = outcome' ∧ after = after') ∧
      (outcome.entries.length = items.length ∧
        ∀ i entry, outcome.entries[i]? = some entry → EntryOf evs items i entry) ∧
      WithinCeilings plan budget_max_concurrency evs := by
  refine ⟨?_, entries_of_run h, within_ceilings_of_run h⟩
  rintro ⟨hended, hsame⟩
  obtain rfl | hitems := eq_or_ne items []
  · obtain ⟨houtcome, hafter⟩ := declined_of_empty h
    obtain ⟨houtcome', hafter'⟩ := declined_of_empty h'
    exact ⟨houtcome.trans houtcome'.symm, hafter.trans hafter'.symm⟩
  · obtain ⟨result, hfirst⟩ := hended 0 (List.length_pos_iff.mpr hitems)
    obtain ⟨results, hget, hsettle⟩ := settled_of_run h hfirst
    obtain ⟨results', hget', hsettle'⟩ := settled_of_run h' ((hsame 0 result).mp hfirst)
    have hresults : results = results' := by
      refine List.ext_getElem? fun i => Option.ext fun result => ?_
      rw [hget, hget', hsame]
    rw [← hresults, ← hsettle, Prod.mk.injEq] at hsettle'
    exact ⟨hsettle'.1.symm, hsettle'.2.symm⟩

/-- Two calls of one service, in two runs. -/
theorem run_batch_order_free_two : ∃ evs outcome after,
    (run_batch sample_crates sample_plan sample_context (ConcurrencyLimits.build sample_plan none)
      sample_meter none sample_items).Emits evs (.done (outcome, after)) ∧
    SameResults 2 evs evs ∧ outcome = outcome ∧ outcome.entries.length = 2 ∧
      WithinCeilings sample_plan none evs := by
  obtain ⟨joined, hjoined, hemits⟩ := sample_batch sample_meter rfl rfl (by decide)
  let evs : List RunEvent := [⟨.now, (0 : Nat)⟩, ⟨.now, (0 : Nat)⟩, ⟨.fan_out _ _, joined⟩]
  have hsame : SameResults 2 evs evs := by
    refine ⟨fun i hi => ⟨.ok sample_outcome, ended_iff.mpr ?_⟩, fun _ _ => Iff.rfl⟩
    rw [← ((Together.tracks joined.path).getElem?_results hjoined).2]
    interval_cases i <;> rfl
  obtain ⟨heq, ⟨hlen, _⟩, hwithin⟩ := run_batch_order_free hemits hemits
  exact ⟨_, _, _, hemits, hsame, (heq hsame).1, hlen, hwithin⟩

end api2mcp.runtime.batch
