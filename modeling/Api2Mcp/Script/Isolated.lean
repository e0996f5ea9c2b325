import Api2Mcp.Runtime.Status
import Api2Mcp.Script.Bindings

namespace api2mcp.script

open btree interact serde_json
open api2mcp.http api2mcp.model api2mcp.resolve
open api2mcp.runtime api2mcp.runtime.budget api2mcp.runtime.dispatch api2mcp.runtime.fanout
open api2mcp.runtime.batch
open marshal

/-- What an entry tells of its item: the value, or the error. -/
def reported (crates : Crates) (entry : BatchEntry) : Value :=
  match entry.outcome with
  | .Ok outcome => outcome.value
  | _ => entry.error_value crates.url

/-- An array of `n` entries, where that of an item is what its own outcome
converts to, if it converts at all. -/
def Isolated (crates : Crates) (entries : List BatchEntry) (n : Nat)
    (result : Except EvalAltResult marshal.Dynamic) : Prop :=
  ∃ items : List marshal.Dynamic, result = .ok (.array items) ∧ items.length = n ∧
    ∀ (i : Nat) (entry : BatchEntry) (d : marshal.Dynamic), entries[i]? = some entry →
      to_dynamic (entry_to_json crates entry) = .ok d → items[i]? = some d

/-- The batch is not begun: an argument is no JSON, there are too many of them,
or the name is not one that the script may call. -/
def Unsent (plan : EndpointPlan) (caller_script : Slug) (name : String) (args_list : List marshal.Dynamic) : Prop :=
  (∃ e, args_list.mapM to_json = .error e) ∨ MAX_BATCH < args_list.length ∨
    ∃ e, resolve plan (some caller_script) name = .error e

section

variable {crates : Crates} {entry : BatchEntry}

theorem entry_to_json_ok {outcome : DispatchOutcome} (h : entry.outcome = .Ok outcome) :
    entry_to_json crates entry =
      .object [("index", .of_nat entry.index), ("ok", .bool true), ("value", reported crates entry)] := by
  have hindex : "index" < "ok" := by decide
  have hvalue : ¬ "value" < "index" := by decide
  have hlast : ¬ "value" < "ok" := by decide
  simp only [entry_to_json, reported, h, Value.json, Map.insert, List.foldl_cons, List.foldl_nil,
    if_pos hindex, if_neg hvalue, if_neg hlast, String.reduceEq, if_false]

theorem entry_to_json_failed (h : entry.outcome.is_ok = false) :
    entry_to_json crates entry =
      .object [("error", reported crates entry), ("index", .of_nat entry.index), ("ok", .bool false)] := by
  have hindex : "index" < "ok" := by decide
  have herror : "error" < "index" := by decide
  have hjson : ∀ error : Value, Value.json [("ok", .bool false), ("index", .of_nat entry.index), ("error", error)] =
      .object [("error", error), ("index", .of_nat entry.index), ("ok", .bool false)] := fun error => by
    simp only [Value.json, Map.insert, List.foldl_cons, List.foldl_nil, if_pos hindex, if_pos herror]
  unfold entry_to_json reported
  cases houtcome : entry.outcome with
  | Ok outcome =>
    rw [houtcome] at h
    cases h
  | _ => exact hjson _

/-- An entry nests one level more than what it tells. -/
theorem nesting_entry : (entry_to_json crates entry).nesting = (reported crates entry).nesting + 1 := by
  cases houtcome : entry.outcome with
  | Ok outcome =>
    rw [entry_to_json_ok houtcome]
    simp [Value.nesting, Value.nesting_fields, Value.of_nat]
  | _ =>
    rw [entry_to_json_failed (by rw [houtcome]; rfl)]
    simp [Value.nesting, Value.nesting_fields, Value.of_nat]

theorem representable_index {n : Nat} (h : n < 2 ^ 63) : Representable (.of_nat n) := by
  intro x hx
  rw [Value.of_nat, Value.numbers, List.mem_singleton] at hx
  subst hx
  rw [AboveI64, BitVec.toNat_ofNat, Nat.mod_eq_of_lt (by omega)]
  omega

theorem representable_bool (b : Bool) : Representable (.bool b) := by
  intro x hx
  rw [Value.numbers] at hx
  · cases hx
  · rintro number ⟨⟩
  · rintro items ⟨⟩
  · rintro fields ⟨⟩

/-- The index is a small integer, so what an entry tells decides. -/
theorem representable_entry (hindex : entry.index < 2 ^ 63) :
    Representable (entry_to_json crates entry) ↔ Representable (reported crates entry) := by
  have hsmall := representable_index hindex
  cases houtcome : entry.outcome with
  | Ok outcome =>
    rw [entry_to_json_ok houtcome, Representable, Value.forall_numbers_object]
    constructor
    · intro h
      exact h _ (List.mem_cons_of_mem _ (List.mem_cons_of_mem _ List.mem_cons_self))
    · intro h field hfield
      simp only [List.mem_cons, List.not_mem_nil, or_false] at hfield
      obtain rfl | rfl | rfl := hfield
      · exact hsmall
      · exact representable_bool true
      · exact h
  | _ =>
    rw [entry_to_json_failed (by rw [houtcome]; rfl), Representable, Value.forall_numbers_object]
    constructor
    · intro h
      exact h _ List.mem_cons_self
    · intro h field hfield
      simp only [List.mem_cons, List.not_mem_nil, or_false] at hfield
      obtain rfl | rfl | rfl := hfield
      · exact h
      · exact hsmall
      · exact representable_bool false

/-- The entries are converted all together, or none of them is. -/
theorem to_dynamic_entries_iff {entries : List BatchEntry} (hindex : ∀ entry ∈ entries, entry.index < 2 ^ 63)
    {d : marshal.Dynamic} : to_dynamic (.array (entries.map (entry_to_json crates))) = .ok d ↔
      (∀ entry ∈ entries, (reported crates entry).nesting ≤ 62 ∧ Representable (reported crates entry)) ∧
        d = .array (entries.map fun entry => dynamic_of (entry_to_json crates entry)) := by
  rw [to_dynamic_iff, Value.nesting_array_le, Representable, Value.forall_numbers_array, dynamic_of,
    dynamic_items_eq, List.forall_mem_map, List.forall_mem_map, List.map_map, ← forall₂_and]
  refine and_congr (forall₂_congr fun entry hentry => and_congr ?_ (representable_entry (hindex entry hentry))) Iff.rfl
  rw [nesting_entry, MAX_DEPTH]
  omega

end

section

variable {crates : Crates} {entries : List BatchEntry}

theorem api_many_ok_iff {d : marshal.Dynamic} (hindex : ∀ entry ∈ entries, entry.index < 2 ^ 63) :
    api_many_result (.ok (entries.map (entry_to_json crates))) = .ok d ↔
      (∀ entry ∈ entries, (reported crates entry).nesting ≤ 62 ∧ Representable (reported crates entry)) ∧
        d = .array (entries.map fun entry => dynamic_of (entry_to_json crates entry)) := by
  rw [← to_dynamic_entries_iff hindex]
  exact except.mapError_eq_ok

/-- Every item has an entry of its own exactly if none of them holds what the
engine has no value for. -/
theorem isolated_entries_iff (hindex : ∀ entry ∈ entries, entry.index < 2 ^ 63) :
    Isolated crates entries entries.length (api_many_result (.ok (entries.map (entry_to_json crates)))) ↔
      ∀ entry ∈ entries, (reported crates entry).nesting ≤ 62 ∧ Representable (reported crates entry) := by
  constructor
  · rintro ⟨items, hitems, -, -⟩
    exact ((api_many_ok_iff hindex).mp hitems).1
  · intro hall
    refine ⟨_, (api_many_ok_iff hindex).mpr ⟨hall, rfl⟩, List.length_map _, fun i entry d hentry hd => ?_⟩
    rw [List.getElem?_map, hentry, Option.map_some, (to_dynamic_iff.mp hd).2]

end

section

variable {crates : Crates} {plan : EndpointPlan} {ctx : DispatchContext} {limits : ConcurrencyLimits}
  {caller_script : Slug} {name : String} {args_list : List marshal.Dynamic} {ledger last : Ledger}
  {evs : List RunEvent} {result : Except EvalAltResult marshal.Dynamic}

/-- A batch is terminated exactly if it is not empty and all of its items failed
on the time of the run. -/
theorem terminated_iff {batch : List Value} {outcome : BatchOutcome} {meter after : BudgetMeter}
    (h : (run_batch crates plan ctx limits meter (some caller_script) (batch.map fun args => (name, args))).Emits evs
      (.done (outcome, after))) :
    outcome.status = .AllFailedOnBudget .WallClock ↔
      outcome.entries ≠ [] ∧ ∀ entry ∈ outcome.entries, entry.outcome.budget_axis = some .WallClock := by
  obtain rfl | hne := eq_or_ne batch []
  · have hlength := (entries_of_run h).1
    have hempty : outcome.entries = [] := List.length_eq_zero_iff.mp hlength
    have hstatus : outcome.status = .Ok := by
      unfold run_batch at h
      rw [List.map_nil, List.length_nil, if_pos rfl] at h
      obtain ⟨-, hdone⟩ := h.of_done
      obtain ⟨rfl, -⟩ := Prod.mk.inj (Prog.done.inj hdone)
      rfl
    rw [hstatus]
    exact iff_of_false nofun fun hentries => hentries.1 hempty
  · have hitems : batch.map (fun args => (name, args)) ≠ [] := fun hnil => hne (List.map_eq_nil_iff.mp hnil)
    rw [status_of_batch hitems h]
    exact ⟨axis_of_derive_status, fun hall => derive_status_axis hall.1 hall.2⟩

/-- What `api_many` returns to a script whose batch came to `outcome`. -/
theorem isolated_reply_iff {batch : List Value} {outcome : BatchOutcome} {meter after : BudgetMeter}
    (hlen : batch.length ≤ MAX_BATCH)
    (h : (run_batch crates plan ctx limits meter (some caller_script) (batch.map fun args => (name, args))).Emits evs
      (.done (outcome, after))) :
    Isolated crates outcome.entries batch.length (api_many_result (entries_of_reply (reply_of crates outcome))) ↔
      (outcome.entries = [] ∨ ∃ entry ∈ outcome.entries, entry.outcome.budget_axis ≠ some .WallClock) ∧
        ∀ entry ∈ outcome.entries, (reported crates entry).nesting ≤ 62 ∧ Representable (reported crates entry) := by
  obtain ⟨hlength, hentry⟩ := entries_of_run h
  rw [List.length_map] at hlength
  have hindex : ∀ entry ∈ outcome.entries, entry.index < 2 ^ 63 := by
    intro entry hmem
    obtain ⟨i, hi, hget⟩ := List.getElem_of_mem hmem
    have hat := (hentry i entry (by rw [List.getElem?_eq_getElem hi, hget])).1
    unfold MAX_BATCH at hlen
    omega
  have hterminated := terminated_iff h
  unfold reply_of
  split
  · rename_i hstatus
    obtain ⟨hne, hall⟩ := hterminated.mp hstatus
    refine iff_of_false ?_ ?_
    · rintro ⟨items, hitems, -⟩
      cases hitems
    · rintro ⟨hempty | ⟨entry, hmem, hother⟩, -⟩
      · exact hne hempty
      · exact hother (hall entry hmem)
  · rename_i hstatus
    have hgoes : outcome.entries = [] ∨ ∃ entry ∈ outcome.entries, entry.outcome.budget_axis ≠ some .WallClock := by
      by_contra hnot
      push Not at hnot
      exact hstatus (hterminated.mpr hnot)
    rw [and_iff_right hgoes, ← hlength]
    exact isolated_entries_iff hindex

/-- `api_many` gives every item an entry of its own exactly if some item did not
fail on the time of the run, and none of them holds what nests too deep or is
above `i64::MAX`. A batch that is not begun throws. -/
theorem api_many_isolates_iff
    (h : (service crates plan ctx limits caller_script (api_many_call name args_list) ledger).Emits evs
      (.done (result, last))) :
    (Unsent plan caller_script name args_list ∧ ∃ message, result = .error (.ErrorRuntime message)) ∨
    ∃ batch outcome meter, args_list.mapM to_json = .ok batch ∧
      (run_batch crates plan ctx limits ledger.meter (some caller_script) (batch.map fun args => (name, args))).Emits evs
        (.done (outcome, meter)) ∧
      (Isolated crates outcome.entries args_list.length result ↔
        (outcome.entries = [] ∨ ∃ entry ∈ outcome.entries, entry.outcome.budget_axis ≠ some .WallClock) ∧
          ∀ entry ∈ outcome.entries, (reported crates entry).nesting ≤ 62 ∧
            ∀ x ∈ (reported crates entry).numbers, ¬ AboveI64 x) := by
  unfold api_many_call at h
  split at h
  · rename_i e hargs
    obtain ⟨-, hdone⟩ := h.of_done
    obtain ⟨rfl, -⟩ := Prod.mk.inj (Prog.done.inj hdone)
    exact .inl ⟨.inl ⟨e, hargs⟩, _, rfl⟩
  · rename_i batch hargs
    have hlength : args_list.length = batch.length := (except.mapM_eq_ok.mp hargs).length_eq
    rw [send_batch, Prog.ask_bind] at h
    unfold service at h
    obtain ⟨⟨reply, mid⟩, before, after, rfl, hone, hrest⟩ := h.done_of_bind
    obtain ⟨rfl, hdone⟩ := hrest.of_done
    obtain ⟨rfl, rfl⟩ := Prod.mk.inj (Prog.done.inj hdone)
    unfold service_one at hone
    split at hone
    · rename_i hlong
      obtain ⟨rfl, hdone⟩ := hone.of_done
      obtain ⟨rfl, -⟩ := Prod.mk.inj (Prog.done.inj hdone)
      exact .inl ⟨.inr (.inl (by rwa [hlength])), _, rfl⟩
    rename_i hlen
    split at hone
    · rename_i e hresolve
      obtain ⟨rfl, hdone⟩ := hone.of_done
      obtain ⟨rfl, -⟩ := Prod.mk.inj (Prog.done.inj hdone)
      exact .inl ⟨.inr (.inr ⟨e, hresolve⟩), _, rfl⟩
    · obtain ⟨⟨outcome, meter⟩, before, after, rfl, hbatch, hdone⟩ := hone.done_of_bind
      obtain ⟨rfl, hreply⟩ := hdone.of_done
      obtain ⟨rfl, -⟩ := Prod.mk.inj (Prog.done.inj hreply)
      rw [List.append_nil, List.append_nil, hlength]
      exact .inr ⟨batch, outcome, meter, hargs, hbatch, isolated_reply_iff (Nat.le_of_not_lt hlen) hbatch⟩

end

/-- The error of a budget is an object of texts. -/
theorem budget_error_fits (axis : BudgetAxis) (attempted : Bool) :
    (budget_error_object axis attempted).nesting ≤ 62 ∧ Representable (budget_error_object axis attempted) := by
  constructor
  · refine Value.nesting_json_le fun field hfield => ?_
    simp only [List.mem_cons, List.not_mem_nil, or_false] at hfield
    obtain rfl | rfl | rfl | rfl := hfield
    all_goals simp [Value.nesting]
  · refine Value.forall_numbers_json fun field hfield => ?_
    simp only [List.mem_cons, List.not_mem_nil, or_false] at hfield
    obtain rfl | rfl | rfl | rfl := hfield
    all_goals simp [Representable, Value.numbers]

/-- A batch of one call, of a run that may make none. -/
theorem api_many_isolates_iff_starved :
    ∃ evs result last, (service sample_crates starved_plan sample_context (ConcurrencyLimits.build starved_plan none)
        sample_slug (api_many_call "ping" [.map []]) ⟨BudgetMeter.new { max_calls := some 0 } (0 : Nat) 0, []⟩).Emits
          evs (.done (result, last)) ∧
      ∃ entries, Isolated sample_crates entries 1 result := by
  let meter : BudgetMeter := BudgetMeter.new { max_calls := some 0 } (0 : Nat) 0
  let batch := not_attempted [("ping", .object [])] .Calls
  have hone : (service_one sample_crates starved_plan sample_context (ConcurrencyLimits.build starved_plan none)
      sample_slug ⟨"ping", [.object []]⟩ ⟨meter, []⟩).Emits [⟨.now, (0 : Nat)⟩]
      (.done (reply_of sample_crates batch, Ledger.sink ⟨meter, []⟩ meter batch.entries)) := .cons (.nil _)
  have hservice : (service sample_crates starved_plan sample_context (ConcurrencyLimits.build starved_plan none)
      sample_slug (api_many_call "ping" [.map []]) ⟨meter, []⟩).Emits ([⟨.now, (0 : Nat)⟩] ++ [])
      (.done (api_many_result (entries_of_reply (reply_of sample_crates batch)), _)) := hone.bind (.nil _)
  refine ⟨_, _, _, hservice, ?_⟩
  obtain ⟨hunsent, -⟩ | ⟨values, outcome, after, hvalues, hrun, hiff⟩ := api_many_isolates_iff hservice
  · obtain ⟨e, hargs⟩ | hlong | ⟨e, hresolve⟩ := hunsent
    · cases hargs
    · exact absurd hlong (by decide)
    · cases hresolve
  · obtain rfl : [.object []] = values := Except.ok.inj hvalues
    cases hrun with
    | cons hrest =>
      obtain ⟨-, hdone⟩ := hrest.of_done
      obtain ⟨rfl, -⟩ := Prod.mk.inj (Prog.done.inj hdone)
      refine ⟨_, hiff.mpr ⟨.inr ⟨_, List.mem_singleton_self _, ?_⟩, fun entry hentry => ?_⟩⟩
      · exact nofun
      · obtain rfl := List.mem_singleton.mp hentry
        exact budget_error_fits .Calls false

/-- An item whose page is the integer after `i64::MAX`, beside one whose page is
`null`. -/
def overflowing_entries : List BatchEntry :=
  [{ index := 0, name := "ping", outcome := .Ok sample_outcome },
   { index := 1, name := "ping", outcome := .Ok { sample_outcome with value := .of_nat (2 ^ 63) } }]

/-- The one integer takes the other item's entry with it. -/
theorem api_many_not_isolated :
    ¬ ∀ (crates : Crates) (outcome : BatchOutcome), outcome.status = derive_status outcome.entries →
      Isolated crates outcome.entries outcome.entries.length
        (api_many_result (entries_of_reply (reply_of crates outcome))) := by
  intro h
  have hok : derive_status overflowing_entries = .Ok := rfl
  have hisolated := h default ⟨overflowing_entries, .Ok⟩ hok.symm
  have hindex : ∀ entry ∈ overflowing_entries, entry.index < 2 ^ 63 := by
    simp [overflowing_entries]
  have hfits := (isolated_entries_iff hindex).mp hisolated _ (List.mem_cons_of_mem _ List.mem_cons_self)
  refine hfits.2 (.PosInt (.ofNat 64 (2 ^ 63))) (List.mem_singleton_self _) ?_
  show 2 ^ 63 ≤ (BitVec.ofNat 64 (2 ^ 63)).toNat
  decide

end api2mcp.script
