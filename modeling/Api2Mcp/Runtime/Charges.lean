import Api2Mcp.Runtime.Batch
import Api2Mcp.Runtime.Commit

namespace api2mcp.runtime.batch

open interact
open api2mcp.runtime.budget api2mcp.runtime.dispatch api2mcp.runtime.fanout

abbrev Results := List (Except DispatchError DispatchOutcome)

/-- The outcomes a batch hands out as successes. -/
def received (entries : List BatchEntry) : List DispatchOutcome :=
  entries.filterMap fun entry =>
    match entry.outcome with
    | .Ok outcome => some outcome
    | _ => none

/-- Both counters have grown by what the successes weigh. -/
def Charged (before after : BudgetMeter) (entries : List BatchEntry) : Prop :=
  after.bytes_used.toNat =
      before.bytes_used.toNat + ((received entries).map (·.bytes_in.toNat)).sum ∧
    after.pages_used.toNat =
      before.pages_used.toNat + ((received entries).map (·.pages_fetched.toNat)).sum

/-- One axis does not charge what the other one cuts: the items that fit here
and lie beyond what fits there weigh nothing, and the counter has room for the
others. -/
def AxisReconciled {w : Nat} (used : BitVec w) (items : List (Nat × BitVec w)) (here there : Nat) :
    Prop :=
  used.toNat + total (items.take (min here there)) < 2 ^ w ∧
    2 ^ w ∣ total ((items.take here).drop there)

/-- The two limits agree on what the batch weighs. -/
def Reconciled (meter : BudgetMeter) (results : Results) : Prop :=
  let bytes := totals (·.bytes_in) results
  let pages := totals (·.pages_fetched) results
  let within_bytes := charged meter.max_bytes meter.bytes_used bytes
  let within_pages := charged meter.max_pages meter.pages_used pages
  AxisReconciled meter.bytes_used bytes within_bytes within_pages ∧
    AxisReconciled meter.pages_used pages within_pages within_bytes

instance (before after : BudgetMeter) (entries : List BatchEntry) :
    Decidable (Charged before after entries) := inferInstanceAs (Decidable (_ ∧ _))

instance {w : Nat} (used : BitVec w) (items : List (Nat × BitVec w)) (here there : Nat) :
    Decidable (AxisReconciled used items here there) := inferInstanceAs (Decidable (_ ∧ _))

instance (meter : BudgetMeter) (results : Results) : Decidable (Reconciled meter results) :=
  inferInstanceAs (Decidable (AxisReconciled _ _ _ _ ∧ AxisReconciled _ _ _ _))

/-- The results a run of a batch settles, if it comes to that. -/
def joined_results (evs : List RunEvent) : Option Results :=
  evs.findSome? fun e =>
    match e with
    | ⟨.fan_out _ _, joined⟩ => joined.last.results
    | _ => none

/-- The successes among the results from the `n`-th on. -/
def oks : Nat → Results → List (Nat × DispatchOutcome)
  | _, [] => []
  | n, .ok o :: rest => (n, o) :: oks (n + 1) rest
  | n, .error _ :: rest => oks (n + 1) rest

theorem totals_eq {α : Type} (amount : DispatchOutcome → α) (results : Results) :
    totals amount results = (oks 0 results).map fun item => (item.1, amount item.2) := by
  have hfrom : ∀ n, ((results.zipIdx n).filterMap fun item => item.1.toOption.map fun o => (item.2, amount o)) =
      (oks n results).map fun item => (item.1, amount item.2) := by
    induction results with
    | nil => exact fun _ => rfl
    | cons r rest ih =>
      intro n
      rw [List.zipIdx_cons, List.filterMap_cons]
      cases r with
      | error e => exact ih (n + 1)
      | ok o => exact congrArg (List.cons (n, amount o)) (ih (n + 1))
  exact hfrom 0

theorem le_of_mem_oks {results : Results} {n : Nat} {item : Nat × DispatchOutcome}
    (h : item ∈ oks n results) : n ≤ item.1 := by
  induction results generalizing n with
  | nil => cases h
  | cons r rest ih =>
    cases r with
    | error e => exact Nat.le_of_succ_le (ih h)
    | ok o =>
      obtain rfl | hrest := List.mem_cons.mp h
      · exact Nat.le_refl n
      · exact Nat.le_of_succ_le (ih hrest)

theorem oks_sorted (n : Nat) (results : Results) : (oks n results).Pairwise fun a b => a.1 < b.1 := by
  induction results generalizing n with
  | nil => exact .nil
  | cons r rest ih =>
    cases r with
    | error e => exact ih (n + 1)
    | ok o => exact .cons (fun item hitem => le_of_mem_oks hitem) (ih (n + 1))

/-- The items below the index of the one at a position are those before it. -/
theorem filter_below {items : List (Nat × DispatchOutcome)}
    (hsorted : items.Pairwise fun a b => a.1 < b.1) (k n : Nat) :
    (items.take n).filter (fun item => below (((items.drop k).head?).map (·.1)) item.1) =
      items.take (min n k) := by
  induction items generalizing k n with
  | nil => simp
  | cons item rest ih =>
    obtain ⟨hhead, htail⟩ := List.pairwise_cons.mp hsorted
    cases n with
    | zero => simp
    | succ n =>
      cases k with
      | zero =>
        have hnone : ∀ other ∈ (item :: rest).take (n + 1), ¬ below (some item.1) other.1 = true := by
          intro other hother
          obtain rfl | hrest := List.mem_cons.mp (List.mem_of_mem_take hother)
          · simp [below]
          · have := hhead other hrest
            simp only [below, Option.all_some, decide_eq_true_eq]
            omega
        rw [List.drop_zero, List.head?_cons, Option.map_some, List.filter_eq_nil_iff.mpr hnone]
        simp
      | succ k =>
        have hkeep : below (((rest.drop k).head?).map (·.1)) item.1 = true := by
          cases hdrop : (rest.drop k).head? with
          | none => rfl
          | some other =>
            have hmem := List.mem_of_mem_drop (List.mem_of_mem_head? hdrop)
            simpa [below] using hhead other hmem
        rw [List.drop_succ_cons, List.take_succ_cons, List.filter_cons, if_pos hkeep, ih htail,
          Nat.succ_min_succ, List.take_succ_cons]

/-- The cut is the lower of the two. -/
theorem below_cut_of (b p : Option Nat) (index : Nat) :
    below ((cut_of b p).map (·.1)) index = (below b index && below p index) := by
  cases b with
  | none => cases p <;> simp [cut_of, below]
  | some b =>
    cases p with
    | none => simp [cut_of, below]
    | some p =>
      by_cases hlt : p < b
      · simp only [cut_of, if_pos hlt, below, Option.map_some, Option.all_some, ← Bool.decide_and]
        congr 1
        exact propext ⟨fun h => ⟨by omega, h⟩, fun h => h.2⟩
      · simp only [cut_of, if_neg hlt, below, Option.map_some, Option.all_some, ← Bool.decide_and]
        congr 1
        exact propext ⟨fun h => ⟨h, by omega⟩, fun h => h.1⟩

/-- What a batch hands out lies below both cuts. -/
theorem received_entries_of {names : List String} {results : Results}
    (hlen : names.length = results.length) (b p : Option Nat) :
    received (entries_of names (cut_of b p) results) =
      ((oks 0 results).filter fun item => below b item.1 && below p item.1).map (·.2) := by
  have hfrom : ∀ (names : List String) n, names.length = results.length →
      received (((names.zip results).zipIdx n).map fun item =>
        { index := item.2, name := item.1.1, outcome := item_outcome (cut_of b p) item.2 item.1.2 : BatchEntry }) =
          ((oks n results).filter fun item => below b item.1 && below p item.1).map (·.2) := by
    clear hlen
    induction results with
    | nil =>
      intro names n hlen
      rw [List.length_eq_zero_iff.mp hlen]
      rfl
    | cons r rest ih =>
      intro names n hlen
      obtain _ | ⟨name, names⟩ := names
      · cases hlen
      have htail := ih names (n + 1) (Nat.succ.inj hlen)
      rw [List.zip_cons_cons, List.zipIdx_cons, List.map_cons, received, List.filterMap_cons]
      cases r with
      | error e => exact htail
      | ok o =>
        rw [oks, List.filter_cons]
        have hcut := item_outcome_ok (cut_of b p) n o
        rw [below_cut_of] at hcut
        obtain ⟨hitem, hbelow⟩ | ⟨⟨axis, hitem⟩, hbelow⟩ := hcut
        · simp only [hitem, hbelow, if_true, List.map_cons]
          exact congrArg (List.cons o) htail
        · simp only [hitem, hbelow, Bool.false_eq_true, if_false]
          exact htail
  exact hfrom names 0 hlen

theorem head?_drop_totals {α : Type} (amount : DispatchOutcome → α) (results : Results) (k : Nat) :
    ((((totals amount results).drop k).head?).map (·.1)) = (((oks 0 results).drop k).head?).map (·.1) := by
  rw [totals_eq, ← List.map_drop, List.head?_map, Option.map_map]
  rfl

/-- What is handed out fits under both limits. -/
theorem received_settle (meter : BudgetMeter) {names : List String} {results : Results}
    (hlen : names.length = results.length) :
    received (settle meter names results).1.entries =
      ((oks 0 results).take (min
        (charged meter.max_bytes meter.bytes_used (totals (·.bytes_in) results))
        (charged meter.max_pages meter.pages_used (totals (·.pages_fetched) results)))).map (·.2) := by
  have hsorted := oks_sorted 0 results
  show received (entries_of names (cut_of
    (commit_in_order meter.max_bytes meter.bytes_used (totals (·.bytes_in) results)).1
    (commit_in_order meter.max_pages meter.pages_used (totals (·.pages_fetched) results)).1) results) = _
  rw [received_entries_of hlen, commit_in_order_eq, commit_in_order_eq, ← List.filter_filter,
    head?_drop_totals, head?_drop_totals]
  have hpages := filter_below hsorted
    (charged meter.max_pages meter.pages_used (totals (·.pages_fetched) results)) (oks 0 results).length
  rw [List.take_length, Nat.min_comm, ← List.take_take, List.take_length] at hpages
  rw [hpages, filter_below hsorted, Nat.min_comm]

/-- A counter that may wrap has grown by a part of what was added to it exactly
when there was room for the part, and the rest came to nothing. -/
theorem toNat_add_ofNat_iff {w : Nat} (used : BitVec w) (whole part rest : Nat) (h : whole = part + rest) :
    (used + BitVec.ofNat w whole).toNat = used.toNat + part ↔
      used.toNat + part < 2 ^ w ∧ 2 ^ w ∣ rest := by
  rw [BitVec.toNat_add, BitVec.toNat_ofNat, Nat.add_mod_mod, h]
  constructor
  · intro hmod
    have hlt := Nat.mod_lt (used.toNat + (part + rest)) (Nat.two_pow_pos w)
    have hdiv := Nat.div_add_mod (used.toNat + (part + rest)) (2 ^ w)
    exact ⟨by omega, ⟨(used.toNat + (part + rest)) / 2 ^ w, by omega⟩⟩
  · rintro ⟨hlt, q, rfl⟩
    rw [← Nat.add_assoc, Nat.add_mul_mod_self_left, Nat.mod_eq_of_lt hlt]

/-- One axis: what it charges is what is handed out. -/
theorem axis_iff {w : Nat} (max : Option (BitVec w)) (used : BitVec w)
    (amount : DispatchOutcome → BitVec w) (results : Results) (there : Nat) :
    (commit_in_order max used (totals amount results)).2.toNat = used.toNat +
        ((((oks 0 results).take (min (charged max used (totals amount results)) there)).map (·.2)).map
          fun o => (amount o).toNat).sum ↔
      AxisReconciled used (totals amount results) (charged max used (totals amount results)) there := by
  generalize hhere : charged max used (totals amount results) = here
  have hsum : ((((oks 0 results).take (min here there)).map (·.2)).map fun o => (amount o).toNat).sum =
      total ((totals amount results).take (min here there)) := by
    rw [totals_eq, total, ← List.map_take, List.map_map, List.map_map]
    rfl
  have hsplit : total ((totals amount results).take here) =
      total ((totals amount results).take (min here there)) +
        total (((totals amount results).take here).drop there) := by
    rw [← total_append, Nat.min_comm, ← List.take_take, List.take_append_drop]
  rw [commit_in_order_eq, hhere, hsum]
  exact toNat_add_ofNat_iff _ _ _ _ hsplit

theorem settle_charged_iff (meter : BudgetMeter) {names : List String} {results : Results}
    (hlen : names.length = results.length) :
    Charged meter (settle meter names results).2 (settle meter names results).1.entries ↔
      Reconciled meter results := by
  rw [Charged, received_settle meter hlen, Reconciled]
  refine and_congr (axis_iff _ _ _ _ _) ?_
  rw [Nat.min_comm]
  exact axis_iff _ _ _ _ _

section

variable {crates : Crates} {plan : resolve.EndpointPlan} {ctx : DispatchContext}
  {limits : ConcurrencyLimits} {meter : BudgetMeter} {caller_script : Option model.Slug}
  {items : List (String × serde_json.Value)}

theorem charged_of_declined {result : BatchOutcome × BudgetMeter} (h : Declined meter items result) :
    Charged meter result.2 result.1.entries := by
  obtain ⟨hentries, calls_used, hmeter⟩ := h
  have hnone : received result.1.entries = [] := by
    obtain ⟨_, hresult⟩ | ⟨axis, hresult⟩ := hentries
    · rw [hresult]
      rfl
    · rw [hresult]
      refine List.filterMap_eq_nil_iff.mpr fun entry hentry => ?_
      obtain ⟨item, _, rfl⟩ := List.mem_map.mp hentry
      rfl
  rw [Charged, hnone, hmeter]
  exact ⟨rfl, rfl⟩

/-- A batch charges exactly what it hands out, when the limits agree on what it
weighs: each axis is charged for what it lets through, whatever the other one
cuts. -/
theorem run_batch_charged_iff {evs : List RunEvent} {outcome : BatchOutcome} {meter' : BudgetMeter}
    (h : (run_batch crates plan ctx limits meter caller_script items).Emits evs
      (.done (outcome, meter'))) :
    Charged meter meter' outcome.entries ↔
      ∀ results, joined_results evs = some results → Reconciled meter results := by
  obtain ⟨hquestions, hresult⟩ | ⟨reserved, measured, remaining, joined, rfl, _, hrest⟩ :=
    run_batch_cases h
  · refine iff_of_true (charged_of_declined (hresult _ rfl)) fun results hresults => ?_
    obtain ⟨⟨question, answer⟩, he, hjoined⟩ := List.exists_of_findSome?_eq_some hresults
    obtain rfl : question = .now := hquestions _ he
    cases hjoined
  · unfold after_join at hrest
    split at hrest
    · rename_i results hresults
      have hjoined : joined_results [⟨.now, reserved⟩, ⟨.now, measured⟩, ⟨.fan_out _ _, joined⟩] =
          some results := by
        simp only [joined_results, List.findSome?_cons, hresults]
      simp only [hjoined, Option.some.injEq, forall_eq']
      have hlen : (items.map (·.1)).length = results.length := by
        have htracks := Together.tracks joined.path
        rw [(htracks.getElem?_results hresults).1, fan_items, List.length_map, List.length_map]
      rw [Prog.done.injEq] at hrest
      have hsettle := settle_charged_iff (admitted meter items) hlen
      rw [← hrest] at hsettle
      exact hsettle
    · cases hrest

end

/-- With two calls of one page each and a limit of one page, the second call is
cut, and its four bytes are charged. -/
theorem cut_call_charged : ∃ evs outcome meter',
    (run_batch sample_crates sample_plan sample_context (ConcurrencyLimits.build sample_plan none)
      sample_meter none sample_items).Emits evs (.done (outcome, meter')) ∧
    meter'.bytes_used = 8 ∧ (received outcome.entries).map (·.bytes_in) = [4] ∧
    ¬ Charged sample_meter meter' outcome.entries := by
  obtain ⟨joined, _, hemits⟩ := sample_batch sample_meter rfl rfl (by decide)
  exact ⟨_, _, _, hemits, by decide, by decide, by decide⟩

/-- With room for both pages nothing is cut, and all of it is charged. -/
theorem uncut_batch_charged : ∃ evs outcome meter',
    (run_batch sample_crates sample_plan sample_context (ConcurrencyLimits.build sample_plan none)
      { sample_meter with max_pages := some 2 } none sample_items).Emits evs (.done (outcome, meter')) ∧
    Charged { sample_meter with max_pages := some 2 } meter' outcome.entries := by
  obtain ⟨joined, hjoined, hemits⟩ :=
    sample_batch { sample_meter with max_pages := some 2 } rfl rfl (by decide)
  refine ⟨_, _, _, hemits, (run_batch_charged_iff hemits).mpr fun results hresults => ?_⟩
  simp only [joined_results, List.findSome?_cons, hjoined, Option.some.injEq] at hresults
  rw [← hresults]
  decide

end api2mcp.runtime.batch
