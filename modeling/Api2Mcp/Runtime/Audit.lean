import Api2Mcp.Runtime.Batches
import Api2Mcp.Runtime.Heard

namespace api2mcp.runtime

open btree interact serde_json
open api2mcp.http api2mcp.model api2mcp.resolve api2mcp.store api2mcp.script
open api2mcp.runtime.budget api2mcp.runtime.dispatch api2mcp.runtime.fanout api2mcp.runtime.batch
open api2mcp.runtime.recorder

/-- A call of a batch: its events, and how it ended. -/
structure Line where
  events : List DispatchEvent
  result : Option (Except DispatchError DispatchOutcome)

/-- The call got a response. -/
def Line.answered (line : Line) : Bool := (heard_of line.events).status.isSome

/-- The call got a response, and not all of its pages. -/
def Line.Lost (line : Line) : Prop := ∃ failure, line.result = some (.error (.Send failure))

def lines_of {limits : ConcurrencyLimits} {calls : List BoxedCall} (joined : Joined limits calls) :
    List Line :=
  joined.last.slots.mapIdx fun i slot => ⟨own i joined.moves, slot⟩

/-- The calls of a run that got a response, in the order of the batches and of
their items. -/
def answered (evs : List RunEvent) : List Line :=
  evs.flatMap fun e =>
    match e with
    | ⟨.fan_out _ _, joined⟩ => (lines_of joined).filter Line.answered
    | _ => []

/-- The rows of `run_calls` that a run wrote. -/
def recorded (evs : List RunEvent) : List NewRunCall :=
  evs.flatMap fun e =>
    match e with
    | ⟨.create_run _ calls, .ok _⟩ => calls
    | _ => []

/-- The row names the call's service, and the status it heard last. -/
def RowOf (line : Line) (row : NewRunCall) : Prop :=
  (heard_of line.events).service.map (·.slug) = some row.service_slug ∧
    (heard_of line.events).status.map (·.as_u16) = row.status_code

/-- Every call that got a response has a row, no other row is there, and no two
rows have one number. -/
def Audited (evs : List RunEvent) : Prop :=
  List.Forall₂ RowOf (answered evs) (recorded evs) ∧ (recorded evs).Pairwise fun a b => a.seq ≠ b.seq

/-- The run was written, its script did not fail, and no call that got a
response failed before it had all of its pages. -/
def Intact (evs : List RunEvent) : Prop :=
  (∃ run calls id, (⟨.create_run run calls, .ok id⟩ : RunEvent) ∈ evs ∧
    ¬ (run.target_kind = .Script ∧ run.status ≠ .Ok)) ∧
  ∀ line ∈ answered evs, ¬ line.Lost

/-- What an entry says of the call it is for. -/
def TellsOutcome (line : Line) : ItemOutcome → Prop
  | .Ok o => Matches (heard_of line.events) o.service_slug o.pages ∧ ¬ line.Lost
  | .BudgetCut _ o => Matches (heard_of line.events) o.service_slug o.pages ∧ ¬ line.Lost
  | .Failed e =>
    match e.attempt with
    | some attempt => Matches (heard_of line.events) attempt.service_slug attempt.pages ∧ ¬ line.Lost
    | none => (heard_of line.events).status = none ∨ line.Lost
  | .NotAttempted _ => (heard_of line.events).status = none

/-- The rows are those of the calls that are not lost. -/
inductive Tells : List Line → List NewRunCall → Prop
  | nil : Tells [] []
  | row {line : Line} {lines : List Line} {row : NewRunCall} {rows : List NewRunCall} :
      RowOf line row → ¬ line.Lost → Tells lines rows → Tells (line :: lines) (row :: rows)
  | lost {line : Line} {lines : List Line} {rows : List NewRunCall} : line.Lost → Tells lines rows →
      Tells (line :: lines) rows

theorem Tells.forall₂ {lines : List Line} {rows : List NewRunCall} (h : Tells lines rows)
    (hkept : ∀ line ∈ lines, ¬ line.Lost) : List.Forall₂ RowOf lines rows := by
  induction h with
  | nil => exact .nil
  | row hrow _ _ ih => exact .cons hrow (ih fun line hline => hkept line (List.mem_cons_of_mem _ hline))
  | lost hlost _ _ => exact absurd hlost (hkept _ (List.mem_cons_self ..))

theorem Tells.length_le {lines : List Line} {rows : List NewRunCall} (h : Tells lines rows) :
    rows.length ≤ lines.length := by
  induction h with
  | nil => exact Nat.le_refl 0
  | row _ _ _ ih => exact Nat.succ_le_succ ih
  | lost _ _ ih => exact Nat.le_succ_of_le ih

/-- A lost call leaves fewer rows than calls. -/
theorem Tells.kept {lines : List Line} {rows : List NewRunCall} (h : Tells lines rows)
    (hlen : lines.length = rows.length) : ∀ line ∈ lines, ¬ line.Lost := by
  induction h with
  | nil => simp
  | @row line lines row rows _ hkept _ ih =>
    intro other hother
    obtain rfl | hother := List.mem_cons.mp hother
    · exact hkept
    · exact ih (Nat.succ.inj hlen) other hother
  | lost _ htells _ =>
    have hle := htells.length_le
    rw [← hlen, List.length_cons] at hle
    exact absurd hle (Nat.not_succ_le_self _)

section

variable {crates : Crates}

theorem seq_of_new_run_call {entry : BatchEntry} {row : NewRunCall}
    (h : new_run_call crates entry = some row) : row.seq = .ofNat 32 entry.index := by
  unfold new_run_call at h
  split at h
  · cases h
    rfl
  · cases h
    rfl
  · obtain ⟨attempt, _, rfl⟩ := Option.map_eq_some_iff.mp h
    rfl
  · cases h

/-- A row is of the call whose pages it is made from. -/
theorem row_of_matches {line : Line} {service_slug api_call_slug : Slug} {pages : List CallResponse}
    (h : Matches (heard_of line.events) service_slug pages) (index : Nat) (method : net.Method)
    (error : Option String) :
    line.answered = true ∧
      RowOf line (row_from_pages crates index api_call_slug service_slug method pages error) := by
  obtain ⟨hservice, page, hpage, hstatus⟩ := h
  refine ⟨by simp [Line.answered, hstatus], hservice, ?_⟩
  simp [row_from_pages, hpage, hstatus]

theorem tells_entries {lines : List Line} {entries : List BatchEntry}
    (h : List.Forall₂ (fun line entry => TellsOutcome line entry.outcome) lines entries) :
    Tells (lines.filter Line.answered) (entries.filterMap (new_run_call crates)) := by
  induction h with
  | nil => exact .nil
  | @cons line entry lines entries htells _ ih =>
    obtain ⟨index, name, outcome⟩ := entry
    have hrow : ∀ {row : NewRunCall}, line.answered = true → RowOf line row → ¬ line.Lost →
        new_run_call crates ⟨index, name, outcome⟩ = some row →
        Tells ((line :: lines).filter Line.answered)
          ((⟨index, name, outcome⟩ :: entries).filterMap (new_run_call crates)) := by
      intro row hanswered hrow hkept hnew
      rw [List.filter_cons_of_pos hanswered, List.filterMap_cons_some hnew]
      exact .row hrow hkept ih
    have hnone : line.answered = false ∨ line.Lost →
        new_run_call crates ⟨index, name, outcome⟩ = none →
        Tells ((line :: lines).filter Line.answered)
          ((⟨index, name, outcome⟩ :: entries).filterMap (new_run_call crates)) := by
      intro hline hnew
      rw [List.filterMap_cons_none hnew, List.filter_cons]
      split
      · rename_i hanswered
        refine .lost (hline.resolve_left ?_) ih
        simp [hanswered]
      · exact ih
    cases outcome with
    | Ok o =>
      obtain ⟨hanswered, hof⟩ := row_of_matches htells.1 index o.method none
      exact hrow hanswered hof htells.2 rfl
    | BudgetCut axis o =>
      obtain ⟨hanswered, hof⟩ := row_of_matches htells.1 index o.method _
      exact hrow hanswered hof htells.2 rfl
    | NotAttempted axis =>
      refine hnone (.inl ?_) rfl
      simp only [TellsOutcome] at htells
      simp [Line.answered, htells]
    | Failed e =>
      rw [TellsOutcome] at htells
      cases hattempt : e.attempt with
      | none =>
        rw [hattempt] at htells
        refine hnone (htells.imp_left fun hstatus => ?_) ?_
        · simp [Line.answered, hstatus]
        · simp only [new_run_call, hattempt, Option.map_none]
      | some attempt =>
        rw [hattempt] at htells
        have hnew : new_run_call crates ⟨index, name, .Failed e⟩ =
            some (row_from_pages crates index attempt.api_call_slug attempt.service_slug attempt.method
              attempt.pages (some (redact_message crates.url e.to_string))) := by
          simp only [new_run_call, hattempt, Option.map_some]
        obtain ⟨hanswered, hof⟩ := row_of_matches htells.1 index attempt.method
          (some (redact_message crates.url e.to_string))
        exact hrow hanswered hof htells.2 hnew

/-- The entries are numbered from zero. -/
def Indexed (entries : List BatchEntry) : Prop :=
  ∀ k (entry : BatchEntry), entries[k]? = some entry → entry.index = k

theorem seq_distinct {entries : List BatchEntry} (hindexed : Indexed entries)
    (hlen : entries.length < 2 ^ 32) :
    (entries.filterMap (new_run_call crates)).Pairwise fun a b => a.seq ≠ b.seq := by
  have hentries : entries.Pairwise fun a b => BitVec.ofNat 32 a.index ≠ BitVec.ofNat 32 b.index := by
    rw [List.pairwise_iff_getElem]
    intro i j hi hj hlt heq
    rw [hindexed i _ (List.getElem?_eq_getElem hi), hindexed j _ (List.getElem?_eq_getElem hj)] at heq
    have hnat := congrArg BitVec.toNat heq
    rw [BitVec.toNat_ofNat, BitVec.toNat_ofNat, Nat.mod_eq_of_lt (by omega),
      Nat.mod_eq_of_lt (by omega)] at hnat
    omega
  refine hentries.filterMap _ fun a b hne row hrow row' hrow' => ?_
  rw [seq_of_new_run_call hrow, seq_of_new_run_call hrow']
  exact hne

end

/-- Nothing has been written yet. -/
def Unrecorded (evs : List RunEvent) : Prop := ∀ e ∈ evs, ∀ run calls, e.question ≠ .create_run run calls

/-- What a run may write: nothing of a script that failed, and otherwise what
tells of its calls. -/
def Recordable (evs : List RunEvent) (run : NewRun) (calls : List NewRunCall) : Prop :=
  if run.target_kind = .Script ∧ run.status ≠ .Ok then calls = []
  else Tells (answered evs) calls ∧ calls.Pairwise fun a b => a.seq ≠ b.seq

/-- A run writes once, at its end. -/
def AsksAudited (evs : List RunEvent) : RunQuestion → Prop
  | .create_run run calls => Unrecorded evs ∧ Recordable evs run calls
  | .panic => Unrecorded evs
  | _ => True

/-- The record of a run that keeps everything. -/
def snoc (evs : List RunEvent) (e : RunEvent) : List RunEvent := evs ++ [e]

/-- The entries tell of all the calls of the run. -/
def Kept (evs : List RunEvent) (entries : List BatchEntry) : Prop :=
  Unrecorded evs ∧ ∃ lines, List.Forall₂ TellsOutcome lines (entries.map (·.outcome)) ∧
    answered evs = lines.filter Line.answered

abbrev Audits {α : Type} (post : List RunEvent → α → Prop) (evs : List RunEvent) (p : Run α) : Prop :=
  p.Safe snoc AsksAudited post evs

theorem foldl_snoc (before evs : List RunEvent) : evs.foldl snoc before = before ++ evs := by
  induction evs generalizing before with
  | nil => simp
  | cons e evs ih => rw [List.foldl_cons, ih, snoc, List.append_assoc, List.singleton_append]

theorem answered_snoc (evs : List RunEvent) (e : RunEvent) :
    answered (snoc evs e) = answered evs ++ answered [e] := List.flatMap_append

theorem Unrecorded.snoc {evs : List RunEvent} (h : Unrecorded evs) {e : RunEvent}
    (he : ∀ run calls, e.question ≠ .create_run run calls) : Unrecorded (snoc evs e) := by
  intro e' he'
  obtain he' | he' := List.mem_append.mp he'
  · exact h e' he'
  · rw [List.mem_singleton.mp he']
    exact he

theorem Unrecorded.recorded {evs : List RunEvent} (h : Unrecorded evs) : recorded evs = [] := by
  refine List.flatMap_eq_nil_iff.mpr fun e he => ?_
  split
  · exact absurd rfl (h _ he _ _)
  · rfl

/-- An event that is neither a batch nor the writing changes nothing. -/
theorem Kept.quiet {evs : List RunEvent} {entries : List BatchEntry} (h : Kept evs entries)
    {e : RunEvent} (he : ∀ run calls, e.question ≠ .create_run run calls) (hquiet : answered [e] = []) :
    Kept (snoc evs e) entries := by
  obtain ⟨hunrecorded, lines, htells, hanswered⟩ := h
  refine ⟨hunrecorded.snoc he, lines, htells, ?_⟩
  rw [answered_snoc, hquiet, List.append_nil, hanswered]

theorem Kept.append {evs evs' : List RunEvent} {entries more : List BatchEntry} (h : Kept evs entries)
    (hunrecorded : Unrecorded evs') {lines : List Line}
    (htells : List.Forall₂ TellsOutcome lines (more.map (·.outcome)))
    (hanswered : answered evs' = answered evs ++ lines.filter Line.answered) :
    Kept evs' (entries ++ more) := by
  obtain ⟨_, before, hbefore, hanswered'⟩ := h
  refine ⟨hunrecorded, before ++ lines, ?_, ?_⟩
  · rw [List.map_append]
    exact List.rel_append hbefore htells
  · rw [hanswered, hanswered', List.filter_append]

/-- Only the outcomes count. -/
theorem Kept.congr {evs : List RunEvent} {entries entries' : List BatchEntry} (h : Kept evs entries)
    (heq : entries'.map (·.outcome) = entries.map (·.outcome)) : Kept evs entries' := by
  obtain ⟨hunrecorded, lines, htells, hanswered⟩ := h
  exact ⟨hunrecorded, lines, by rwa [heq], hanswered⟩

theorem Kept.tells {crates : Crates} {evs : List RunEvent} {entries : List BatchEntry}
    (h : Kept evs entries) : Tells (answered evs) (entries.filterMap (new_run_call crates)) := by
  obtain ⟨_, lines, htells, hanswered⟩ := h
  rw [hanswered]
  exact tells_entries (List.forall₂_map_right_iff.mp htells)

section

variable {crates : Crates} {plan : EndpointPlan} {ctx : DispatchContext} {limits : ConcurrencyLimits}
  {meter : BudgetMeter} {caller_script : Option Slug} {items : List (String × Value)}
  {evs : List RunEvent} {audit : List BatchEntry}

theorem tells_of_told {line : Line} {result : Except DispatchError DispatchOutcome}
    (hresult : line.result = some result) (htold : Told (heard_of line.events) result)
    (cut : Option (Nat × BudgetAxis)) (index : Nat) : TellsOutcome line (item_outcome cut index result) := by
  cases result with
  | ok o =>
    have hkept : ¬ line.Lost := by
      rintro ⟨failure, hlost⟩
      rw [hresult] at hlost
      cases hlost
    obtain ⟨hitem, _⟩ | ⟨⟨axis, hitem⟩, _⟩ := item_outcome_ok cut index o
    · rw [hitem]
      exact ⟨htold, hkept⟩
    · rw [hitem]
      exact ⟨htold, hkept⟩
  | error e =>
    rw [item_outcome, TellsOutcome]
    rw [Told] at htold
    cases hattempt : e.attempt with
    | none =>
      rw [hattempt] at htold
      refine htold.imp_right ?_
      rintro ⟨failure, rfl⟩
      exact ⟨failure, hresult⟩
    | some attempt =>
      rw [hattempt] at htold
      refine ⟨htold, ?_⟩
      rintro ⟨failure, hlost⟩
      rw [hresult, Option.some.injEq, Except.error.injEq] at hlost
      rw [hlost] at hattempt
      cases hattempt

/-- The entries of a batch tell of its calls. -/
theorem tells_entries_of {call_budget : CallBudget}
    (joined : Joined limits (fan_items crates plan ctx caller_script call_budget items))
    {results : List (Except DispatchError DispatchOutcome)} (hresults : joined.last.results = some results)
    (cut : Option (Nat × BudgetAxis)) :
    List.Forall₂ TellsOutcome (lines_of joined)
      ((entries_of (items.map (·.1)) cut results).map (·.outcome)) := by
  have htracks := Together.tracks joined.path
  obtain ⟨hlen, hget⟩ := htracks.getElem?_results hresults
  have hslots : joined.last.slots = results.map some := Together.results_eq_some.mp hresults
  rw [List.forall₂_iff_get]
  constructor
  · simp [lines_of, entries_of, hslots, hlen, fan_items]
  · intro i hi hi'
    have hlt : i < results.length := by simpa [lines_of, hslots] using hi
    have hresult : results[i]? = some results[i] := List.getElem?_eq_getElem hlt
    have hcall : i < (fan_items crates plan ctx caller_script call_budget items).length := hlen ▸ hlt
    have hitem := List.getElem?_eq_getElem hcall
    obtain ⟨name, args, _, hdispatch⟩ := getElem?_fan_items hitem
    have hemits := htracks.emits hitem ((hget i _).mp hresult)
    rw [hdispatch] at hemits
    have htold : Told (heard_of (own i joined.moves)) results[i] := dispatch_told.result hemits
    have hline : (lines_of joined).get ⟨i, hi⟩ = ⟨own i joined.moves, some results[i]⟩ := by
      simp [lines_of, hslots]
    have hentry : ((entries_of (items.map (·.1)) cut results).map (·.outcome)).get ⟨i, hi'⟩ =
        item_outcome cut i results[i] := by
      simp [entries_of]
    have htells : TellsOutcome ⟨own i joined.moves, some results[i]⟩ (item_outcome cut i results[i]) :=
      tells_of_told rfl htold cut i
    rw [hline, hentry]
    exact htells

theorem indexed_entries_of (names : List String) (cut : Option (Nat × BudgetAxis))
    (results : List (Except DispatchError DispatchOutcome)) : Indexed (entries_of names cut results) := by
  intro k entry hentry
  simp only [entries_of, List.getElem?_map, List.getElem?_zipIdx, Option.map_eq_some_iff,
    Nat.zero_add] at hentry
  obtain ⟨_, ⟨pair, _, rfl⟩, rfl⟩ := hentry
  rfl

/-- A refused batch has nothing to tell. -/
theorem tells_not_attempted (items : List (String × Value)) (axis : BudgetAxis) :
    ∃ lines, List.Forall₂ TellsOutcome lines ((not_attempted items axis).entries.map (·.outcome)) ∧
      lines.filter Line.answered = [] := by
  refine ⟨List.replicate items.length ⟨[], none⟩, ?_, ?_⟩
  · rw [List.forall₂_iff_get]
    constructor
    · simp [not_attempted]
    · intro i hi hi'
      simp [not_attempted, TellsOutcome, heard_of]
  · refine List.filter_eq_nil_iff.mpr fun line hline => ?_
    rw [(List.mem_replicate.mp hline).2]
    decide

theorem indexed_not_attempted (items : List (String × Value)) (axis : BudgetAxis) :
    Indexed (not_attempted items axis).entries := by
  intro k entry hentry
  simp only [not_attempted, List.getElem?_map, List.getElem?_zipIdx, Option.map_eq_some_iff,
    Nat.zero_add] at hentry
  obtain ⟨_, ⟨pair, _, rfl⟩, rfl⟩ := hentry
  rfl

/-- A batch adds its own entries, one for each item. -/
theorem run_batch_audited (h : Kept evs audit) :
    Audits (fun evs' result => Kept evs' (audit ++ result.1.entries) ∧ Indexed result.1.entries ∧
      result.1.entries.length = items.length) evs
        (run_batch crates plan ctx limits meter caller_script items) := by
  have hdeclined : ∀ {evs' : List RunEvent} (axis : BudgetAxis), Kept evs' audit →
      Kept evs' (audit ++ (not_attempted items axis).entries) ∧
        Indexed (not_attempted items axis).entries ∧
          (not_attempted items axis).entries.length = items.length := by
    intro evs' axis hkept
    obtain ⟨lines, htells, hnone⟩ := tells_not_attempted items axis
    refine ⟨hkept.append hkept.1 htells ?_, indexed_not_attempted items axis, by simp [not_attempted]⟩
    rw [hnone, List.append_nil]
  unfold run_batch
  split
  · rename_i hempty
    refine .done ⟨by simpa using h, by simp [Indexed], hempty.symm⟩
  rw [Run.now_bind]
  refine .ask trivial fun reserved => ?_
  have h := h.quiet (e := ⟨.now, reserved⟩) (by simp) rfl
  split
  · exact .done (hdeclined _ h)
  rename_i meter' _
  rw [Run.now_bind]
  refine .ask trivial fun measured => ?_
  have h := h.quiet (e := ⟨.now, measured⟩) (by simp) rfl
  split
  · exact .done (hdeclined _ h)
  simp only [fan_out, Run.join_bind, Prog.ask_bind]
  refine .ask trivial fun joined => ?_
  generalize snoc (snoc evs _) _ = evs at h
  have hunrecorded : Unrecorded (snoc evs ⟨.fan_out _ _, joined⟩) := h.1.snoc (by simp)
  split
  · rename_i results hresults
    refine .done ⟨h.append hunrecorded (tells_entries_of joined hresults _) ?_,
      indexed_entries_of _ _ results, ?_⟩
    · rw [answered_snoc]
      simp [answered]
    · have hlen := (Together.tracks joined.path).getElem?_results hresults
      simp [batch.settle, entries_of, hlen.1, fan_items]
  · rw [Run.panicked_bind]
    exact .ask hunrecorded (by rintro ⟨⟩)

/-- The entries tell of the run, and a script that may make `n` calls more has
room for their entries. -/
def Ledgered (evs : List RunEvent) (entries : List BatchEntry) (n : Nat) : Prop :=
  Kept evs entries ∧ Indexed entries ∧ entries.length + MAX_BATCH * n ≤ MAX_BATCH * MAX_OPERATIONS

theorem Ledgered.fewer {n : Nat} (h : Ledgered evs audit (n + 1)) : Ledgered evs audit n := by
  obtain ⟨hkept, hindexed, hroom⟩ := h
  exact ⟨hkept, hindexed, (Nat.add_le_add_left (Nat.mul_le_mul_left _ n.le_succ) _).trans hroom⟩

theorem map_outcome_sink (ledger : Ledger) (meter : BudgetMeter) (entries : List BatchEntry) :
    (ledger.sink meter entries).audit.map (·.outcome) = (ledger.audit ++ entries).map (·.outcome) := by
  have hmore : (entries.mapIdx fun i e => { e with index := ledger.audit.length + i }).map
      (·.outcome) = entries.map (·.outcome) := by
    refine List.ext_getElem (by simp) fun i _ _ => ?_
    simp
  rw [Ledger.sink, List.map_append, List.map_append, hmore]

theorem indexed_sink {ledger : Ledger} (h : Indexed ledger.audit) (meter : BudgetMeter)
    (entries : List BatchEntry) : Indexed (ledger.sink meter entries).audit := by
  intro k entry hentry
  rw [Ledger.sink] at hentry
  obtain hlt | hle := Nat.lt_or_ge k ledger.audit.length
  · rw [List.getElem?_append_left hlt] at hentry
    exact h k entry hentry
  · rw [List.getElem?_append_right hle, List.getElem?_mapIdx, Option.map_eq_some_iff] at hentry
    obtain ⟨_, _, rfl⟩ := hentry
    exact Nat.add_sub_cancel' hle

theorem length_sink (ledger : Ledger) (meter : BudgetMeter) (entries : List BatchEntry) :
    (ledger.sink meter entries).audit.length = ledger.audit.length + entries.length := by
  simp [Ledger.sink]

theorem service_one_audited {script_slug : Slug} (call : BindingCall) {ledger : Ledger} {n : Nat}
    (h : Ledgered evs ledger.audit (n + 1)) :
    Audits (fun evs' result => Ledgered evs' result.2.audit n) evs
      (service_one crates plan ctx limits script_slug call ledger) := by
  unfold service_one
  split
  · exact .done h.fewer
  rename_i hbatch
  split
  · exact .done h.fewer
  obtain ⟨hkept, hindexed, hroom⟩ := h
  refine (run_batch_audited hkept).bind ?_
  rintro evs' ⟨outcome, meter'⟩ ⟨hkept', _, hlen⟩
  refine .done ⟨hkept'.congr (map_outcome_sink _ _ _), indexed_sink hindexed _ _, ?_⟩
  rw [List.length_map] at hlen
  rw [length_sink, hlen]
  have hbatch : call.batch.length ≤ MAX_BATCH := Nat.le_of_not_gt hbatch
  rw [Nat.mul_succ] at hroom
  omega

/-- By induction on the script, which has one call less with each answer. -/
theorem service_audited {α : Type} {script_slug : Slug} (script : Script α) {ledger : Ledger} {n : Nat}
    (hwithin : CallsWithin script n) (h : Ledgered evs ledger.audit n) :
    Audits (fun evs' result => ∃ m, Ledgered evs' result.2.audit m) evs
      (service crates plan ctx limits script_slug script ledger) := by
  induction script generalizing ledger n evs with
  | done a => exact .done ⟨n, h⟩
  | ask q next ih =>
    cases q with
    | now =>
      refine .ask trivial fun now => ih now (hwithin now) ?_
      exact ⟨h.1.quiet (by simp) rfl, h.2⟩
    | call call =>
      obtain ⟨m, rfl, hwithin⟩ := hwithin
      unfold service
      refine (service_one_audited call h).bind ?_
      rintro evs' ⟨reply, ledger'⟩ h'
      exact ih reply (hwithin reply) h'

/-- The entries tell of the whole run, and have numbers of their own. -/
def Complete (evs : List RunEvent) (entries : List BatchEntry) : Prop :=
  Kept evs entries ∧ Indexed entries ∧ entries.length < 2 ^ 32

theorem Ledgered.complete {n : Nat} (h : Ledgered evs audit n) : Complete evs audit := by
  obtain ⟨hkept, hindexed, hroom⟩ := h
  refine ⟨hkept, hindexed, ?_⟩
  have hmost : MAX_BATCH * MAX_OPERATIONS < 2 ^ 32 := by decide
  omega

theorem Complete.recordable (h : Complete evs audit) :
    Tells (answered evs) (audit.filterMap (new_run_call crates)) ∧
      (audit.filterMap (new_run_call crates)).Pairwise fun a b => a.seq ≠ b.seq :=
  ⟨h.1.tells, seq_distinct h.2.1 h.2.2⟩

theorem wall_clock_deadline_audited (h : Kept evs audit) :
    Audits (fun evs' _ => Kept evs' audit) evs (wall_clock_deadline meter) := by
  unfold wall_clock_deadline
  rw [Run.now_bind]
  refine .ask trivial fun now => ?_
  have h := h.quiet (e := ⟨.now, now⟩) (by simp) rfl
  split
  · exact .ask trivial fun now => .done (h.quiet (by simp) rfl)
  · exact .done h
  · exact .ask trivial fun now => .done (h.quiet (by simp) rfl)

/-- A script that ends well leaves all of its entries, one that fails none. -/
theorem run_script_audited {engine : Engine} (hlimited : Limited engine) {script_slug : Slug}
    {script : ScriptDef} {args : Value} (h : Kept evs []) :
    Audits (fun evs' result => match result.1 with
        | .ok run => Complete evs' run.calls
        | .error _ => Unrecorded evs') evs
      (run_script crates engine plan ctx limits meter script_slug script args) := by
  unfold run_script
  split
  · exact .done h.1
  rename_i bound _
  refine (wall_clock_deadline_audited h).bind fun evs' deadline h' => ?_
  have hledgered : Ledgered evs' [] MAX_OPERATIONS := ⟨h', by simp [Indexed], by simp⟩
  refine (service_audited _ (hlimited _ _ _ _) hledgered).bind ?_
  rintro evs'' ⟨result, ledger⟩ ⟨n, h''⟩
  dsimp only
  split
  · exact .done h''.complete
  · exact .done h''.1.1

theorem answered_of_kept (h : Kept evs []) : answered evs = [] := by
  obtain ⟨_, lines, htells, hanswered⟩ := h
  obtain rfl : lines = [] := List.forall₂_nil_right_iff.mp htells
  exact hanswered

/-- What there is to write of a target. -/
theorem run_target_audited {engine : Engine} (hlimited : Limited engine) {tool : PlannedTool}
    {tool_name : String} {args : Value} (h : Kept evs []) :
    Audits (fun evs' result => match result.1 with
        | .ok run => Unrecorded evs' ∧ if (target_of tool).1 = .Script ∧ run.status ≠ .Ok then
            run.entries = [] else Complete evs' run.entries
        | .error _ => Unrecorded evs' ∧ answered evs' = []) evs
      (run_target crates engine plan ctx limits meter tool tool_name args) := by
  unfold run_target
  split
  · rename_i script_slug htarget
    have hkind : (target_of tool).1 = .Script := by rw [target_of, htarget]
    split
    · exact .done ⟨h.1, answered_of_kept h⟩
    refine (run_script_audited hlimited h).bind ?_
    rintro evs' ⟨result, meter'⟩ h'
    cases result with
    | ok run =>
      refine .done ⟨h'.1.1, ?_⟩
      rw [if_neg (fun hfailed => hfailed.2 rfl)]
      exact h'
    | error e =>
      refine .done ⟨h', ?_⟩
      rw [if_pos ⟨hkind, by simp [of_script]⟩]
      rfl
  · rename_i slug htarget
    have hkind : (target_of tool).1 ≠ .Script := by simp [target_of, htarget]
    refine (run_batch_audited h).bind ?_
    rintro evs' ⟨batch, meter'⟩ ⟨hkept, hindexed, hlen⟩
    refine .done ⟨hkept.1, ?_⟩
    rw [if_neg (fun hfailed => hkind hfailed.1)]
    refine ⟨hkept, hindexed, ?_⟩
    rw [of_batch, hlen]
    exact Nat.one_lt_two_pow (by decide)

end

/-- The run was written, and nothing was done after. -/
def Finished (evs : List RunEvent) : Prop :=
  ∃ before run calls answer, evs = snoc before ⟨.create_run run calls, answer⟩ ∧ Unrecorded before ∧
    Recordable before run calls

section

variable {crates : Crates} {engine : Engine} {executor : Executor} {plan : EndpointPlan}
  {tool : PlannedTool} {tool_name : String} {args : Value} {caller_kind : RunCallerKind}
  {caller_id : String} {evs : List RunEvent}

theorem load_audited (h : Kept evs []) :
    Audits (fun evs' _ => Kept evs' []) evs (AuthProviders.load plan) := by
  have hcalls : ∀ (calls : List PlannedApiCall) (map : AuthProviders) {evs : List RunEvent},
      Kept evs [] → Audits (fun evs' _ => Kept evs' []) evs (AuthProviders.load_from plan calls map) := by
    intro calls
    induction calls with
    | nil => exact fun _ _ h => .done h
    | cons planned calls ih =>
      intro map evs h
      unfold AuthProviders.load_from
      split
      · exact ih _ h
      rw [Run.provider_bind]
      refine .ask trivial fun answer => ?_
      have h := h.quiet (e := ⟨.provider plan.owner_id planned.service.slug, answer⟩) (by simp) rfl
      split
      · exact .done h
      · exact ih _ h
      · exact ih _ h
  exact hcalls _ _ h

theorem finish_audited {started : Instant} {run : TargetRun} {meter : BudgetMeter}
    (h : Unrecorded evs) (hrun : if (target_of tool).1 = .Script ∧ run.status ≠ .Ok then
      run.entries = [] else Complete evs run.entries) :
    Audits (fun evs' _ => Finished evs') evs
      (finish crates plan tool caller_kind caller_id args started run meter) := by
  unfold finish
  rw [Run.new_v4_bind]
  refine .ask trivial fun request_id => ?_
  rw [Run.now_bind]
  refine .ask trivial fun now => ?_
  unfold record
  rw [Run.create_run_bind]
  generalize hevs : snoc (snoc evs _) _ = evs'
  have hunrecorded : Unrecorded evs' := by
    rw [← hevs]
    exact (h.snoc (by simp)).snoc (by simp)
  have hrecordable : ∀ record : RunRecord, record.tool = tool → record.status = run.status →
      record.entries = run.entries →
      Recordable evs' (new_run crates record) (run.entries.filterMap (new_run_call crates)) := by
    intro record htool hstatus hentries
    unfold Recordable
    simp only [new_run, htool, hstatus]
    split
    · rename_i hfailed
      rw [if_pos hfailed] at hrun
      rw [hrun, List.filterMap_nil]
    · rename_i hfailed
      rw [if_neg hfailed] at hrun
      refine Complete.recordable ⟨?_, hrun.2⟩
      rw [← hevs]
      exact (hrun.1.quiet (by simp) rfl).quiet (by simp) rfl
  refine .ask ⟨hunrecorded, hrecordable _ rfl rfl rfl⟩ fun answer => ?_
  have hfinished : Finished (snoc evs' ⟨.create_run _ _, answer⟩) :=
    ⟨evs', _, _, answer, rfl, hunrecorded, hrecordable _ rfl rfl rfl⟩
  split
  · exact .done hfinished
  · exact .done hfinished

theorem run_tool_audited (hlimited : Limited engine) :
    Audits (fun evs' _ => Finished evs' ∨ Unrecorded evs' ∧ answered evs' = []) []
      (executor.run_tool crates engine plan tool_name args caller_kind caller_id) := by
  have hnothing : Kept [] [] := ⟨by simp [Unrecorded], [], .nil, rfl⟩
  unfold Executor.run_tool
  rw [Run.now_bind]
  refine .ask trivial fun started => ?_
  have h := hnothing.quiet (e := ⟨.now, started⟩) (by simp) rfl
  split
  · exact .done (.inr ⟨h.1, answered_of_kept h⟩)
  refine (load_audited h).bind fun evs auth h => ?_
  split
  · exact .done (.inr ⟨h.1, answered_of_kept h⟩)
  dsimp only
  rw [Run.now_bind]
  refine .ask trivial fun now => ?_
  have h := h.quiet (e := ⟨.now, now⟩) (by simp) rfl
  rw [Run.utc_now_bind]
  refine .ask trivial fun utc_now => ?_
  have h := h.quiet (e := ⟨.utc_now, utc_now⟩) (by simp) rfl
  refine (run_target_audited hlimited h).bind ?_
  rintro evs' ⟨result, meter⟩ h'
  cases result with
  | error e => exact .done (.inr h')
  | ok run => exact (finish_audited h'.1 h'.2).imp fun _ _ hfinished => .inl hfinished

/-- A run that is not recorded is audited only if there is nothing to record. -/
theorem audited_unrecorded_iff (h : Unrecorded evs) :
    Audited evs ↔ answered evs = [] ∨ Intact evs := by
  have hintact : ¬ Intact evs := by
    rintro ⟨⟨run, calls, id, hmem, _⟩, _⟩
    exact h _ hmem run calls rfl
  rw [Audited, h.recorded, List.forall₂_nil_right_iff]
  simp [hintact]

theorem Finished.audited_iff (h : Finished evs) : Audited evs ↔ answered evs = [] ∨ Intact evs := by
  obtain ⟨before, run, calls, answer, rfl, hunrecorded, hrecordable⟩ := h
  have hanswered : answered (snoc before ⟨.create_run run calls, answer⟩) = answered before := by
    rw [answered_snoc]
    exact List.append_nil _
  cases answer with
  | error e =>
    -- the insert failed
    have hrecorded : recorded (snoc before ⟨.create_run run calls, .error e⟩) = [] := by
      rw [recorded, snoc, List.flatMap_append, ← recorded, hunrecorded.recorded]
      rfl
    have hintact : ¬ Intact (snoc before ⟨.create_run run calls, .error e⟩) := by
      rintro ⟨⟨run', calls', id, hmem, _⟩, _⟩
      obtain hmem | hmem := List.mem_append.mp hmem
      · exact hunrecorded _ hmem run' calls' rfl
      · cases List.mem_singleton.mp hmem
    rw [Audited, hrecorded, List.forall₂_nil_right_iff]
    simp [hintact]
  | ok id =>
    have hrecorded : recorded (snoc before ⟨.create_run run calls, .ok id⟩) = calls := by
      rw [recorded, snoc, List.flatMap_append, ← recorded, hunrecorded.recorded]
      exact List.append_nil _
    have hintact : Intact (snoc before ⟨.create_run run calls, .ok id⟩) ↔
        ¬ (run.target_kind = .Script ∧ run.status ≠ .Ok) ∧ ∀ line ∈ answered before, ¬ line.Lost := by
      rw [Intact, hanswered]
      refine and_congr ⟨?_, fun hok => ⟨run, calls, id, List.mem_append_right _ (by simp), hok⟩⟩ Iff.rfl
      rintro ⟨run', calls', id', hmem, hok⟩
      obtain hmem | hmem := List.mem_append.mp hmem
      · exact absurd rfl (hunrecorded _ hmem run' calls')
      · cases List.mem_singleton.mp hmem
        exact hok
    rw [Audited, hintact, hanswered, hrecorded]
    unfold Recordable at hrecordable
    split at hrecordable
    · rename_i hfailed
      rw [hrecordable, List.forall₂_nil_right_iff]
      simp [hfailed]
    · rename_i hfailed
      obtain ⟨htells, hdistinct⟩ := hrecordable
      constructor
      · rintro ⟨hrows, _⟩
        exact .inr ⟨hfailed, htells.kept hrows.length_eq⟩
      · rintro (hnone | ⟨_, hkept⟩)
        · exact ⟨htells.forall₂ (by simp [hnone]), hdistinct⟩
        · exact ⟨htells.forall₂ hkept, hdistinct⟩

/-- A run that is over has a row for every call that got a response exactly when
its rows were written, its script did not fail, and no call failed between two
of its pages. -/
theorem run_tool_audited_iff {rest : Run (Except ExecutorError RunResult)} (hlimited : Limited engine)
    (h : (executor.run_tool crates engine plan tool_name args caller_kind caller_id).Emits evs rest)
    (hover : (∃ result, rest = .done result) ∨ ∃ next, rest = .ask .panic next) :
    Audited evs ↔ answered evs = [] ∨ Intact evs := by
  have hrest := (run_tool_audited hlimited).emits h
  rw [foldl_snoc, List.nil_append] at hrest
  obtain ⟨result, rfl⟩ | ⟨next, rfl⟩ := hover
  · cases hrest with
    | done hpost =>
      obtain hfinished | ⟨hunrecorded, _⟩ := hpost
      · exact hfinished.audited_iff
      · exact audited_unrecorded_iff hunrecorded
  · cases hrest with
    | ask hunrecorded _ => exact audited_unrecorded_iff hunrecorded

end

def scripted_tool : PlannedTool :=
  { name := "report", input_schema := .object [], target := .Script sample_slug, budgets := {} }

/-- An endpoint whose tool is a script that may call `ping`. -/
def scripted_plan : EndpointPlan :=
  { sample_plan with
    tools := [scripted_tool]
    scripts := [(sample_slug,
      { owner_id := 1, slug := sample_slug, source := "", params := []
        callable := [("ping", sample_slug)], budgets := {}, description := none })]
    callable_by := [(sample_slug, [("ping", sample_slug)])] }

/-- A script that calls `ping` once, and then ends. -/
def one_call (result : Except ScriptFailure Value) : Engine := fun _ _ _ _ =>
  .ask (.call ⟨"ping", [.object []]⟩) fun _ => .done result

theorem limited_one_call (result : Except ScriptFailure Value) : Limited (one_call result) :=
  fun _ _ _ _ => ⟨1999999, rfl, fun _ => trivial⟩

/-- A run of the script whose call gets its one page. -/
theorem scripted_run (result : Except ScriptFailure Value) :
    ∃ evs told line run calls id,
      ((Executor.new {}).run_tool sample_crates (one_call result) scripted_plan "report" (.object [])
        .Cli "").Emits evs (.done told) ∧
      answered evs = [line] ∧ line.result = some (.ok sample_outcome) ∧
      (⟨.create_run run calls, .ok id⟩ : RunEvent) ∈ evs ∧ recorded evs = calls ∧
      match result with
      | .ok _ => run.status = .Ok
      | .error _ => calls = [] := by
  let meter : BudgetMeter := BudgetMeter.new {} (0 : Nat) 0
  let admitted : BudgetMeter := { meter with calls_used := meter.calls_used + 1#32 }
  have hping : resolve scripted_plan (some sample_slug) "ping" = .ok sample_planned := rfl
  have hdispatch := sample_dispatched_at hping (0 : Nat) (call_budget admitted none) (by decide) (by decide)
  have hreserve : meter.reserve_calls (0 : Nat) 1#32 = (.ok (), admitted) := rfl
  have hremaining : admitted.remaining_time (0 : Nat) = .ok none := rfl
  let limits := ConcurrencyLimits.build scripted_plan none
  have hlimits : ∀ key n, limits.get key = some n → 0 < n := fun key n hn => ConcurrencyLimits.build_pos hn
  obtain ⟨joined, hown, hresults, hbatch⟩ := run_batch_alone hlimits hreserve hremaining hdispatch
  let batch : List RunEvent := [⟨.now, (0 : Nat)⟩, ⟨.now, (0 : Nat)⟩, ⟨.fan_out _ _, joined⟩]
  have hservice : ∃ ledger, (service sample_crates scripted_plan sample_context limits sample_slug
      (one_call result "" [] none 0) ⟨meter, []⟩).Emits (batch ++ [] ++ []) (.done (result, ledger)) := by
    unfold one_call service service_one
    rw [if_neg (by decide), hping]
    dsimp only
    exact ⟨_, Prog.Emits.bind (hbatch.bind (.nil _)) (.nil _)⟩
  obtain ⟨ledger, hservice⟩ := hservice
  have hdeadline : (wall_clock_deadline meter).Emits [⟨.now, (0 : Nat)⟩] (.done none) := .cons (.nil _)
  have hscript : ∃ run, (match result with
        | .ok _ => (of_script run).status = .Ok
        | .error _ => (of_script run).entries = []) ∧
      (run_target sample_crates (one_call result) scripted_plan sample_context limits meter scripted_tool
        "report" (.object [])).Emits ([⟨.now, (0 : Nat)⟩] ++ (batch ++ [] ++ [] ++ []) ++ [])
          (.done (.ok (of_script run), ledger.meter)) := by
    cases result with
    | ok value =>
      exact ⟨.ok ⟨value, ledger.audit⟩, rfl,
        Prog.Emits.bind (hdeadline.bind (hservice.bind (.nil _))) (.nil _)⟩
    | error failure =>
      exact ⟨.error (.Script failure), rfl,
        Prog.Emits.bind (hdeadline.bind (hservice.bind (.nil _))) (.nil _)⟩
  obtain ⟨run, hends, hscript⟩ := hscript
  have hload : (AuthProviders.load scripted_plan).Emits [⟨.provider 1 sample_slug, .ok none⟩]
      (.done (.ok [])) := .cons (.nil _)
  have htool : scripted_plan.tool "report" = some scripted_tool := rfl
  let record : RunRecord :=
    { plan := scripted_plan, tool := scripted_tool, caller_kind := .Cli, caller_id := "", request_id := ""
      args := .object [], output_redacted := (of_script run).value, status := (of_script run).status
      entries := (of_script run).entries, meter := ledger.meter, elapsed := some 0 }
  have hrun := run_tool_emits sample_crates (one_call result) (Executor.new {}) .Cli "" htool (0 : Nat)
    (0 : Nat) 0 hload hscript "" (0 : Nat) 0
  have hslots : joined.last.slots = [some (.ok sample_outcome)] := Together.results_eq_some.mp hresults
  have hline : (lines_of joined).filter Line.answered =
      [⟨own 0 joined.moves, some (.ok sample_outcome)⟩] := by
    rw [lines_of, hslots, List.mapIdx_singleton, hown]
    rfl
  refine ⟨_, _, ⟨own 0 joined.moves, some (.ok sample_outcome)⟩, new_run sample_crates record,
    record.entries.filterMap (new_run_call sample_crates), 0, hrun, ?_, rfl, ?_, ?_, ?_⟩
  · simp only [answered, List.flatMap_cons, List.flatMap_append, batch, hline]
    rfl
  · simp [record]
  · exact List.append_nil _
  · cases result with
    | ok value => exact hends
    | error failure => exact congrArg (List.filterMap (new_run_call sample_crates)) hends

/-- A script that ends well leaves a row for its call. -/
theorem scripted_run_audited :
    ∃ evs result, ((Executor.new {}).run_tool sample_crates (one_call (.ok .null)) scripted_plan "report"
        (.object []) .Cli "").Emits evs (.done result) ∧
      answered evs ≠ [] ∧ Audited evs := by
  obtain ⟨evs, told, line, run, calls, id, hrun, hanswered, hline, hwritten, hrows, hends⟩ :=
    scripted_run (.ok .null)
  refine ⟨evs, _, hrun, by simp [hanswered],
    (run_tool_audited_iff (limited_one_call _) hrun (.inl ⟨_, rfl⟩)).mpr (.inr ⟨⟨run, calls, id, hwritten, ?_⟩, ?_⟩)⟩
  · exact fun hfailed => hfailed.2 hends
  · rw [hanswered]
    rintro _ hmem ⟨failure, hlost⟩
    rw [List.mem_singleton.mp hmem, hline] at hlost
    cases hlost

def script_failed : ScriptFailure where
  kind := .Runtime
  message := "Runtime error"
  line := some 2
  column := some 1
  snippet := none

/-- A script that fails after a call that got its response leaves no row for the
call. -/
theorem failed_script_unaudited :
    Limited (one_call (.error script_failed)) ∧
    ∃ evs result, ((Executor.new {}).run_tool sample_crates (one_call (.error script_failed)) scripted_plan
        "report" (.object []) .Cli "").Emits evs (.done result) ∧
      (answered evs).length = 1 ∧ recorded evs = [] ∧ ¬ Audited evs := by
  refine ⟨limited_one_call _, ?_⟩
  obtain ⟨evs, told, line, run, calls, id, hrun, hanswered, _, _, hrows, hends⟩ :=
    scripted_run (.error script_failed)
  obtain rfl : calls = [] := hends
  refine ⟨evs, _, hrun, by rw [hanswered]; rfl, hrows, ?_⟩
  rintro ⟨hforall, _⟩
  rw [hanswered, hrows] at hforall
  cases hforall

end api2mcp.runtime
