import Api2Mcp.Net.Form
import Api2Mcp.Runtime.HttpStatus
import Api2Mcp.Runtime.Kinds
import Api2Mcp.Runtime.Stop

namespace api2mcp.runtime

open btree interact relational serde_json
open api2mcp.entity api2mcp.http api2mcp.model api2mcp.resolve api2mcp.script api2mcp.store
open api2mcp.runtime.budget api2mcp.runtime.dispatch api2mcp.runtime.fanout api2mcp.runtime.batch
open api2mcp.runtime.recorder

/-! What the columns take of a record. -/

theorem is_text_slug (slug : Slug) : is_text slug.as_str = true := by
  have hchars := slug.chars
  rw [List.all_eq_true] at hchars
  rw [is_text, Bool.not_eq_true', ← Bool.not_eq_true, List.contains_iff_mem]
  exact fun hmem => absurd (hchars NUL hmem) (by decide)

theorem is_integer_toInt (n : BitVec 32) : is_integer n.toInt = true := by
  have hle := n.le_toInt
  have hlt := n.toInt_lt
  simp only [is_integer, Bool.and_eq_true, decide_eq_true_eq]
  omega

theorem is_bigint_toInt (n : BitVec 64) : is_bigint n.toInt = true := by
  have hle := n.le_toInt
  have hlt := n.toInt_lt
  simp only [is_bigint, Bool.and_eq_true, decide_eq_true_eq]
  omega

theorem is_jsonb_of_option {α : Type} {f : α → Value} (h : ∀ a, is_jsonb (f a) = true) (o : Option α) :
    is_jsonb (.of_option f o) = true := by
  cases o with
  | none => rfl
  | some a => exact h a

/-- The counters of a meter and its limits are numbers. -/
theorem is_jsonb_snapshot_json (meter : BudgetMeter) : is_jsonb (snapshot_json meter) = true := by
  have hword : ∀ {w : Nat} (n : Option (BitVec w)),
      is_jsonb (.of_option (fun n => .of_nat n.toNat) n) = true := fun n =>
    is_jsonb_of_option (fun _ => rfl) n
  rw [snapshot_json, is_jsonb_json (by simp)]
  simp only [List.forall_mem_cons, hword]
  simp [is_text, NUL, Value.of_nat]

theorem is_jsonb_errors_json (crates : Crates) (entries : List BatchEntry) :
    (errors_json crates entries).all is_jsonb = true ↔ ∀ entry ∈ entries, entry.outcome.is_ok = false →
      is_text entry.name = true ∧ is_jsonb (entry.error_value crates.url) = true := by
  have hentry : ∀ entry : BatchEntry, is_jsonb (.json [("index", .of_nat entry.index),
      ("name", .string entry.name), ("error", entry.error_value crates.url)]) = true ↔
        is_text entry.name = true ∧ is_jsonb (entry.error_value crates.url) = true := by
    intro entry
    rw [is_jsonb_json (by simp)]
    simp [is_text, NUL, Value.of_nat]
  have hall : is_jsonb (.array ((entries.filter fun e => !e.outcome.is_ok).map fun e =>
      .json [("index", .of_nat e.index), ("name", .string e.name), ("error", e.error_value crates.url)])) = true ↔
        ∀ entry ∈ entries, entry.outcome.is_ok = false →
          is_text entry.name = true ∧ is_jsonb (entry.error_value crates.url) = true := by
    rw [is_jsonb_array, List.forall_mem_map]
    simp only [List.mem_filter, Bool.not_eq_true', and_imp, hentry]
  unfold errors_json
  dsimp only
  rw [← hall]
  split
  · rename_i hempty
    rw [List.isEmpty_iff.mp hempty]
    exact iff_of_true rfl rfl
  · exact Iff.rfl

/-- The texts of a redacted header are visible, or stand for one that is not. -/
theorem is_text_redact_header (name : net.HeaderName) (values : List net.HeaderValue) :
    is_text (redact_header name values) = true := by
  have hvalue : ∀ v : net.HeaderValue, NUL ∉ (v.to_str.getD "<non-utf8>").toList := by
    intro v
    unfold net.HeaderValue.to_str
    split
    · rename_i hall
      rw [Option.getD_some, String.toList_ofList, List.mem_map]
      rintro ⟨b, hb, hchar⟩
      have hvisible := List.all_eq_true.mp hall b hb
      have hvalid : b.toNat.isValidChar := .inl (b.toNat_lt.trans (by decide))
      have hnat : (Char.ofNat b.toNat).toNat = b.toNat := by
        rw [Char.ofNat, dif_pos hvalid]
        rfl
      rw [hchar] at hnat
      obtain rfl : b = 0 := UInt8.toNat_inj.mp hnat.symm
      exact absurd hvisible (by decide)
    · decide
  unfold redact_header
  split
  · decide
  · rw [is_text, Bool.not_eq_true', ← Bool.not_eq_true, List.contains_iff_mem, String.toList_intercalate]
    intro hmem
    obtain hsep | ⟨text, htext, hmem⟩ := form_urlencoded.of_mem_intercalate hmem
    · exact absurd hsep (by decide)
    · obtain ⟨s, hs, rfl⟩ := List.mem_map.mp htext
      obtain ⟨v, _, rfl⟩ := List.mem_map.mp hs
      exact hvalue v hmem

/-- What is kept of the requests that went out for an entry: the method, and the
pages. -/
def attempted (entry : BatchEntry) : Option (net.Method × List CallResponse) :=
  match entry.outcome with
  | .Ok o => some (o.method, o.pages)
  | .BudgetCut _ o => some (o.method, o.pages)
  | .Failed e => e.attempt.map fun a => (a.method, a.pages)
  | .NotAttempted _ => none

/-- No text of the pages has the character U+0000: the URL of the first, the names
of the headers of the last, and its body where that is JSON. -/
structure PagesNulFree (crates : Crates) (pages : List CallResponse) : Prop where
  url : ∀ page ∈ pages.head?, is_text (redact_url page.url) = true
  headers : ∀ page ∈ pages.getLast?, ∀ header ∈ page.headers, is_text header.1.as_str = true
  body : ∀ page ∈ pages.getLast?, ∀ value, crates.json.from_slice page.body = .ok value →
    is_jsonb value = true

/-- No text of what is handed over for the record has the character U+0000. -/
structure NulFree (crates : Crates) (record : RunRecord) : Prop where
  tool_name : is_text record.tool.name = true
  definition_digest : is_text record.plan.digest = true
  definition_snapshot : is_jsonb (snapshot.build_snapshot record.plan record.tool) = true
  caller_id : is_text record.caller_id = true
  request_id : is_text record.request_id = true
  args : is_jsonb record.args = true
  output : ∀ value ∈ record.output_redacted, is_jsonb value = true
  failed : ∀ entry ∈ record.entries, entry.outcome.is_ok = false →
    is_text entry.name = true ∧ is_jsonb (entry.error_value crates.url) = true
  attempted : ∀ entry ∈ record.entries, ∀ attempt ∈ attempted entry,
    is_text attempt.1.as_str = true ∧ PagesNulFree crates attempt.2

section

variable {crates : Crates} {record : RunRecord} {entry : BatchEntry}

/-- The row of a run is taken when its texts are. -/
theorem new_run_accepted_iff (draws : run.Draws) :
    (run.run_row draws (new_run crates record)).accepted = true ↔
      (is_text record.tool.name = true ∧ is_text record.caller_id = true ∧
        is_text record.request_id = true ∧ is_text record.plan.digest = true) ∧
      is_jsonb (snapshot.build_snapshot record.plan record.tool) = true ∧ is_jsonb record.args = true ∧
      (∀ value, record.output_redacted = some value → is_jsonb value = true) ∧
      ∀ entry ∈ record.entries, entry.outcome.is_ok = false →
        is_text entry.name = true ∧ is_jsonb (entry.error_value crates.url) = true := by
  have htarget : is_text (run.target_kind_to_str (target_of record.tool).1) = true ∧
      ["api_call", "script"].contains (run.target_kind_to_str (target_of record.tool).1) = true := by
    cases (target_of record.tool).1 <;> decide
  have hcaller : is_text (run.caller_kind_to_str record.caller_kind) = true ∧
      ["session", "oauth", "service_token", "cli"].contains
        (run.caller_kind_to_str record.caller_kind) = true := by
    cases record.caller_kind <;> decide
  have hstatus : is_text (run.status_to_str record.status) = true ∧
      ["ok", "partial", "error", "denied", "budget_exceeded", "timeout"].contains
        (run.status_to_str record.status) = true := by
    cases record.status <;> decide
  have htimings : ((record.elapsed.map fun d => Value.json [("elapsed_ms", .of_nat (d / 1000))]).all is_jsonb) =
      true := by
    cases record.elapsed with
    | none => rfl
    | some d =>
      show is_jsonb (.json _) = true
      rw [is_jsonb_json (by simp)]
      simp [is_text, NUL, Value.of_nat]
  rw [← is_jsonb_errors_json]
  simp only [runs.Model.accepted, run.run_row, new_run, List.all_cons, List.all_nil, Bool.and_eq_true,
    Bool.and_true, is_text_slug, is_integer_toInt, is_bigint_toInt, htarget, hcaller, hstatus, htimings,
    is_jsonb_snapshot_json, Option.all_some, Option.all_eq_true, true_and]

/-- The redacted headers have the names of the headers. -/
theorem is_jsonb_redact_headers (headers : net.HeaderMap) :
    is_jsonb (digest.string_map_json (redact_headers headers)) = true ↔
      ∀ header ∈ headers, is_text header.1.as_str = true := by
  have hkeys : (((redact_headers headers).map fun kv => (kv.1, Value.string kv.2)).map Prod.fst).Nodup := by
    have hnames : ((redact_headers headers).map fun kv => (kv.1, Value.string kv.2)).map Prod.fst =
        (headers.map (·.1)).dedup.map (·.as_str) := by
      simp [redact_headers]
    rw [hnames]
    refine (List.nodup_dedup _).map fun a b h => ?_
    obtain ⟨a⟩ := a
    obtain ⟨b⟩ := b
    exact congrArg _ h
  rw [digest.string_map_json, is_jsonb_json hkeys]
  simp only [redact_headers, List.map_map, List.forall_mem_map, Function.comp_apply, is_jsonb_string,
    is_text_redact_header, and_true, List.mem_dedup]

/-- The row of a call is taken when its method, its error and its pages are. -/
theorem call_row_accepted_iff (draws : run.Draws) (i index : Nat) (api_call_slug service_slug : Slug)
    (method : net.Method) (pages : List CallResponse) (error : Option String) :
    (run.call_row draws i (row_from_pages crates index api_call_slug service_slug method pages error)).accepted =
        true ↔
      is_text method.as_str = true ∧ (∀ text, error = some text → is_text text = true) ∧
        PagesNulFree crates pages := by
  have hurl : is_text ((pages.head?.map fun p => redact_url p.url).getD "") = true ↔
      ∀ page ∈ pages.head?, is_text (redact_url page.url) = true := by
    cases pages.head? with
    | none => simp [is_text]
    | some page => simp
  have hheaders : (∀ header ∈ (pages.getLast?.map (·.headers)).getD [], is_text header.1.as_str = true) ↔
      ∀ page ∈ pages.getLast?, ∀ header ∈ page.headers, is_text header.1.as_str = true := by
    cases pages.getLast? with
    | none => simp
    | some page => simp
  have hbody : (∀ value, (pages.getLast?.bind fun p => (crates.json.from_slice p.body).toOption) = some value →
        is_jsonb value = true) ↔
      ∀ page ∈ pages.getLast?, ∀ value, crates.json.from_slice page.body = .ok value → is_jsonb value = true := by
    cases pages.getLast? with
    | none => simp
    | some page =>
      cases hparse : crates.json.from_slice page.body with
      | error e => simp [hparse, Except.toOption]
      | ok value => simp [hparse, Except.toOption]
  have hstatus : ∀ code, ((pages.getLast?.map fun p => p.status.as_u16).map Int.ofNat) = some code →
      is_integer code = true := by
    intro code hcode
    obtain ⟨_, hstatus, rfl⟩ := Option.map_eq_some_iff.mp hcode
    obtain ⟨page, _, rfl⟩ := Option.map_eq_some_iff.mp hstatus
    have hlt := page.status.valid.2
    simp only [is_integer, Bool.and_eq_true, decide_eq_true_eq, Int.ofNat_eq_natCast]
    omega
  simp only [run_calls.Model.accepted, run.call_row, row_from_pages, List.all_cons, List.all_nil,
    Bool.and_eq_true, Bool.and_true, Option.all_some, is_text_slug, is_integer_toInt, is_bigint_toInt,
    is_jsonb_redact_headers, Option.all_none, Option.all_eq_true, Option.map_some, true_and]
  rw [hurl, hheaders, hbody]
  constructor
  · rintro ⟨⟨⟨hmethod, hurl, herror⟩, hheaders, hbody⟩, _⟩
    exact ⟨hmethod, herror, hurl, hheaders, hbody⟩
  · rintro ⟨hmethod, herror, hurl, hheaders, hbody⟩
    exact ⟨⟨⟨hmethod, hurl, herror⟩, hheaders, hbody⟩, hstatus⟩

/-- The text of an error is part of its object. -/
theorem is_text_redact_message {e : DispatchError} {crate : net.UrlCrate}
    (h : is_jsonb (dispatch_error_object crate e) = true) :
    is_text (redact_message crate e.to_string) = true := by
  have hget := Value.get_json_last "message" (.string (redact_message crate e.to_string))
    (e.fields.getD [("kind", .string "internal")])
  rw [dispatch_error_object, Value.json_eq, is_jsonb_iff, Value.forall_texts_object] at h
  rw [Value.json_eq] at hget
  obtain ⟨_, htexts⟩ := h _ (Map.mem_of_get hget)
  exact htexts _ (List.mem_singleton_self _)

/-- The row of an entry, whose error is taken, is taken when its pages are. -/
theorem new_run_call_accepted_iff (draws : run.Draws)
    (hfailed : entry.outcome.is_ok = false → is_jsonb (entry.error_value crates.url) = true) :
    (∀ call, new_run_call crates entry = some call → (run.call_row draws 0 call).accepted = true) ↔
      ∀ attempt, attempted entry = some attempt →
        is_text attempt.1.as_str = true ∧ PagesNulFree crates attempt.2 := by
  obtain ⟨index, name, outcome⟩ := entry
  cases outcome with
  | Ok o => simp [new_run_call, attempted, call_row_accepted_iff]
  | BudgetCut axis o =>
    have haxis : is_text ("budget exceeded: " ++ axis.debug) = true := by
      cases axis <;> decide
    simp [new_run_call, attempted, call_row_accepted_iff, haxis]
  | NotAttempted axis => simp [new_run_call, attempted]
  | Failed e =>
    have hmessage := is_text_redact_message (hfailed rfl)
    cases hattempt : e.attempt with
    | none => simp [new_run_call, attempted, hattempt]
    | some attempt => simp [new_run_call, attempted, hattempt, call_row_accepted_iff, hmessage]

/-- The tables take a record when its owner stands, no two calls have one number,
and none of its texts has the character U+0000. -/
theorem accepts_iff (draws : run.Draws) (rows : AuditRows) :
    run.Accepts draws rows (new_run crates record) (record.entries.filterMap (new_run_call crates)) ↔
      (∃ user ∈ rows.users.rows, user.id = record.plan.owner_id) ∧
      (record.entries.filterMap (new_run_call crates)).Pairwise (fun a b => a.seq ≠ b.seq) ∧
      NulFree crates record := by
  have hcalls : (∀ row ∈ run.call_rows draws (record.entries.filterMap (new_run_call crates)),
        row.accepted = true) ↔
      ∀ entry ∈ record.entries, ∀ call, new_run_call crates entry = some call →
        (run.call_row draws 0 call).accepted = true := by
    constructor
    · intro h entry hentry call hcall
      have hmem := List.mem_filterMap.mpr ⟨entry, hentry, hcall⟩
      obtain ⟨i, hi, rfl⟩ := List.getElem_of_mem hmem
      have hrow := h _ (List.mem_mapIdx.mpr ⟨i, hi, rfl⟩)
      exact hrow
    · intro h row hrow
      obtain ⟨i, hi, rfl⟩ := List.mem_mapIdx.mp hrow
      obtain ⟨entry, hentry, hcall⟩ := List.mem_filterMap.mp (List.getElem_mem hi)
      exact h entry hentry _ hcall
  constructor
  · rintro ⟨howner, hapart, hrun, hrows⟩
    obtain ⟨⟨htool, hcaller, hrequest, hdigest⟩, hsnapshot, hargs, houtput, hfailed⟩ :=
      (new_run_accepted_iff draws).mp hrun
    refine ⟨howner, hapart, htool, hdigest, hsnapshot, hcaller, hrequest, hargs, houtput, hfailed, ?_⟩
    intro entry hentry
    exact (new_run_call_accepted_iff draws fun hnot => (hfailed entry hentry hnot).2).mp
      (hcalls.mp hrows entry hentry)
  · rintro ⟨howner, hapart, htool, hdigest, hsnapshot, hcaller, hrequest, hargs, houtput, hfailed, hattempted⟩
    refine ⟨howner, hapart, (new_run_accepted_iff draws).mpr ?_, hcalls.mpr fun entry hentry => ?_⟩
    · exact ⟨⟨htool, hcaller, hrequest, hdigest⟩, hsnapshot, hargs, houtput, hfailed⟩
    · exact (new_run_call_accepted_iff draws fun hnot => (hfailed entry hentry hnot).2).mpr
        (hattempted entry hentry)

end

/-- The calls of every batch came to an end. -/
def Whole (evs : List RunEvent) : Prop :=
  ∀ limits calls (joined : Joined limits calls), (⟨.fan_out limits calls, joined⟩ : RunEvent) ∈ evs →
    joined.last.results ≠ none

/-- A run panics only where a call of it did, and asks for nothing else there. -/
def AsksWhole (evs : List RunEvent) : RunQuestion → Prop
  | .panic => ¬ Whole evs
  | _ => Whole evs

abbrev Ends {α : Type} (evs : List RunEvent) (p : Run α) : Prop :=
  p.Safe snoc AsksWhole (fun evs' _ => Whole evs') evs

section

variable {crates : Crates} {engine : Engine} {executor : Executor} {plan : EndpointPlan} {ctx : DispatchContext}
  {limits : ConcurrencyLimits} {meter : BudgetMeter} {tool : PlannedTool} {tool_name : String} {args : Value}
  {evs : List RunEvent}

theorem Whole.quiet (h : Whole evs) {e : RunEvent} (he : ∀ limits calls, e.question ≠ .fan_out limits calls) :
    Whole (snoc evs e) := by
  intro limits calls joined hmem
  obtain hmem | hmem := List.mem_append.mp hmem
  · exact h limits calls joined hmem
  · obtain rfl := List.mem_singleton.mp hmem
    exact absurd rfl (he limits calls)

theorem whole_snoc (h : Whole evs) {limits : ConcurrencyLimits} {calls : List BoxedCall}
    {joined : Joined limits calls} :
    Whole (snoc evs ⟨.fan_out limits calls, joined⟩) ↔ joined.last.results ≠ none := by
  constructor
  · exact fun hwhole => hwhole _ _ joined (List.mem_append_right _ (List.mem_singleton_self _))
  · intro hresults limits' calls' joined' hmem
    obtain hmem | hmem := List.mem_append.mp hmem
    · exact h _ _ _ hmem
    · cases List.mem_singleton.mp hmem
      exact hresults

theorem run_batch_ends {caller_script : Option Slug} {items : List (String × Value)} (h : Whole evs) :
    Ends evs (run_batch crates plan ctx limits meter caller_script items) := by
  unfold run_batch
  split
  · exact .done h
  rw [Run.now_bind]
  refine .ask h fun reserved => ?_
  have h := h.quiet (e := ⟨.now, reserved⟩) (by simp)
  split
  · exact .done h
  rw [Run.now_bind]
  refine .ask h fun measured => ?_
  have h := h.quiet (e := ⟨.now, measured⟩) (by simp)
  split
  · exact .done h
  simp only [fan_out, Run.join_bind, Prog.ask_bind]
  refine .ask h fun joined => ?_
  split
  · rename_i results hresults
    exact .done ((whole_snoc h).mpr (by simp [hresults]))
  · rename_i hnone
    rw [Run.panicked_bind]
    exact .ask (fun hwhole => (whole_snoc h).mp hwhole hnone) (by rintro ⟨⟩)

/-- By induction on the script. -/
theorem service_ends {α : Type} {script_slug : Slug} (script : Script α) {ledger : Ledger} (h : Whole evs) :
    Ends evs (service crates plan ctx limits script_slug script ledger) := by
  induction script generalizing ledger evs with
  | done a => exact .done h
  | ask q next ih =>
    cases q with
    | now => exact .ask h fun now => ih now (h.quiet (by simp))
    | call call =>
      unfold service
      have hone : Ends evs (service_one crates plan ctx limits script_slug call ledger) := by
        unfold service_one
        split
        · exact .done h
        split
        · exact .done h
        exact (run_batch_ends h).bind fun _ _ h' => .done h'
      exact hone.bind fun _ result h' => ih result.1 h'

theorem run_target_ends (h : Whole evs) :
    Ends evs (run_target crates engine plan ctx limits meter tool tool_name args) := by
  unfold run_target
  split
  · split
    · exact .done h
    unfold run_script
    split
    · exact .done h
    have hdeadline : Ends evs (wall_clock_deadline meter) := by
      unfold wall_clock_deadline
      rw [Run.now_bind]
      refine .ask h fun now => ?_
      have h := h.quiet (e := ⟨.now, now⟩) (by simp)
      split
      · exact .ask h fun now => .done (h.quiet (by simp))
      · exact .done h
      · exact .ask h fun now => .done (h.quiet (by simp))
    refine (hdeadline.bind fun evs' deadline h' => ?_).bind fun _ _ h' => .done h'
    refine (service_ends _ h').bind ?_
    rintro evs'' ⟨result, ledger⟩ h''
    dsimp only
    split
    · exact .done h''
    · exact .done h''
  · exact (run_batch_ends h).bind fun _ _ h' => .done h'

theorem load_ends (h : Whole evs) : Ends evs (AuthProviders.load plan) := by
  have hcalls : ∀ (calls : List PlannedApiCall) (map : AuthProviders) {evs : List RunEvent},
      Whole evs → Ends evs (AuthProviders.load_from plan calls map) := by
    intro calls
    induction calls with
    | nil => exact fun _ _ h => .done h
    | cons planned calls ih =>
      intro map evs h
      unfold AuthProviders.load_from
      split
      · exact ih _ h
      rw [Run.provider_bind]
      refine .ask h fun answer => ?_
      have h := h.quiet (e := ⟨.provider plan.owner_id planned.service.slug, answer⟩) (by simp)
      split
      · exact .done h
      · exact ih _ h
      · exact ih _ h
  exact hcalls _ _ h

theorem run_tool_ends {caller_kind : RunCallerKind} {caller_id : String} :
    Ends [] (executor.run_tool crates engine plan tool_name args caller_kind caller_id) := by
  have hnothing : Whole [] := by simp [Whole]
  unfold Executor.run_tool
  rw [Run.now_bind]
  refine .ask hnothing fun started => ?_
  have h := hnothing.quiet (e := ⟨.now, started⟩) (by simp)
  split
  · exact .done h
  refine (load_ends h).bind fun evs auth h => ?_
  split
  · exact .done h
  dsimp only
  rw [Run.now_bind]
  refine .ask h fun now => ?_
  have h := h.quiet (e := ⟨.now, now⟩) (by simp)
  rw [Run.utc_now_bind]
  refine .ask h fun utc_now => ?_
  have h := h.quiet (e := ⟨.utc_now, utc_now⟩) (by simp)
  refine (run_target_ends h).bind ?_
  rintro evs' ⟨result, meter⟩ h
  dsimp only
  split
  · exact .done h
  unfold finish
  rw [Run.new_v4_bind]
  refine .ask h fun request_id => ?_
  have h := h.quiet (e := ⟨.new_v4, request_id⟩) (by simp)
  rw [Run.now_bind]
  refine .ask h fun now => ?_
  have h := h.quiet (e := ⟨.now, now⟩) (by simp)
  unfold record
  rw [Run.create_run_bind]
  refine .ask h fun answer => ?_
  have h := h.quiet (e := ⟨.create_run _ _, answer⟩) (by simp)
  split
  · exact .done h
  · exact .done h

/-- A call of the run panicked on its pages. -/
def Panicked (crates : Crates) (plan : EndpointPlan) (evs : List RunEvent) : Prop :=
  ∃ limits calls, ∃ joined : Joined limits calls, (⟨.fan_out limits calls, joined⟩ : RunEvent) ∈ evs ∧
    ∃ i service_slug ctx caller_script name args budget,
      calls[i]? = some (service_slug, dispatch crates plan ctx caller_script name args budget) ∧
      Uncut crates plan ctx caller_script name args budget (own i joined.moves)

/-- The calls of a batch that is not whole. -/
theorem uncut_of_joined {caller_script : Option Slug} {budget : CallBudget} {items : List (String × Value)}
    {calls : List BoxedCall} (hcalls : calls = fan_items crates plan ctx caller_script budget items)
    {joined : Joined limits calls} (hresults : joined.last.results = none) :
    ∃ i service_slug name args,
      calls[i]? = some (service_slug, dispatch crates plan ctx caller_script name args budget) ∧
      Uncut crates plan ctx caller_script name args budget (own i joined.moves) := by
  have htracks := Together.tracks joined.path
  obtain hcomplete | ⟨key, p, hmem, hstuck⟩ := joined.joined
  · obtain ⟨results, hsome⟩ := htracks.results hcomplete
    rw [hresults] at hsome
    cases hsome
  · obtain ⟨i, hi, hlane⟩ := List.getElem_of_mem hmem
    obtain ⟨call, slot, hitem, _, hemits, _⟩ := htracks.item (List.getElem?_eq_some_iff.mpr ⟨hi, hlane⟩)
    have hfan := hitem
    rw [hcalls] at hfan
    obtain ⟨name, args, _, rfl⟩ := getElem?_fan_items hfan
    exact ⟨i, key, name, args, hitem, (stuck_iff_uncut hemits).mp hstuck⟩

theorem not_whole_of_panicked (h : Panicked crates plan evs) : ¬ Whole evs := by
  obtain ⟨limits, calls, joined, hmem, i, service_slug, ctx, caller_script, name, args, budget, hcall, huncut⟩ := h
  intro hwhole
  have htracks := Together.tracks joined.path
  obtain ⟨lane, slot, hlane, hslot, hfollows⟩ := htracks.lane i _ _ hcall
  cases lane with
  | queued p =>
    obtain ⟨_, hnone, _⟩ := hfollows
    obtain ⟨_, _, _, _, _, _, _, _, _, _, hevs, _⟩ := huncut
    rw [hnone] at hevs
    cases hevs
  | running p =>
    have hstuck := (stuck_iff_uncut hfollows.1).mpr huncut
    exact hwhole _ _ joined hmem (htracks.no_results ⟨_, p, List.mem_of_getElem? hlane, hstuck⟩)
  | finished =>
    obtain ⟨a, hemits, _⟩ := hfollows
    exact (stuck_iff_uncut hemits).mpr huncut

/-- A tool that is not on the plan makes no batch. -/
theorem missing_joinless {caller_kind : RunCallerKind} {caller_id : String} (htool : plan.tool tool_name = none) :
    (executor.run_tool crates engine plan tool_name args caller_kind caller_id).AllAsks Joinless := by
  unfold Executor.run_tool
  rw [htool]
  exact .ask trivial fun _ => .done _

/-- A run that is over came to its end exactly where no call of it panicked. -/
theorem panicked_iff {caller_kind : RunCallerKind} {caller_id : String} {rest : Run (Except ExecutorError RunResult)}
    (h : (executor.run_tool crates engine plan tool_name args caller_kind caller_id).Emits evs rest)
    (hover : (∃ result, rest = .done result) ∨ ∃ next, rest = .ask .panic next) :
    (∃ result, rest = .done result) ↔ ¬ Panicked crates plan evs := by
  have hrest := run_tool_ends.emits h
  rw [foldl_snoc, List.nil_append] at hrest
  obtain ⟨result, rfl⟩ | ⟨next, rfl⟩ := hover
  · cases hrest with
    | done hwhole => exact iff_of_true ⟨result, rfl⟩ fun hpanicked => not_whole_of_panicked hpanicked hwhole
  · refine iff_of_false (by rintro ⟨_, ⟨⟩⟩) (not_not.mpr ?_)
    cases hrest with
    | ask hbroken _ =>
      have hcut : ∃ limits calls, ∃ joined : Joined limits calls, (⟨.fan_out limits calls, joined⟩ : RunEvent) ∈ evs ∧
          joined.last.results = none := by
        by_contra hnone
        push_neg at hnone
        exact hbroken hnone
      obtain ⟨limits, calls, joined, hmem, hresults⟩ := hcut
      cases htool : plan.tool tool_name with
      | none => exact ((missing_joinless htool).of_runs ⟨_, h⟩ _ hmem).elim
      | some tool =>
        obtain ⟨before, after, rfl⟩ := List.append_of_mem hmem
        obtain ⟨auth, meter, remaining, caller_script, items, _, hcalls, _⟩ := batched_of_run h htool
        obtain ⟨i, service_slug, name, args, hcall, huncut⟩ := uncut_of_joined hcalls hresults
        exact ⟨limits, calls, joined, hmem, i, service_slug, _, caller_script, name, args, _, hcall, huncut⟩

end

section

variable {crates : Crates} {record : RunRecord} {engine : Engine} {executor : Executor} {plan : EndpointPlan}
  {tool_name : String} {args : Value} {caller_kind : RunCallerKind} {caller_id : String} {evs : List RunEvent}
  {meter : BudgetMeter} {course : Course}
  {finished : Instant} {answer : Except StoreError Uuid}

theorem nothingSent_of_joinless (h : ∀ e ∈ evs, Joinless e.question) : NothingSent evs := by
  intro limits calls joined hmem
  exact (h _ hmem).elim

/-- The record is the last that the store is asked for. -/
theorem Recorded.getLast (h : Recorded crates engine executor plan tool_name args caller_kind caller_id evs meter
    course finished record answer) :
    evs.getLast? = some ⟨.create_run (new_run crates record) (record.entries.filterMap (new_run_call crates)),
      answer⟩ := by
  obtain ⟨before, auth, middle, rfl, _⟩ := h.took
  simp

/-- No two calls of a record have one number. -/
theorem Recorded.apart (hlimited : Limited engine) {result : Except ExecutorError RunResult}
    (hrun : (executor.run_tool crates engine plan tool_name args caller_kind caller_id).Emits evs (.done result))
    (h : Recorded crates engine executor plan tool_name args caller_kind caller_id evs meter course finished record
      answer) :
    (record.entries.filterMap (new_run_call crates)).Pairwise fun a b => a.seq ≠ b.seq := by
  have hover := (run_tool_audited hlimited).emits hrun
  rw [foldl_snoc, List.nil_append] at hover
  cases hover with
  | done hpost =>
    obtain ⟨before, row, calls, answer', rfl, _, hrecordable⟩ | ⟨hunrecorded, _⟩ := hpost
    · have hlast := h.getLast
      rw [snoc, List.getLast?_concat] at hlast
      obtain rfl : calls = record.entries.filterMap (new_run_call crates) := by
        cases hlast
        rfl
      unfold Recordable at hrecordable
      split at hrecordable
      · rw [hrecordable]
        exact .nil
      · exact hrecordable.2
    · exact absurd rfl (hunrecorded _ (List.mem_of_getLast? h.getLast) _ _)

/-- A run that sent a request is recorded, as one row, and tells its result exactly
when no call of it panicked, the owner of its endpoint stands, and no text of what
is handed over for the record has the character U+0000. -/
theorem run_recorded_iff (hlimited : Limited engine) {draws : run.Draws} {rows rows' : AuditRows}
    (hfresh : draws.Fresh rows) {rest : Run (Except ExecutorError RunResult)}
    (h : (executor.run_tool crates engine plan tool_name args caller_kind caller_id).Emits evs rest)
    (hover : (∃ result, rest = .done result) ∨ ∃ next, rest = .ask .panic next) (hsent : ¬ NothingSent evs)
    (hstored : ∀ row calls answer, (⟨.create_run row calls, answer⟩ : RunEvent) ∈ evs →
      run.create draws row calls rows = (answer, rows')) :
    (∃ result meter course finished record, rest = .done (.ok result) ∧
        Recorded crates engine executor plan tool_name args caller_kind caller_id evs meter course finished record
          (.ok result.run_id) ∧
        rows'.runs.rows = rows.runs.rows ++ [run.run_row draws (new_run crates record)] ∧ result.run_id = draws.id) ↔
      ¬ Panicked crates plan evs ∧ (∃ user ∈ rows.users.rows, user.id = plan.owner_id) ∧
      ∀ meter course finished record answer,
        Recorded crates engine executor plan tool_name args caller_kind caller_id evs meter course finished record
          answer → NulFree crates record := by
  rw [← panicked_iff h hover]
  have haccepts : ∀ {meter course finished record answer},
      Recorded crates engine executor plan tool_name args caller_kind caller_id evs meter course finished record
        answer → ∀ {result}, rest = .done result →
      ((∃ id, answer = .ok id) ↔ (∃ user ∈ rows.users.rows, user.id = plan.owner_id) ∧ NulFree crates record) := by
    intro meter course finished record answer hrecorded result hrest
    have hcreated := hstored _ _ _ (List.mem_of_getLast? hrecorded.getLast)
    have howner : record.plan = plan := by
      obtain ⟨elapsed, hhanded⟩ := hrecorded.handed
      rw [hhanded]
    have hok : (∃ id, answer = .ok id) ↔ ∃ id rows', run.create draws (new_run crates record)
        (record.entries.filterMap (new_run_call crates)) rows = (.ok id, rows') := by
      rw [hcreated]
      simp
    subst hrest
    rw [hok, run.create_ok_iff hfresh, accepts_iff, howner]
    exact and_congr_right fun _ => and_iff_right (hrecorded.apart hlimited h)
  constructor
  · rintro ⟨result, meter, course, finished, record, hrest, hrecorded, _, _⟩
    refine ⟨⟨_, hrest⟩, ((haccepts hrecorded hrest).mp ⟨_, rfl⟩).1, ?_⟩
    intro meter' course' finished' record' answer' hrecorded'
    have hsame := hrecorded.getLast.symm.trans hrecorded'.getLast
    generalize new_run crates record = row at hsame
    generalize record.entries.filterMap (new_run_call crates) = calls at hsame
    obtain rfl : answer' = .ok result.run_id := by
      cases hsame
      rfl
    exact ((haccepts hrecorded' hrest).mp ⟨_, rfl⟩).2
  · rintro ⟨⟨result, hrest⟩, hstands, hfree⟩
    subst hrest
    obtain ⟨meter, course, finished, record, answer, hrecorded, rfl⟩ | ⟨_, hjoinless⟩ := recorded_of_run h
    · obtain ⟨id, rfl⟩ := (haccepts hrecorded rfl).mpr ⟨hstands, hfree _ _ _ _ _ hrecorded⟩
      obtain ⟨hid, hrows⟩ := run.rows_of_create (hstored _ _ _ (List.mem_of_getLast? hrecorded.getLast))
      exact ⟨_, meter, course, finished, record, rfl, hrecorded, hrows, hid⟩
    · exact absurd (nothingSent_of_joinless hjoinless) hsent

end

/-- A run of `ping` that gets one page, whatever the store answers. -/
theorem body_run {json : JsonCrate} {body : List UInt8} {value : Value} (hbody : body.isEmpty = false)
    (hjson : json.from_slice body = .ok value) (hfits : body.length ≤ 1000)
    (store : NewRun → List NewRunCall → Except StoreError Uuid) :
    ∃ evs row calls run, ((Executor.new {}).run_tool { sample_crates with json } (one_call (.ok .null)) sample_plan
        "ping" (.object []) .Cli "cli").Emits evs (.done (TargetRun.result run (store row calls))) ∧
      ¬ NothingSent evs ∧ row.owner_id = 1 ∧ row.output_redacted = some value ∧
      ∀ row' calls' answer, (⟨.create_run row' calls', answer⟩ : RunEvent) ∈ evs →
        row' = row ∧ calls' = calls ∧ answer = store row calls := by
  let crates : Crates := { sample_crates with json }
  let meter : BudgetMeter := BudgetMeter.new {} (0 : Nat) 0
  let admitted : BudgetMeter := { meter with calls_used := meter.calls_used + 1#32 }
  have hping : resolve sample_plan none "ping" = .ok (limited_call none) := rfl
  have hdispatch := @body_dispatched sample_plan sample_context none "ping" [] json body value hbody hjson none hping
    rfl rfl (0 : Nat) (call_budget admitted none) hfits (hfits.trans (by decide)) (by decide)
  have hreserve : meter.reserve_calls (0 : Nat) 1#32 = (.ok (), admitted) := rfl
  have hremaining : admitted.remaining_time (0 : Nat) = .ok none := rfl
  have htool : sample_plan.tool "ping" = some ⟨"ping", .object [], .ApiCall sample_slug, {}⟩ := rfl
  have hload : (AuthProviders.load sample_plan).Emits [⟨.provider 1 sample_slug, .ok none⟩] (.done (.ok [])) :=
    .cons (.nil _)
  let target : TargetRun := of_batch (settle admitted ["ping"] [.ok (body_outcome body value)]).1
  let record : RunRecord :=
    { plan := sample_plan, tool := ⟨"ping", .object [], .ApiCall sample_slug, {}⟩, caller_kind := .Cli
      caller_id := "cli", request_id := "", args := .object [], output_redacted := target.value
      status := target.status, entries := target.entries
      meter := (settle admitted ["ping"] [.ok (body_outcome body value)]).2, elapsed := some 0 }
  let row := new_run crates record
  let calls := target.entries.filterMap (new_run_call crates)
  have halone := @run_tool_alone_answered crates (one_call (.ok .null)) (Executor.new {}) sample_plan _ "ping" _
    (.object []) .Cli "cli" [] _ htool rfl hload (0 : Nat) (0 : Nat) 0 (0 : Nat) (0 : Nat) admitted none hreserve
    hremaining _ _ hdispatch (0 : Nat) (store row calls)
  obtain ⟨joined, hown, -, hrun⟩ := halone
  refine ⟨_, row, calls, target, hrun, fun hnothing => ?_, rfl, ?_, ?_⟩
  · have hsends := hnothing _ _ joined (by simp) 0 (Nat.succ_pos 0)
    rw [hown] at hsends
    exact hsends _ (.tail _ (.tail _ (.tail _ (.head _)))) _ _ rfl
  · rfl
  · intro row' calls' answer hmem
    have hsame : (row' = row ∧ calls' = calls) ∧ answer = store row calls := by
      simpa [row, calls, record, target] using hmem
    exact ⟨hsame.1.1, hsame.1.2, hsame.2⟩

/-- An owner, whose endpoint was not run yet. -/
def audited_owner : AuditRows where
  users := .single
    { id := 1, email := "ada@example.com", password_hash := none, oidc_issuer := none, oidc_subject := none
      created_at := 0, ck_users_oidc_pair := rfl }
  fk_runs_owner := by simp [References, Table.empty]
  fk_run_calls_run := by simp [References, Table.empty]

def first_draws : run.Draws := { id := 0, call := fun i => i, now := 0 }

theorem first_draws_fresh : first_draws.Fresh audited_owner where
  run := by simp [audited_owner, Table.empty]
  call := by simp [audited_owner, Table.empty]
  apart i j h := h

/-- A run of `ping` that is told `null`. -/
theorem ping_recorded_iff :
    ∃ (evs : List RunEvent) (rest : Run (Except ExecutorError RunResult)) (rows' : AuditRows),
      (∃ result meter course finished record, rest = .done (.ok result) ∧
        Recorded sample_crates (one_call (.ok .null)) (Executor.new {}) sample_plan "ping" (.object []) .Cli "cli" evs
          meter course finished record (.ok result.run_id) ∧
        rows'.runs.rows = audited_owner.runs.rows ++ [run.run_row first_draws (new_run sample_crates record)] ∧
        result.run_id = first_draws.id) ↔
      ¬ Panicked sample_crates sample_plan evs ∧
      (∃ user ∈ audited_owner.users.rows, user.id = sample_plan.owner_id) ∧
      ∀ meter course finished record answer,
        Recorded sample_crates (one_call (.ok .null)) (Executor.new {}) sample_plan "ping" (.object []) .Cli "cli" evs
          meter course finished record answer → NulFree sample_crates record := by
  have hjson : sample_crates.json.from_slice (net.utf8 "null") = .ok .null := rfl
  obtain ⟨evs, row, calls, target, hrun, hsent, _, _, hasked⟩ := body_run rfl hjson (by decide)
    fun row calls => (run.create first_draws row calls audited_owner).1
  refine ⟨evs, _, (run.create first_draws row calls audited_owner).2,
    run_recorded_iff (limited_one_call _) first_draws_fresh hrun (.inl ⟨_, rfl⟩) hsent ?_⟩
  intro row' calls' answer hmem
  obtain ⟨rfl, rfl, rfl⟩ := hasked _ _ _ hmem
  rfl

/-- A body that is the JSON text of a string of one character, U+0000. -/
def nul_body : List UInt8 := net.utf8 "\"\\u0000\""

/-- A crate that reads it. -/
def nul_json : JsonCrate :=
  { sample_crates.json with
    from_slice := fun bytes =>
      if bytes = nul_body then .ok (.string (String.singleton NUL)) else sample_crates.json.from_slice bytes }

/-- A call that got its response leaves no record when a string of the body is U+0000. -/
theorem nul_body_unrecorded :
    ∃ evs e, ((Executor.new {}).run_tool { sample_crates with json := nul_json } (one_call (.ok .null)) sample_plan
        "ping" (.object []) .Cli "cli").Emits evs (.done (.error (.Record e))) ∧
      ¬ NothingSent evs ∧ first_draws.Fresh audited_owner ∧
      (∃ user ∈ audited_owner.users.rows, user.id = sample_plan.owner_id) ∧
      ∀ row calls answer, (⟨.create_run row calls, answer⟩ : RunEvent) ∈ evs →
        run.create first_draws row calls audited_owner = (answer, audited_owner) := by
  have hjson : nul_json.from_slice nul_body = .ok (.string (String.singleton NUL)) := by
    simp [nul_json]
  obtain ⟨evs, row, calls, target, hrun, hsent, _, houtput, hasked⟩ := body_run (by decide) hjson (by decide)
    fun row calls => (run.create first_draws row calls audited_owner).1
  have hnul : is_jsonb (.string (String.singleton NUL)) = false := by decide
  have hnot : ¬ run.Accepts first_draws audited_owner row calls := by
    intro haccepts
    have hrow := haccepts.run_row
    simp [runs.Model.accepted, run.run_row, houtput, hnul] at hrow
  obtain ⟨e, hrefused⟩ := run.refused_of_not_accepts first_draws_fresh hnot
  rw [hrefused] at hrun
  refine ⟨evs, e, hrun, hsent, first_draws_fresh, ⟨_, List.mem_singleton_self _, rfl⟩, ?_⟩
  intro row' calls' answer hmem
  obtain ⟨rfl, rfl, rfl⟩ := hasked _ _ _ hmem
  rw [hrefused]

end api2mcp.runtime
