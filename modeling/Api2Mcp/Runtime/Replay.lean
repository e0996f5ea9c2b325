import Api2Mcp.Collections.Pointwise
import Api2Mcp.Interact.Rules
import Api2Mcp.Runtime.Executor

namespace api2mcp.runtime.replay

open btree interact serde_json
open api2mcp.http api2mcp.model api2mcp.resolve api2mcp.schema api2mcp.script
open api2mcp.runtime.budget api2mcp.runtime.dispatch api2mcp.runtime.fanout api2mcp.runtime.batch

/-- The params are the same for a call. -/
structure SameParam (p p' : Param) : Prop where
  name : p.name = p'.name
  location : p.location = p'.location
  ty : p.ty = p'.ty
  required : p.required = p'.required
  fixed : p.fixed = p'.fixed
  /-- A param that is fixed has no use for a default. -/
  default : p.fixed = none → p.default = p'.default
  enum_values : p.enum_values = p'.enum_values

/-- The definitions are the same for who calls. -/
structure SameCall (c c' : ApiCall) : Prop where
  slug : c.slug = c'.slug
  method : c.method = c'.method
  path_template : c.path_template = c'.path_template
  query_fixed : c.query_fixed = c'.query_fixed
  body_template : c.body_template = c'.body_template
  projection : c.projection = c'.projection
  pagination : c.pagination = c'.pagination
  max_response_bytes : c.max_response_bytes = c'.max_response_bytes
  params : List.Forall₂ SameParam c.params c'.params

/-- The services are the same but for their owners. -/
def SameService (s s' : Service) : Prop := { s with owner_id := s'.owner_id } = s'

structure SamePlanned (p p' : PlannedApiCall) : Prop where
  api_call : SameCall p.api_call p'.api_call
  service : SameService p.service p'.service

theorem bind_args_same {params params' : List Param} (h : List.Forall₂ SameParam params params')
    (args : Value) : bind_args params args = bind_args params' args := by
  have hnames : params.map (·.name) = params'.map (·.name) :=
    pointwise.map_eq h fun _ _ hp => hp.name
  have hbound : ∀ (obj : Map) (bound : BTreeMap String Value),
      params.foldlM (schema.bind_param obj) bound = params'.foldlM (schema.bind_param obj) bound := by
    intro obj bound
    refine pointwise.foldlM_eq h (fun bound p p' hp => ?_) bound
    unfold schema.bind_param
    rw [hp.name, hp.ty, hp.required, hp.enum_values]
    cases hfixed : p.fixed with
    | some value => rw [← hp.fixed, hfixed]
    | none => rw [← hp.fixed, hfixed, hp.default hfixed]
  unfold bind_args
  cases args with
  | object obj => simp only [hbound, hnames]
  | _ => rfl

variable (crates : Crates)

theorem bind_same {c c' : ApiCall} {s s' : Service} (hcall : SameCall c c') (hservice : SameService s s')
    (args : BTreeMap String Value) :
    http.bind crates.url crates.values c s args = http.bind crates.url crates.values c' s' args := by
  have hfold : ∀ parts : Parts, c.params.foldlM (http.bind_param crates.values args) parts =
      c'.params.foldlM (http.bind_param crates.values args) parts := by
    refine pointwise.foldlM_eq hcall.params fun parts p p' hp => ?_
    unfold http.bind_param bind_one
    rw [hp.name, hp.location]
  have hurl : ∀ path query, assemble_url crates.url s path query = assemble_url crates.url s' path query := by
    intro path query
    rw [← hservice]
    rfl
  unfold http.bind
  simp only [hcall.path_template, hcall.query_fixed, hcall.body_template, hcall.method, hfold, hurl]

theorem conclude_same {p p' : PlannedApiCall} (h : SamePlanned p p') (request : BoundRequest)
    (pages : List CallResponse) : conclude crates p request pages = conclude crates p' request pages := by
  have hservice : p.service.slug = p'.service.slug := by
    rw [← h.service]
  have hattempt : attempt_of p request pages = attempt_of p' request pages := by
    unfold attempt_of
    rw [h.api_call.slug, h.api_call.method, hservice]
  have hvalue : project_pages crates p pages = project_pages crates p' pages := by
    unfold project_pages
    rw [h.api_call.projection]
  unfold conclude
  rw [hattempt, hvalue]

theorem send_params_same {p p' : PlannedApiCall} (h : SamePlanned p p') {ctx ctx' : DispatchContext}
    (hpolicy : ctx.policy = ctx'.policy) (hredirects : ctx.max_redirects = ctx'.max_redirects)
    (hauth : ctx.auth.get p.service.slug = ctx'.auth.get p.service.slug) (budget : CallBudget) :
    send_params ctx p budget = send_params ctx' p' budget := by
  unfold send_params
  rw [hpolicy, hredirects, hauth, h.api_call.max_response_bytes, ← h.service]

/-- The same question of a call: a client is asked for by its service. -/
def SameQuestion : DispatchQuestion → DispatchQuestion → Prop
  | .io q, .io q' => q = q'
  | .client_for s, .client_for s' => SameService s s'
  | .panic, .panic => True
  | _, _ => False

/-- The same question, answered the same. -/
inductive SameEvent : DispatchEvent → DispatchEvent → Prop
  | io (e : IoEvent) : SameEvent (io_event e) (io_event e)
  | client_for {s s' : Service} (h : SameService s s') (client : Except String Client) :
      SameEvent ⟨.client_for s, client⟩ ⟨.client_for s', client⟩

theorem SameEvent.refl : ∀ e : DispatchEvent, SameEvent e e
  | ⟨.io q, a⟩ => .io ⟨q, a⟩
  | ⟨.client_for s, client⟩ => .client_for (show SameService s s from rfl) client
  | ⟨.panic, a⟩ => nomatch a

theorem SameEvent.answer {q : DispatchQuestion} {a a' : DispatchAnswer q} (h : SameEvent ⟨q, a⟩ ⟨q, a'⟩) :
    a = a' := by
  cases h with
  | io e => rfl
  | client_for => rfl

/-- Calls that cannot be told apart by the same answers. -/
abbrev SameProg {α : Type} : Dispatch α → Dispatch α → Prop :=
  Prog.Alike SameQuestion SameEvent SameEvent (· = ·)

theorem sameProg_refl {α : Type} (p : Dispatch α) : SameProg p p := by
  refine .refl (fun q => ?_) (fun _ _ _ => SameEvent.answer) SameEvent.refl p
  cases q with
  | io q => rfl
  | client_for s => rfl
  | panic => trivial

theorem dispatch_call_same {p p' : PlannedApiCall} (h : SamePlanned p p') {ctx ctx' : DispatchContext}
    (hpolicy : ctx.policy = ctx'.policy) (hredirects : ctx.max_redirects = ctx'.max_redirects)
    (hauth : ctx.auth.get p.service.slug = ctx'.auth.get p.service.slug) (args : Value)
    (budget : CallBudget) :
    SameProg (dispatch_call crates ctx p args budget) (dispatch_call crates ctx' p' args budget) := by
  have hfetch : ∀ request client,
      fetch crates ctx p budget request client = fetch crates ctx' p' budget request client := by
    intro request client
    unfold fetch
    rw [send_params_same h hpolicy hredirects hauth, h.api_call.pagination]
  unfold dispatch_call
  rw [bind_args_same h.api_call.params]
  split
  · exact sameProg_refl _
  rw [bind_same crates h.api_call h.service]
  split
  · exact sameProg_refl _
  rw [Dispatch.client_for_bind, Dispatch.client_for_bind]
  have hnext : ∀ client client' : Except String Client,
      SameEvent ⟨.client_for p.service, client⟩ ⟨.client_for p'.service, client'⟩ → client = client' := by
    intro client client' hsame
    cases hsame
    rfl
  refine .ask h.service (fun client client' hsame _ _ => hsame) fun client client' hsame _ _ => ?_
  rw [hnext client client' hsame]
  simp only [hfetch, conclude_same crates h]
  exact sameProg_refl _

/-- What a name resolves to is the same, and so is its provider. -/
inductive SameResolved (ctx ctx' : DispatchContext) :
    Except DispatchError PlannedApiCall → Except DispatchError PlannedApiCall → Prop
  | error (e : DispatchError) : SameResolved ctx ctx' (.error e) (.error e)
  | ok {p p' : PlannedApiCall} : SamePlanned p p' →
      ctx.auth.get p.service.slug = ctx'.auth.get p.service.slug → SameResolved ctx ctx' (.ok p) (.ok p')

/-- The same question of a run, whatever it is recorded as. -/
def SameAsk : RunQuestion → RunQuestion → Prop
  | .now, .now | .utc_now, .utc_now | .new_v4, .new_v4 | .fan_out .., .fan_out ..
  | .create_run .., .create_run .. | .panic, .panic => True
  | _, _ => False

/-- The same answer: the same time, and to the same question of a call the same
answer, in whatever order the calls of a batch are answered. -/
inductive Told : RunEvent → RunEvent → Prop
  | now (t : http.Instant) : Told ⟨.now, t⟩ ⟨.now, t⟩
  | utc_now (t : DateTime) : Told ⟨.utc_now, t⟩ ⟨.utc_now, t⟩
  | new_v4 (id id' : String) : Told ⟨.new_v4, id⟩ ⟨.new_v4, id'⟩
  | fan_out {limits limits' : ConcurrencyLimits} {items items' : List BoxedCall}
      {joined : Joined limits items} {joined' : Joined limits' items'} :
      (∀ k < items.length, AnsweredAlike SameQuestion SameEvent (own k joined.moves) (own k joined'.moves)) →
      Told ⟨.fan_out limits items, joined⟩ ⟨.fan_out limits' items', joined'⟩
  | create_run {run run' : store.NewRun} {calls calls' : List store.NewRunCall}
      (answer answer' : Except store.StoreError Uuid) :
      Told ⟨.create_run run calls, answer⟩ ⟨.create_run run' calls', answer'⟩

/-- The same done: a batch of as many calls, and each of them did the same. -/
inductive Did : RunEvent → RunEvent → Prop
  | now (t : http.Instant) : Did ⟨.now, t⟩ ⟨.now, t⟩
  | utc_now (t : DateTime) : Did ⟨.utc_now, t⟩ ⟨.utc_now, t⟩
  | new_v4 (id id' : String) : Did ⟨.new_v4, id⟩ ⟨.new_v4, id'⟩
  | fan_out {limits limits' : ConcurrencyLimits} {items items' : List BoxedCall}
      {joined : Joined limits items} {joined' : Joined limits' items'} : items.length = items'.length →
      (∀ k < items.length, List.Forall₂ SameEvent (own k joined.moves) (own k joined'.moves)) →
      Did ⟨.fan_out limits items, joined⟩ ⟨.fan_out limits' items', joined'⟩
  | create_run {run run' : store.NewRun} {calls calls' : List store.NewRunCall}
      (answer answer' : Except store.StoreError Uuid) :
      Did ⟨.create_run run calls, answer⟩ ⟨.create_run run' calls', answer'⟩

/-- Runs that cannot be told apart by the same answers. -/
abbrev SameRun {α β : Type} (post : α → β → Prop) : Run α → Run β → Prop :=
  Prog.Alike SameAsk Told Did post

theorem now_same : SameRun (· = ·) Run.now Run.now := by
  refine .ask trivial (fun t t' h _ _ => ?_) fun t t' h _ _ => ?_
  · cases h
    exact .now t
  · cases h
    exact .done rfl

theorem utc_now_same : SameRun (· = ·) Run.utc_now Run.utc_now := by
  refine .ask trivial (fun t t' h _ _ => ?_) fun t t' h _ _ => ?_
  · cases h
    exact .utc_now t
  · cases h
    exact .done rfl

/-- Calls that are the same, joined in either order, end the same. -/
theorem joined_same {limits limits' : ConcurrencyLimits} {items items' : List BoxedCall}
    (hitems : List.Forall₂ (fun item item' => SameProg item.2 item'.2) items items')
    {joined : Joined limits items} {joined' : Joined limits' items'}
    (hworld : ∀ k < items.length,
      AnsweredAlike SameQuestion SameEvent (own k joined.moves) (own k joined'.moves))
    {results results' : List (Except DispatchError DispatchOutcome)}
    (hresults : joined.last.results = some results) (hresults' : joined'.last.results = some results') :
    (∀ k < items.length, List.Forall₂ SameEvent (own k joined.moves) (own k joined'.moves)) ∧
      results = results' := by
  have htracks := Together.tracks joined.path
  have htracks' := Together.tracks joined'.path
  obtain ⟨hlen, hfinish⟩ := htracks.getElem?_results hresults
  obtain ⟨hlen', hfinish'⟩ := htracks'.getElem?_results hresults'
  have hitemsLen := hitems.length_eq
  have hlane : ∀ k, k < items.length →
      List.Forall₂ SameEvent (own k joined.moves) (own k joined'.moves) ∧ results[k]? = results'[k]? := by
    intro k hk
    have hk' : k < items'.length := by omega
    have hresult : results[k]? = some results[k] := List.getElem?_eq_getElem (by omega)
    have hresult' : results'[k]? = some results'[k] := List.getElem?_eq_getElem (by omega)
    have hrun := htracks.emits (List.getElem?_eq_getElem hk) ((hfinish k _).mp hresult)
    have hrun' := htracks'.emits (List.getElem?_eq_getElem hk') ((hfinish' k _).mp hresult')
    have hsame := (List.forall₂_iff_get.mp hitems).2 k hk hk'
    obtain ⟨hevents, heq⟩ := Prog.Alike.runs hsame hrun hrun' (hworld k hk)
    refine ⟨hevents, ?_⟩
    rw [hresult, hresult', heq]
  refine ⟨fun k hk => (hlane k hk).1, List.ext_getElem? fun k => ?_⟩
  by_cases hk : k < items.length
  · exact (hlane k hk).2
  · rw [List.getElem?_eq_none (by omega), List.getElem?_eq_none (by omega)]

theorem fan_out_same {items items' : List BoxedCall}
    (hitems : List.Forall₂ (fun item item' => SameProg item.2 item'.2) items items')
    (limits limits' : ConcurrencyLimits) :
    SameRun (· = ·) (fan_out limits items) (fan_out limits' items') := by
  unfold fan_out
  rw [Run.join_bind, Run.join_bind]
  have hended : ∀ (last : Option (List (Except DispatchError DispatchOutcome)))
      {rest : Run (List (Except DispatchError DispatchOutcome))}, ¬ rest.Stuck →
      (last = none → rest = Run.panicked) → ∃ results, last = some results := by
    intro last rest hstuck hnone
    cases last with
    | some results => exact ⟨results, rfl⟩
    | none =>
      rw [hnone rfl] at hstuck
      exact absurd (by rintro ⟨⟩) hstuck
  refine .ask trivial (fun joined joined' h hn hn' => ?_) fun joined joined' h hn hn' => ?_
  · obtain ⟨results, hresults⟩ := hended joined.last.results hn fun hnone => by rw [hnone]
    obtain ⟨results', hresults'⟩ := hended joined'.last.results hn' fun hnone => by rw [hnone]
    cases h with
    | fan_out hworld =>
      exact .fan_out hitems.length_eq (joined_same hitems hworld hresults hresults').1
  · obtain ⟨results, hresults⟩ := hended joined.last.results hn fun hnone => by rw [hnone]
    obtain ⟨results', hresults'⟩ := hended joined'.last.results hn' fun hnone => by rw [hnone]
    cases h with
    | fan_out hworld =>
      rw [hresults, hresults', (joined_same hitems hworld hresults hresults').2]
      exact .done rfl

/-- A batch under other names. -/
def rename (ρ : String → String) (batch : BatchOutcome) : BatchOutcome where
  entries := batch.entries.map fun e => { e with name := ρ e.name }
  status := batch.status

theorem rename_id (batch : BatchOutcome) : rename id batch = batch := by
  simp [rename]

theorem derive_status_rename (ρ : String → String) (entries : List BatchEntry) :
    derive_status (entries.map fun e => { e with name := ρ e.name }) = derive_status entries := by
  unfold derive_status
  simp only [List.countP_map, List.length_map, List.map_map, Function.comp_def]

theorem settle_rename (ρ : String → String) (meter : BudgetMeter) (names : List String)
    (results : List (Except DispatchError DispatchOutcome)) :
    settle meter (names.map ρ) results =
      (rename ρ (settle meter names results).1, (settle meter names results).2) := by
  have hentries : ∀ cut, entries_of (names.map ρ) cut results =
      (entries_of names cut results).map fun e => { e with name := ρ e.name } := by
    intro cut
    unfold entries_of
    rw [List.zip_map_left, List.zipIdx_map, List.map_map, List.map_map]
    rfl
  unfold batch.settle rename
  simp only [hentries, derive_status_rename]

theorem not_attempted_rename (ρ : String → String) (items : List (String × Value)) (axis : BudgetAxis) :
    not_attempted (items.map fun item => (ρ item.1, item.2)) axis = rename ρ (not_attempted items axis) := by
  unfold not_attempted rename
  rw [List.zipIdx_map, List.map_map, List.map_map]
  rfl

section

variable {plan plan' : EndpointPlan} {ctx ctx' : DispatchContext}
  {caller_script caller_script' : Option Slug}

theorem dispatch_same {name name' : String} (hpolicy : ctx.policy = ctx'.policy)
    (hredirects : ctx.max_redirects = ctx'.max_redirects)
    (hresolved : SameResolved ctx ctx' (resolve plan caller_script name)
      (resolve plan' caller_script' name')) (args : Value) (budget : CallBudget) :
    SameProg (dispatch crates plan ctx caller_script name args budget)
      (dispatch crates plan' ctx' caller_script' name' args budget) := by
  unfold dispatch
  generalize resolve plan caller_script name = found at hresolved
  generalize resolve plan' caller_script' name' = found' at hresolved
  cases hresolved with
  | error e => exact sameProg_refl _
  | ok h hauth => exact dispatch_call_same crates h hpolicy hredirects hauth args budget

/-- A batch whose names resolve to the same under other names. -/
theorem run_batch_same (ρ : String → String) (hpolicy : ctx.policy = ctx'.policy)
    (hredirects : ctx.max_redirects = ctx'.max_redirects) {items : List (String × Value)}
    (hresolved : ∀ item ∈ items, SameResolved ctx ctx' (resolve plan caller_script item.1)
      (resolve plan' caller_script' (ρ item.1)))
    (limits limits' : ConcurrencyLimits) (meter : BudgetMeter) :
    SameRun (fun r r' => r' = (rename ρ r.1, r.2))
      (run_batch crates plan ctx limits meter caller_script items)
      (run_batch crates plan' ctx' limits' meter caller_script'
        (items.map fun item => (ρ item.1, item.2))) := by
  have hcalls : ∀ budget, List.Forall₂ (fun item item' => SameProg item.2 item'.2)
      (fan_items crates plan ctx caller_script budget items)
      (fan_items crates plan' ctx' caller_script' budget (items.map fun item => (ρ item.1, item.2))) := by
    intro budget
    unfold fan_items
    rw [List.map_map]
    refine List.forall₂_map_left_iff.mpr (List.forall₂_map_right_iff.mpr (List.forall₂_same.mpr ?_))
    intro item hitem
    exact dispatch_same crates hpolicy hredirects (hresolved item hitem) item.2 budget
  have hnames : (items.map fun item => (ρ item.1, item.2)).map (·.1) = (items.map (·.1)).map ρ := by
    rw [List.map_map, List.map_map]
    rfl
  unfold run_batch
  rw [List.length_map]
  split
  · exact .done rfl
  refine now_same.bind fun now _ hnow => ?_
  subst hnow
  cases meter.reserve_calls now (.ofNat 32 items.length) with
  | mk reserved meter =>
    cases reserved with
    | error trip => exact .done (by rw [not_attempted_rename])
    | ok =>
      refine now_same.bind fun now _ hnow => ?_
      subst hnow
      cases meter.remaining_time now with
      | error trip => exact .done (by rw [not_attempted_rename])
      | ok remaining =>
        refine (fan_out_same (hcalls _) limits limits').bind fun results _ hresults => ?_
        subst hresults
        exact .done (by rw [hnames, settle_rename])

end

/-- The scripts reach the same calls by the same names. -/
structure SameReach (plan plan' : EndpointPlan) (ctx ctx' : DispatchContext) (caller_script caller_script' : Slug) :
    Prop where
  policy : ctx.policy = ctx'.policy
  redirects : ctx.max_redirects = ctx'.max_redirects
  resolved : ∀ name, SameResolved ctx ctx' (resolve plan (some caller_script) name)
    (resolve plan' (some caller_script') name)

section

variable {plan plan' : EndpointPlan} {ctx ctx' : DispatchContext} {caller_script caller_script' : Slug}

theorem service_one_same (h : SameReach plan plan' ctx ctx' caller_script caller_script')
    (limits limits' : ConcurrencyLimits) (call : BindingCall) (ledger : Ledger) :
    SameRun (· = ·) (service_one crates plan ctx limits caller_script call ledger)
      (service_one crates plan' ctx' limits' caller_script' call ledger) := by
  unfold service_one
  split
  · exact .done rfl
  have hresolved := h.resolved call.name
  have hitems : ∀ item ∈ call.batch.map fun args => (call.name, args), SameResolved ctx ctx'
      (resolve plan (some caller_script) item.1) (resolve plan' (some caller_script') (id item.1)) := by
    intro item hitem
    obtain ⟨args, _, rfl⟩ := List.mem_map.mp hitem
    exact hresolved
  have hbatch := run_batch_same crates id h.policy h.redirects hitems limits limits' ledger.meter
  generalize resolve plan (some caller_script) call.name = found at hresolved
  generalize resolve plan' (some caller_script') call.name = found' at hresolved
  cases hresolved with
  | error e => exact .done rfl
  | ok =>
    rw [List.map_map] at hbatch
    refine hbatch.bind fun outcome _ houtcome => ?_
    rw [houtcome, rename_id]
    exact .done rfl

/-- A script that is the same is answered the same. -/
theorem service_same {α : Type} (h : SameReach plan plan' ctx ctx' caller_script caller_script')
    (limits limits' : ConcurrencyLimits) (script : Script α) (ledger : Ledger) :
    SameRun (· = ·) (service crates plan ctx limits caller_script script ledger)
      (service crates plan' ctx' limits' caller_script' script ledger) := by
  induction script generalizing ledger with
  | done a => exact .done rfl
  | ask q next ih =>
    cases q with
    | now =>
      unfold service
      refine now_same.bind fun now _ hnow => ?_
      subst hnow
      exact ih now ledger
    | call call =>
      unfold service
      refine (service_one_same crates h limits limits' call ledger).bind fun reply _ hreply => ?_
      subst hreply
      exact ih reply.1 reply.2

theorem wall_clock_deadline_same (meter : BudgetMeter) :
    SameRun (· = ·) (wall_clock_deadline meter) (wall_clock_deadline meter) := by
  unfold wall_clock_deadline
  refine now_same.bind fun now _ hnow => ?_
  subst hnow
  split
  · refine now_same.bind fun now _ hnow => ?_
    subst hnow
    exact .done rfl
  · exact .done rfl
  · refine now_same.bind fun now _ hnow => ?_
    subst hnow
    exact .done rfl

theorem run_script_same (h : SameReach plan plan' ctx ctx' caller_script caller_script') {script script' : ScriptDef}
    (hsource : script.source = script'.source) (hparams : List.Forall₂ SameParam script.params script'.params)
    (engine : Engine) (limits limits' : ConcurrencyLimits) (meter : BudgetMeter) (args : Value) :
    SameRun (· = ·) (run_script crates engine plan ctx limits meter caller_script script args)
      (run_script crates engine plan' ctx' limits' meter caller_script' script' args) := by
  unfold run_script
  rw [bind_args_same hparams, hsource]
  split
  · exact .done rfl
  refine (wall_clock_deadline_same meter).bind fun deadline _ hdeadline => ?_
  subst hdeadline
  refine (service_same crates h limits limits' _ _).bind fun ended _ hended => ?_
  subst hended
  obtain ⟨result, ledger⟩ := ended
  cases result with
  | ok value => exact .done rfl
  | error failure => exact .done rfl

end

/-- The tools do the same: calls that are the same, or scripts that are and
reach the same. -/
inductive SameTarget (plan plan' : EndpointPlan) (ctx ctx' : DispatchContext) (tool tool' : PlannedTool)
    (tool_name tool_name' : String) : Prop
  | api_call {slug slug' : Slug} : tool.target = .ApiCall slug → tool'.target = .ApiCall slug' →
      SameResolved ctx ctx' (resolve plan none tool_name) (resolve plan' none tool_name') →
      SameTarget plan plan' ctx ctx' tool tool' tool_name tool_name'
  | script {slug slug' : Slug} {script script' : ScriptDef} : tool.target = .Script slug →
      tool'.target = .Script slug' → plan.scripts.get slug = some script →
      plan'.scripts.get slug' = some script' → script.source = script'.source →
      List.Forall₂ SameParam script.params script'.params → SameReach plan plan' ctx ctx' slug slug' →
      SameTarget plan plan' ctx ctx' tool tool' tool_name tool_name'

/-- The same of a target, but for the names its entries are recorded under. -/
def SameEnd : Except ExecutorError TargetRun × BudgetMeter → Except ExecutorError TargetRun × BudgetMeter → Prop
  | (.ok run, _), (.ok run', _) => run.status = run'.status ∧ run.value = run'.value ∧ run.error = run'.error
  | _, _ => False

theorem of_batch_rename (ρ : String → String) (batch : BatchOutcome) :
    (of_batch (rename ρ batch)).status = (of_batch batch).status ∧
      (of_batch (rename ρ batch)).value = (of_batch batch).value ∧
      (of_batch (rename ρ batch)).error = (of_batch batch).error := by
  unfold of_batch rename
  cases batch.entries with
  | nil => exact ⟨rfl, rfl, rfl⟩
  | cons entry rest => exact ⟨rfl, rfl, rfl⟩

/-- Tools that do the same run the same. -/
theorem run_target_same {engine : Engine} {plan plan' : EndpointPlan}
    {ctx ctx' : DispatchContext} {tool tool' : PlannedTool} {tool_name tool_name' : String}
    (hpolicy : ctx.policy = ctx'.policy) (hredirects : ctx.max_redirects = ctx'.max_redirects)
    (h : SameTarget plan plan' ctx ctx' tool tool' tool_name tool_name') (limits limits' : ConcurrencyLimits)
    (meter : BudgetMeter) (args : Value) :
    SameRun SameEnd (run_target crates engine plan ctx limits meter tool tool_name args)
      (run_target crates engine plan' ctx' limits' meter tool' tool_name' args) := by
  unfold run_target
  cases h with
  | api_call htarget htarget' hresolved =>
    rw [htarget, htarget']
    have hitems : ∀ item ∈ [(tool_name, args)],
        SameResolved ctx ctx' (resolve plan none item.1) (resolve plan' none tool_name') := by
      intro item hitem
      rwa [List.mem_singleton.mp hitem]
    have hbatch := run_batch_same crates (fun _ => tool_name') hpolicy hredirects hitems limits limits' meter
    refine hbatch.bind fun outcome _ houtcome => ?_
    rw [houtcome]
    obtain ⟨hstatus, hvalue, herror⟩ := of_batch_rename (fun _ => tool_name') outcome.1
    exact .done ⟨hstatus.symm, hvalue.symm, herror.symm⟩
  | script htarget htarget' hscript hscript' hsource hparams hreach =>
    rw [htarget, htarget']
    simp only [hscript, hscript']
    refine (run_script_same crates hreach hsource hparams engine limits limits' meter args).bind fun ended _ hended => ?_
    subst hended
    exact .done ⟨rfl, rfl, rfl⟩

end api2mcp.runtime.replay
