import Api2Mcp.Http.Credentials
import Api2Mcp.Resolve.Closed
import Api2Mcp.Runtime.Origins

namespace api2mcp.runtime

open btree concurrent interact net serde_json
open api2mcp.entity api2mcp.http api2mcp.model api2mcp.resolve
open api2mcp.runtime.budget api2mcp.runtime.dispatch api2mcp.runtime.fanout api2mcp.runtime.batch

/-- The store answered that the service has the provider. -/
def Found (plan : EndpointPlan) (evs : List RunEvent) (service_slug : Slug) (provider : AuthProvider) :
    Prop :=
  (⟨.provider plan.owner_id service_slug, .ok (some provider)⟩ : RunEvent) ∈ evs

/-- What a call of the run was told. -/
def HeardInRun (evs : List RunEvent) (e : IoEvent) : Prop :=
  ∃ before limits calls, ∃ joined : Joined limits calls, ∃ after i,
    evs = before ++ ⟨.fan_out limits calls, joined⟩ :: after ∧ io_event e ∈ own i joined.moves

/-- The header is the credential of a provider that the run found for a service
of the plan. -/
structure SentFor (plan : EndpointPlan) (evs : List RunEvent) (provider : AuthProvider)
    (header : HeaderName × HeaderValue) : Prop where
  found : ∃ planned ∈ plan.calls.values, Found plan evs planned.service.slug provider
  credential : ∃ heard, (∀ e ∈ heard, HeardInRun evs e) ∧ CredentialOf heard provider header

/-- The store answers from rows that satisfy `P`, not necessarily the same ones
each time. -/
def AnsweredFrom (P : Rows → Prop) (evs : List RunEvent) : Prop :=
  ∀ owner_id service_slug answer, (⟨.provider owner_id service_slug, answer⟩ : RunEvent) ∈ evs →
    (store.auth_provider.get_for_service owner_id service_slug).run.Sees P answer

/-- A service has no provider in the rows `P` but of the scope, or of the name it
had in the rows `checked`. -/
def KeepsScope (checked P : Rows → Prop) (owner_id : Uuid) (scope : BTreeSet Slug) (service_slug : Slug) :
    Prop :=
  ∀ provider, Query.Yields P (store.auth_provider.get_for_service owner_id service_slug) (some provider) →
    scope.contains provider.slug = true ∨
      ∀ answer, Query.Yields checked (store.auth_provider.get_for_service owner_id service_slug) answer →
        answer.map (·.slug) = some provider.slug

section

variable {crates : Crates} {plan : EndpointPlan} {ctx : DispatchContext} {caller_script : Option Slug}
  {name : String} {args : Value} {budget : CallBudget}

/-- A call sends no credential but that of its own service's provider. -/
theorem dispatch_attached : (dispatch crates plan ctx caller_script name args budget).Safe (io_note hear)
    (io_asks fun heard q => ∃ planned, resolve plan caller_script name = .ok planned ∧
      AsksAttached (ctx.auth.get planned.service.slug) heard q) (fun _ _ => True) [] := by
  refine dispatch_safe fun planned request client hresolve => ?_
  have hfetch := @paginate_attached crates.url crates.json.from_slice client
    (send_params ctx planned budget) planned.api_call.pagination budget.max_pages.toNat request []
  exact hfetch.weaken fun heard q hq => ⟨planned, hresolve, hq⟩

theorem mem_heard {sent : List DispatchEvent} {e : IoEvent} (h : e ∈ sent.foldl (io_note hear) []) :
    io_event e ∈ sent := by
  have hfold : ∀ (sent : List DispatchEvent) (heard : List IoEvent),
      e ∈ sent.foldl (io_note hear) heard → e ∈ heard ∨ io_event e ∈ sent := by
    intro sent
    induction sent with
    | nil => exact fun _ h => .inl h
    | cons first sent ih =>
      intro heard h
      obtain hnoted | hrest := ih _ h
      · obtain ⟨question, answer⟩ := first
        cases question with
        | io q =>
          obtain rfl | hheard := List.mem_cons.mp hnoted
          · exact .inr List.mem_cons_self
          · exact .inl hheard
        | client_for service => exact .inl hnoted
        | panic => exact .inl hnoted
      · exact .inr (List.mem_cons_of_mem _ hrest)
  obtain hnone | hsent := hfold sent [] h
  · cases hnone
  · exact hsent

theorem planned_of_resolve {planned : PlannedApiCall} (h : resolve plan caller_script name = .ok planned) :
    planned ∈ plan.calls.values := by
  have hvalues : ∀ {slug : Slug}, plan.calls.get slug = some planned → planned ∈ plan.calls.values :=
    fun hget => List.mem_map.mpr ⟨_, BTreeMap.mem_of_get hget, rfl⟩
  unfold resolve at h
  split at h
  · split at h
    · cases h
    split at h
    · cases h
    · rename_i hget
      obtain rfl := Except.ok.inj h
      exact hvalues hget
  · split at h
    · cases h
    split at h
    · cases h
    split at h
    · cases h
    · rename_i hget
      obtain rfl := Except.ok.inj h
      exact hvalues hget

/-- What the run loaded is what it found. -/
theorem load_found {loaded : List RunEvent} {auth : AuthProviders}
    (h : (AuthProviders.load plan).Emits loaded (.done (.ok auth))) {service_slug : Slug}
    {provider : AuthProvider} (hget : auth.get service_slug = some provider) :
    Found plan loaded service_slug provider := by
  have hcalls : ∀ (calls : List PlannedApiCall) (map : AuthProviders) (before loaded : List RunEvent),
      (∀ slug p, map.get slug = some p → Found plan before slug p) →
      (AuthProviders.load_from plan calls map).Emits loaded (.done (.ok auth)) →
      Found plan (before ++ loaded) service_slug provider := by
    intro calls
    induction calls with
    | nil =>
      intro map before loaded hmap hemits
      obtain ⟨rfl, hdone⟩ := hemits.of_done
      cases hdone
      rw [List.append_nil]
      exact hmap service_slug provider hget
    | cons planned calls ih =>
      intro map before loaded hmap hemits
      unfold AuthProviders.load_from at hemits
      split at hemits
      · exact ih map before loaded hmap hemits
      rw [Run.provider_bind] at hemits
      obtain ⟨_, hdone⟩ | ⟨answer, rest, rfl, hrest⟩ := hemits.of_ask
      · cases hdone
      rw [List.append_cons]
      have hkept : ∀ slug p, map.get slug = some p → Found plan
          (before ++ [⟨.provider plan.owner_id planned.service.slug, answer⟩]) slug p :=
        fun slug p h => List.mem_append_left _ (hmap slug p h)
      split at hrest
      · obtain ⟨_, hdone⟩ := hrest.of_done
        cases hdone
      · exact ih map _ rest hkept hrest
      · refine ih _ _ rest (fun slug p h => ?_) hrest
        rw [BTreeMap.get_insert] at h
        split at h
        · rename_i hslug
          obtain rfl := Option.some.inj h
          rw [hslug]
          exact List.mem_append_right _ (List.mem_singleton_self _)
        · exact hkept slug p h
  exact hcalls plan.calls.values [] [] loaded (fun slug p hnone => by cases hnone) h

end

section

variable {crates : Crates} {engine : script.Engine} {executor : Executor} {plan : EndpointPlan}
  {tool : PlannedTool} {tool_name : String} {args : Value} {caller_kind : store.RunCallerKind}
  {caller_id : String} {evs : List RunEvent} {rest : Run (Except ExecutorError RunResult)}

/-- A batch of a run is joined with the providers that were loaded before. -/
theorem joins_of_run {before after : List RunEvent} {limits : ConcurrencyLimits} {calls : List BoxedCall}
    {joined : Joined limits calls}
    (h : (executor.run_tool crates engine plan tool_name args caller_kind caller_id).Emits
      (before ++ ⟨.fan_out limits calls, joined⟩ :: after) rest)
    (htool : plan.tool tool_name = some tool) :
    ∃ auth clock, (∀ slug provider, auth.get slug = some provider → Found plan before slug provider) ∧
      Joins crates executor plan tool tool_name args auth clock (.fan_out limits calls) := by
  have hjoins : ¬ Joinless (.fan_out limits calls) := id
  have hnow : Run.now.AllAsks Joinless := .ask trivial fun _ => .done _
  have hutc : Run.utc_now.AllAsks Joinless := .ask trivial fun _ => .done _
  unfold Executor.run_tool at h
  obtain ⟨started, first, second, rfl, _, h⟩ := Prog.Emits.past hnow hjoins h
  rw [htool] at h
  obtain ⟨answer, loaded, third, rfl, hload, h⟩ := Prog.Emits.past (load_joinless plan) hjoins h
  cases answer with
  | error e =>
    obtain ⟨hnone, _⟩ := h.of_done
    exact absurd hnone (by simp)
  | ok auth =>
    obtain ⟨now, fourth, fifth, rfl, _, h⟩ := Prog.Emits.past hnow hjoins h
    obtain ⟨utc_now, sixth, seventh, rfl, _, h⟩ := Prog.Emits.past hutc hjoins h
    have htarget : Metered crates executor plan tool tool_name args auth now (·.2) ⟨now, now⟩
        (run_target crates engine plan ⟨executor.policy, auth, executor.max_redirects⟩
          (ConcurrencyLimits.build plan tool.budgets.max_concurrency)
          (BudgetMeter.new tool.budgets now utc_now) tool tool_name args) := run_target_metered rfl rfl
    have hfound : ∀ slug provider, auth.get slug = some provider →
        Found plan (first ++ (loaded ++ (fourth ++ (sixth ++ seventh)))) slug provider :=
      fun slug provider hget =>
        List.mem_append_right _ (List.mem_append_left _ (load_found hload hget))
    suffices hsafe : Prog.Safe Clock.note (Joins crates executor plan tool tool_name args auth)
        (fun _ _ => True) (⟨now, now⟩ : Clock) _ from ⟨auth, _, hfound, hsafe.question h⟩
    refine htarget.bind ?_
    rintro clock ⟨result, meter⟩ _
    dsimp only
    split
    · exact .done trivial
    · exact .of_asks finish_joinless (fun _ _ => Joinless.joins) _

/-- Every credential that a run sends is that of a provider the run found. -/
theorem credential_found
    (h : (executor.run_tool crates engine plan tool_name args caller_kind caller_id).Emits evs rest)
    (htool : plan.tool tool_name = some tool) {clock : Clock} {watch : Watch} {request : Request}
    {exchange : Exchange} (hsends : Sends evs clock watch request exchange)
    {header : HeaderName × HeaderValue} (hheader : header ∈ request.headers)
    (hsensitive : header.2.is_sensitive = true) : ∃ provider, SentFor plan evs provider header := by
  obtain ⟨before, limits, calls, joined, after, i, ⟨slug, p⟩, client, sent, unsent, rfl, hcall, hown,
    -, -⟩ := hsends
  obtain ⟨auth, clock', hfound, meter, remaining, caller_script, items, -, rfl, -, -, -⟩ :=
    joins_of_run h htool
  obtain ⟨name, args', -, rfl⟩ := getElem?_fan_items hcall
  obtain ⟨left, hemits⟩ := (Together.tracks joined.path).runs hcall
  rw [hown] at hemits
  obtain ⟨planned, hresolve, hattached⟩ := dispatch_attached.question hemits
  obtain ⟨provider, hget, hcredential⟩ := hattached header hheader hsensitive
  refine ⟨provider, ⟨planned, planned_of_resolve hresolve, ?_⟩, _, fun e he => ?_, hcredential⟩
  · exact List.mem_append_left _ (hfound planned.service.slug provider hget)
  refine ⟨before, _, _, joined, after, i, rfl, ?_⟩
  rw [hown]
  exact List.mem_append_left _ (mem_heard he)

/-- The scope that a plan was checked against holds in a run of it where each
service still has the provider it had, or has one of the scope. -/
theorem credentials_in_scope {checked P : Rows → Prop} {json : JsonCrate} {sha256_hex : String → String}
    {owner_id : Uuid} {slug : Slug}
    (hbuilt : Query.Yields checked (build_plan json sha256_hex owner_id slug) plan) :
    ∃ definition, Query.Yields checked (store.endpoint.get owner_id slug) (some definition) ∧
      (definition.auth_providers ≠ [] →
        ∀ (crates : Crates) (engine : script.Engine) (executor : Executor) (tool : PlannedTool)
          (tool_name : String) (args : Value) (caller_kind : store.RunCallerKind) (caller_id : String)
          (evs : List RunEvent) (rest : Run (Except ExecutorError RunResult)),
          plan.tool tool_name = some tool →
          (executor.run_tool crates engine plan tool_name args caller_kind caller_id).Emits evs rest →
          AnsweredFrom P evs →
          (∀ planned ∈ plan.calls.values,
            KeepsScope checked P owner_id definition.auth_providers planned.service.slug) →
          ∀ clock watch request exchange, Sends evs clock watch request exchange →
            ∀ header ∈ request.headers, header.2.is_sensitive = true →
              ∃ provider, definition.auth_providers.contains provider.slug = true ∧
                SentFor plan evs provider header) := by
  obtain ⟨rfl, definition, hendpoint, hchecked⟩ := scoped_of_build_plan hbuilt
  refine ⟨definition, hendpoint, fun hscoped => ?_⟩
  intro crates engine executor tool tool_name args caller_kind caller_id evs rest htool hrun hanswers
    hkeeps clock watch request exchange hsends header hheader hsensitive
  obtain ⟨provider, hsent⟩ := credential_found hrun htool hsends hheader hsensitive
  obtain ⟨planned, hplanned, hfound⟩ := hsent.found
  refine ⟨provider, ?_, hsent⟩
  obtain hscope | hsame := hkeeps planned hplanned provider (hanswers _ _ _ hfound)
  · exact hscope
  · obtain ⟨answer, hanswer, hin⟩ := hchecked hscoped planned hplanned
    obtain ⟨found, rfl, hslug⟩ := Option.map_eq_some_iff.mp (hsame answer hanswer)
    rw [← hslug]
    exact hin found rfl

end

/-- The api_call `crm` of the endpoint `crm`, which is confined to the provider
`crm`. -/
def scoped_call : api_calls.Model where
  id := 2
  owner_id := 1
  service_id := 1
  slug := sample.crm
  method := .GET
  path_template := "/ping"
  query_fixed := []
  body_template := none
  access := .Read
  idempotent := true
  projection := none
  pagination := .None
  timeout_ms := none
  max_response_bytes := none
  description := ""

/-- A provider of the service, with the credential on its row. -/
def stored_provider (id : Uuid) (slug : Slug) (raw : String) : auth_providers.Model :=
  { sample.auth_provider with
    id, slug, credential := .Stored (some ⟨raw⟩), value_template := "Bearer {token}" }

def scoped_rows (provider : auth_providers.Model) (scope : List endpoint_auth_providers.Model)
    (h : scope.length ≤ 1) : Rows where
  services := .single { sample.service with max_concurrency := 4 }
  auth_providers := .single provider
  api_calls := .single scoped_call
  tags := .single ⟨4, sample.crm⟩
  api_call_tags := .single ⟨2, 4⟩
  endpoints := .single (sample.endpoint 9)
  endpoint_auth_providers := .short scope h

def scoped_plan : EndpointPlan :=
  { sample_plan with
    tools := [{ name := "crm", input_schema := schema.input_schema [], target := .ApiCall sample.crm
                budgets := {} }] }

/-- The provider that the plan is checked against, and the rows. -/
def checked_rows : Rows := scoped_rows (stored_provider 5 sample.crm "one") [⟨9, 5⟩] (by decide)

theorem scoped_plan_built :
    (build_plan sample_crates.json (fun _ => "") 1 sample.crm).run.eval checked_rows = .ok scoped_plan := rfl

/-- A run of the plan that finds a provider for the service. -/
theorem scoped_run {provider : AuthProvider} {headers : HeaderMap}
    (hheaders : hop_headers sample_bound (some provider) = .done (.ok headers)) :
    ∃ evs rest, ((Executor.new {}).run_tool sample_crates (fun _ _ _ _ => .done (.ok .null)) scoped_plan
        "crm" (.object []) .Cli "").Emits evs rest ∧
      (∀ owner_id service_slug answer, (⟨.provider owner_id service_slug, answer⟩ : RunEvent) ∈ evs →
        owner_id = 1 ∧ service_slug = sample.crm ∧ answer = .ok (some provider)) ∧
      ∃ clock watch request exchange, Sends evs clock watch request exchange ∧
        request.headers = headers := by
  let meter : BudgetMeter := BudgetMeter.new {} (0 : Nat) 0
  let admitted : BudgetMeter := { meter with calls_used := meter.calls_used + 1#32 }
  have hresolve : resolve scoped_plan none "crm" = .ok sample_planned := rfl
  let ctx : DispatchContext := ⟨{}, [(sample.crm, provider)], 5⟩
  have hdispatch := @sample_dispatched_as scoped_plan ctx none "crm" headers hresolve rfl hheaders (0 : Nat)
    (call_budget admitted none) (by decide) (by decide)
  have hreserve : meter.reserve_calls (0 : Nat) 1#32 = (.ok (), admitted) := rfl
  have hremaining : admitted.remaining_time (0 : Nat) = .ok none := rfl
  obtain ⟨joined, hown, _, hbatch⟩ := run_batch_alone (fun key n hn => ConcurrencyLimits.build_pos hn)
    hreserve hremaining hdispatch
  have hload : (AuthProviders.load scoped_plan).Emits [⟨.provider 1 sample.crm, .ok (some provider)⟩]
      (.done (.ok [(sample.crm, provider)])) := .cons (.nil _)
  have htool : scoped_plan.tool "crm" = some _ := rfl
  have hrun := run_tool_emits sample_crates (fun _ _ _ _ => .done (.ok .null)) (Executor.new {}) .Cli ""
    htool (0 : Nat) (0 : Nat) 0 hload (hbatch.bind (.nil _)) "" (0 : Nat) 0
  refine ⟨_, _, hrun, ?_, ?_⟩
  · intro owner_id service_slug answer hmem
    simp only [List.mem_cons, List.mem_append, List.not_mem_nil, or_false, false_or, reduceCtorEq,
      Event.mk.injEq, false_and, RunQuestion.provider.injEq] at hmem
    obtain ⟨⟨rfl, rfl⟩, hanswer⟩ := hmem
    exact ⟨rfl, rfl, eq_of_heq hanswer⟩
  · exact ⟨_, _, _, _, ⟨[⟨.now, (0 : Nat)⟩, ⟨.provider 1 sample.crm, .ok (some provider)⟩,
      ⟨.now, (0 : Nat)⟩, ⟨.utc_now, 0⟩, ⟨.now, (0 : Nat)⟩, ⟨.now, (0 : Nat)⟩], _, _, joined, _, 0, _,
      client_of dispatch.sample_service {}, [_, _, _], [], rfl, rfl, hown, rfl, rfl⟩, rfl⟩

def sent_as (text : String) : HeaderMap := [(⟨"authorization"⟩, ⟨utf8 text, true⟩)]

def found_provider (provider : auth_providers.Model) : AuthProvider :=
  store.auth_provider.to_model provider sample.crm

/-- A store that has stayed as it is. -/
theorem answeredFrom_of_found {evs : List RunEvent} {rows : Rows} {provider : AuthProvider}
    (honly : ∀ owner_id service_slug answer, (⟨.provider owner_id service_slug, answer⟩ : RunEvent) ∈ evs →
      owner_id = 1 ∧ service_slug = sample.crm ∧ answer = .ok (some provider))
    (hfound : (store.auth_provider.get_for_service 1 sample.crm).run.eval rows = .ok (some provider)) :
    AnsweredFrom (· = rows) evs := by
  intro owner_id service_slug answer hmem
  obtain ⟨rfl, rfl, rfl⟩ := honly owner_id service_slug answer hmem
  exact Query.yields_eval.mpr hfound

/-- The provider is still there when a run looks for it. -/
theorem checked_provider_sent :
    ∃ evs rest, ((Executor.new {}).run_tool sample_crates (fun _ _ _ _ => .done (.ok .null)) scoped_plan
        "crm" (.object []) .Cli "").Emits evs rest ∧
      ∃ clock watch request exchange, Sends evs clock watch request exchange ∧
        ∃ header ∈ request.headers, header.2.is_sensitive = true ∧
          ∃ provider, provider.slug = sample.crm ∧ SentFor scoped_plan evs provider header := by
  have hheaders : hop_headers sample_bound (some (found_provider (stored_provider 5 sample.crm "one"))) =
      .done (.ok (sent_as "Bearer one")) := by rfl
  obtain ⟨evs, rest, hrun, honly, clock, watch, request, exchange, hsends, hrequest⟩ :=
    scoped_run hheaders
  have hanswers : AnsweredFrom (· = checked_rows) evs := answeredFrom_of_found honly rfl
  obtain ⟨definition, hendpoint, hscope⟩ := credentials_in_scope (Query.yields_eval.mpr scoped_plan_built)
  have hproviders : definition.auth_providers = [sample.crm] := by
    have heval := Query.yields_eval.mp hendpoint
    exact (congrArg EndpointDef.auth_providers (Option.some.inj (Except.ok.inj heval))).symm
  have hkeeps : ∀ planned ∈ scoped_plan.calls.values, KeepsScope (· = checked_rows) (· = checked_rows) 1
      definition.auth_providers planned.service.slug := by
    intro planned _ provider hprovider
    refine .inr fun answer hanswer => ?_
    rw [hanswer.unique hprovider]
    rfl
  refine ⟨evs, rest, hrun, clock, watch, request, exchange, hsends, (⟨"authorization"⟩, ⟨utf8 "Bearer one", true⟩),
    ?_, rfl, ?_⟩
  · rw [hrequest]
    exact List.mem_singleton_self _
  · obtain ⟨provider, hin, hsent⟩ := hscope (by rw [hproviders]; exact List.cons_ne_nil _ _) _ _ _ _ _ _
      _ _ _ _ rfl hrun hanswers hkeeps _ _ _ _ hsends _ (by rw [hrequest]; exact List.mem_singleton_self _) rfl
    rw [hproviders] at hin
    exact ⟨provider, by simpa using hin, hsent⟩

/-- A provider that the scope does not name. -/
def other_provider : auth_providers.Model :=
  stored_provider 6 ⟨"other", by decide, by decide, by decide⟩ "two"

/-- The provider is deleted after the plan was checked, and the service gets
another one, which the scope did not name: a run of the plan sends its
credential. -/
theorem replaced_provider_sent :
    (build_plan sample_crates.json (fun _ => "") 1 sample.crm).run.eval checked_rows = .ok scoped_plan ∧
    (∃ definition, (store.endpoint.get 1 sample.crm).run.eval checked_rows = .ok (some definition) ∧
      definition.auth_providers = [sample.crm]) ∧
    ∃ rows evs rest,
      (do
        let rows ← (store.Write.delete_auth_provider 5).apply checked_rows
        (store.Write.create_auth_provider (found_provider other_provider) 6 1).apply rows) = .ok rows ∧
      ((Executor.new {}).run_tool sample_crates (fun _ _ _ _ => .done (.ok .null)) scoped_plan
        "crm" (.object []) .Cli "").Emits evs rest ∧ AnsweredFrom (· = rows) evs ∧
      ∃ clock watch request exchange, Sends evs clock watch request exchange ∧
        ∃ header ∈ request.headers, header.2.is_sensitive = true ∧
          ¬ ∃ provider, provider.slug = sample.crm ∧ SentFor scoped_plan evs provider header := by
  have hheaders : hop_headers sample_bound (some (found_provider other_provider)) =
      .done (.ok (sent_as "Bearer two")) := by rfl
  obtain ⟨evs, rest, hrun, honly, clock, watch, request, exchange, hsends, hrequest⟩ :=
    scoped_run hheaders
  refine ⟨scoped_plan_built, ⟨_, rfl, rfl⟩, _, evs, rest, rfl, hrun, answeredFrom_of_found honly rfl, clock,
    watch, request, exchange, hsends, (⟨"authorization"⟩, ⟨utf8 "Bearer two", true⟩), ?_, rfl, ?_⟩
  · rw [hrequest]
    exact List.mem_singleton_self _
  · rintro ⟨provider, hslug, ⟨planned, _, hfound⟩, _⟩
    obtain ⟨_, _, hanswer⟩ := honly _ _ _ hfound
    obtain rfl := Option.some.inj (Except.ok.inj hanswer)
    exact absurd hslug (by decide)

end api2mcp.runtime
