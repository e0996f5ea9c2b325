import Api2Mcp.Resolve.CacheRuns
import Api2Mcp.Server.Mcp.Endpoint

namespace api2mcp.server.mcp.disabled

open concurrent
open api2mcp.entity api2mcp.model api2mcp.store api2mcp.resolve

/-! A server process: definition writes and requests to `/mcp/{slug}`. -/

inductive Call where
  | write (q : Fetch Write)
  | request (endpoint_slug : String) (caller : Caller) (endpoint_grants : EndpointGrants)
      (req : JsonRpcRequest)

inductive Answer where
  | written (result : Except StoreError Unit)
  | dispatched (dispatched : Dispatched)

/-- What lets a request ask for a plan: its slug is one that its credential may
reach, and its method needs the plan. -/
structure Accepted (endpoint_slug : String) (endpoint_grants : EndpointGrants) (req : JsonRpcRequest)
    (slug : Slug) : Prop where
  parsed : Slug.from_str endpoint_slug = .ok slug
  granted : endpoint_grants.allows slug = true
  method : req.method = "initialize" ∨ req.method = "tools/list" ∨ req.method = "tools/call"

section

variable (crate : net.UrlCrate) (json : serde_json.JsonCrate) (sha256_hex : String → String)

def Call.task : Call → AppTask Answer
  | write q => do return .written (← on_db (write_after q))
  | request endpoint_slug caller endpoint_grants req => do
    return .dispatched
      (← dispatch_method crate json sha256_hex endpoint_slug caller endpoint_grants req)

/-- What the server is when it starts: nothing is cached. -/
def Starting {ι : Type} (calls : ι → Call) (p : Pool ι Stmt AppState Answer) : Prop :=
  (∀ i, p.task i = (calls i).task crate json sha256_hex) ∧ p.store.plans = .empty

/-- What an accepted request makes of the plan it asked for. -/
def served (req : JsonRpcRequest) : Except ResolveError EndpointPlan → Dispatched
  | .error e => .respond (.of_error req.id (-32001) (http.redact_message crate e.to_string))
  | .ok plan =>
    if req.method = "initialize" then .initialize_result plan
    else if req.method = "tools/list" then .tools_list plan
    else .tools_call plan req.params

variable {crate json sha256_hex}

/-- An accepted request asks for the plan of its endpoint. -/
theorem dispatch_method_accepted {endpoint_slug : String} {caller : Caller}
    {endpoint_grants : EndpointGrants} {req : JsonRpcRequest} {slug : Slug}
    (h : Accepted endpoint_slug endpoint_grants req slug) :
    dispatch_method crate json sha256_hex endpoint_slug caller endpoint_grants req =
      do return served crate req (← get_or_build json sha256_hex caller.id slug) := by
  obtain ⟨hparsed, hgranted, hmethod⟩ := h
  unfold dispatch_method resolve_plan
  simp only [hparsed, hgranted, Bool.not_true, Bool.false_eq_true, if_false]
  obtain hmethod | hmethod | hmethod := hmethod
  · rw [if_pos hmethod, bind_assoc]
    refine congrArg _ (funext fun answer => ?_)
    cases answer with
    | error e => rfl
    | ok plan => simp [served, hmethod]
  · rw [if_neg (by simp [hmethod]), if_pos (by simp [hmethod]), bind_assoc]
    refine congrArg _ (funext fun answer => ?_)
    cases answer with
    | error e => rfl
    | ok plan => simp [served, hmethod]
  · rw [if_neg (by simp [hmethod]), if_pos (by simp [hmethod]), bind_assoc]
    refine congrArg _ (funext fun answer => ?_)
    cases answer with
    | error e => rfl
    | ok plan => simp [served, hmethod]

/-- Any other request is answered without a look at the database. -/
theorem dispatch_method_refused {endpoint_slug : String} {caller : Caller}
    {endpoint_grants : EndpointGrants} {req : JsonRpcRequest}
    (h : ∀ slug, ¬ Accepted endpoint_slug endpoint_grants req slug) :
    ∃ response, dispatch_method crate json sha256_hex endpoint_slug caller endpoint_grants req =
      .done (.respond response) := by
  by_cases hmethod : req.method = "initialize" ∨ req.method = "tools/list" ∨ req.method = "tools/call"
  · cases hparsed : Slug.from_str endpoint_slug with
    | error e =>
      unfold dispatch_method resolve_plan
      simp only [hparsed]
      split
      · exact ⟨_, rfl⟩
      split
      · exact ⟨_, rfl⟩
      · exact ⟨_, rfl⟩
    | ok slug =>
      cases hgranted : endpoint_grants.allows slug with
      | false => exact dispatch_method_of_not_allowed crate json sha256_hex hparsed hgranted
      | true => exact absurd ⟨hparsed, hgranted, hmethod⟩ (h slug)
  · push Not at hmethod
    obtain ⟨hfirst, hlist, hcall⟩ := hmethod
    unfold dispatch_method
    rw [if_neg hfirst, if_neg (by simp [hlist, hcall])]
    exact ⟨_, rfl⟩

variable {ι : Type} [DecidableEq ι]

variable (crate json sha256_hex) in
/-- A request makes of the plan it asks for what `served` says, if it asks for one. -/
theorem request_task (endpoint_slug : String) (caller : Caller) (endpoint_grants : EndpointGrants)
    (req : JsonRpcRequest) :
    (∃ slug, Accepted endpoint_slug endpoint_grants req slug ∧
      (Call.request endpoint_slug caller endpoint_grants req).task crate json sha256_hex =
        do return .dispatched (served crate req (← get_or_build json sha256_hex caller.id slug))) ∨
    ∃ response, (∀ slug, ¬ Accepted endpoint_slug endpoint_grants req slug) ∧
      (Call.request endpoint_slug caller endpoint_grants req).task crate json sha256_hex =
        .done (.dispatched (.respond response)) := by
  by_cases haccepted : ∃ slug, Accepted endpoint_slug endpoint_grants req slug
  · obtain ⟨slug, hslug⟩ := haccepted
    refine .inl ⟨slug, hslug, ?_⟩
    rw [Call.task, dispatch_method_accepted hslug, bind_assoc]
    rfl
  · have hrefused : ∀ slug, ¬ Accepted endpoint_slug endpoint_grants req slug :=
      fun slug hslug => haccepted ⟨slug, hslug⟩
    have hresponse : ∃ response,
        dispatch_method crate json sha256_hex endpoint_slug caller endpoint_grants req =
          .done (.respond response) := dispatch_method_refused hrefused
    obtain ⟨response, hresponse⟩ := hresponse
    refine .inr ⟨response, hrefused, ?_⟩
    rw [Call.task, hresponse]
    rfl

omit [DecidableEq ι] in
theorem Starting.serving {calls : ι → Call} {p : Pool ι Stmt AppState Answer}
    (hp : Starting crate json sha256_hex calls p) : Serving json sha256_hex p where
  phased i := by
    rw [hp.1]
    cases calls i with
    | write q => exact write_phased q Answer.written
    | request endpoint_slug caller endpoint_grants req =>
      obtain ⟨slug, _, htask⟩ | ⟨response, _, htask⟩ :=
        request_task crate json sha256_hex endpoint_slug caller endpoint_grants req
      · rw [htask]
        exact build_phased caller.id slug _
      · rw [htask]
        trivial
  serves i := by
    rw [hp.1]
    cases calls i with
    | write q => exact write_serves q Answer.written
    | request endpoint_slug caller endpoint_grants req =>
      obtain ⟨slug, _, htask⟩ | ⟨response, _, htask⟩ :=
        request_task crate json sha256_hex endpoint_slug caller endpoint_grants req
      · exact .build caller.id slug _ htask
      · rw [htask]
        exact .quiet (.done _)
  cold := hp.2

end

/-- An endpoint is switched off, and two tokens of its owner then ask for its
tools: one that reaches every endpoint, and one that reaches none. -/
def sampleCalls : Fin 3 → Call :=
  ![.write (endpoint.update
      { endpoint.to_model (sample.endpoint 10) [] [] with enabled := false }),
    .request "crm" ⟨.ServiceToken, 1⟩ .All ⟨none, "tools/list", none⟩,
    .request "crm" ⟨.ServiceToken, 1⟩ (.Only []) ⟨none, "tools/list", none⟩]

def samplePool : Pool (Fin 3) Stmt AppState Answer where
  store :=
    { db :=
        { rows := { endpoints := .single (sample.endpoint 10) }
          generation := some 1, meta_locked := false, now := 0, log := [] }
      plans := .empty }
  task i := (sampleCalls i).task default default fun _ => ""

theorem samplePool_starting : Starting default default (fun _ => "") sampleCalls samplePool :=
  ⟨fun _ => rfl, rfl⟩

end api2mcp.server.mcp.disabled
