import Api2Mcp.Http.Bind
import Api2Mcp.Http.Paginate
import Api2Mcp.Http.Errors
import Api2Mcp.Project.Apply
import Api2Mcp.Resolve.Plan
import Api2Mcp.Runtime.Budget
import Api2Mcp.Text.Utf8

namespace api2mcp.runtime.dispatch

open btree interact net serde_json
open api2mcp.model api2mcp.http api2mcp.project api2mcp.resolve api2mcp.schema
open api2mcp.runtime.budget

/-- What the crates compute for a call. -/
structure Crates where
  url : UrlCrate
  values : ValueCrate
  json : JsonCrate
  canonical_reason : StatusCode → Option String
  deriving Inhabited

/-- What a dispatched call asks: what a request asks, and the client of its
service. A panic is a question without an answer. -/
inductive DispatchQuestion where
  | io (q : Question)
  | client_for (service : Service)
  | panic

abbrev DispatchAnswer : DispatchQuestion → Type
  | .io q => Answer q
  | .client_for _ => Except String Client
  | .panic => Empty

abbrev Dispatch := Prog DispatchQuestion DispatchAnswer

abbrev DispatchEvent := Event DispatchQuestion DispatchAnswer

/-- What answers a request's question among a call's. -/
def io_answer (q : Question) (a : DispatchAnswer (.io q)) : Answer q := a

def Dispatch.io {α : Type} (p : Io α) : Dispatch α := p.among .io io_answer

def Dispatch.client_for (service : Service) : Dispatch (Except String Client) :=
  Prog.query (DispatchQuestion.client_for service)

def Dispatch.panicked {α : Type} : Dispatch α := .ask .panic fun a => nomatch a

/-- An event of a request among a call's. -/
def io_event (e : IoEvent) : DispatchEvent := ⟨.io e.question, e.answer⟩

theorem Dispatch.io_emits {α : Type} {p : Io α} {evs : List IoEvent} {a : α}
    (h : p.Emits evs (.done a)) : (Dispatch.io p).Emits (evs.map io_event) (.done a) := by
  let forth (q : Question) (a : Answer q) : DispatchAnswer (.io q) := a
  exact Prog.Emits.among DispatchQuestion.io io_answer forth (fun _ _ => rfl) h

@[simp] theorem Dispatch.client_for_bind {α : Type} (service : Service)
    (f : Except String Client → Dispatch α) :
    (Dispatch.client_for service >>= f) = .ask (.client_for service) f := rfl

/-- The provider of each service, resolved once a run. -/
abbrev AuthProviders := BTreeMap Slug AuthProvider

structure DispatchContext where
  policy : SsrfPolicy
  auth : AuthProviders
  max_redirects : Nat

/-- What the calls of one batch may use, each of them. -/
structure CallBudget where
  max_response_bytes : u64
  max_pages : u32
  deadline : Duration

structure DispatchOutcome where
  api_call_slug : Slug
  service_slug : Slug
  method : Method
  request_headers : List (String × String)
  request_body : Option Value
  pages : List CallResponse
  value : Value

def DispatchOutcome.bytes_in (outcome : DispatchOutcome) : u64 :=
  wrapping_sum (outcome.pages.map fun p => .ofNat 64 p.body.length)

def DispatchOutcome.pages_fetched (outcome : DispatchOutcome) : u32 :=
  .ofNat 32 outcome.pages.length

/-- The request that went out, for the record of a call that failed after. -/
structure DispatchAttempt where
  api_call_slug : Slug
  service_slug : Slug
  method : Method
  request_headers : List (String × String)
  request_body : Option Value
  pages : List CallResponse

inductive DispatchError where
  | NotDeclared (name : String)
  | NotAnApiCall (name : String)
  | Args (e : ValidationError)
  | Bind (e : BindError)
  | Send (e : PaginateError)
  | Client (message : String)
  | HttpStatus (status : Nat) (reason detail : String) (attempt : Option DispatchAttempt)
  | ResponseNotJson (message : String) (attempt : Option DispatchAttempt)
  | Projection (source : ProjectionError) (attempt : Option DispatchAttempt)

namespace DispatchError

/-- `impl Display for DispatchError`. -/
def to_string : DispatchError → String
  | NotDeclared name => fmt.debug name ++ " is not declared for this caller"
  | NotAnApiCall name =>
    fmt.debug name ++ " is a script, not an api_call — it cannot be dispatched directly"
  | Args e => "arguments: " ++ e.to_string
  | Bind e => "binding request: " ++ e.to_string
  | Send e => "sending request: " ++ e.to_string
  | Client message => "building the upstream client: " ++ message
  | HttpStatus status reason detail _ =>
    "upstream returned " ++ Nat.repr status ++ " " ++ reason ++ ": " ++ detail
  | ResponseNotJson message _ => "response was not valid JSON: " ++ message
  | Projection source _ => "projection: " ++ source.to_string

/-- An error that is a budget trip. -/
def budget_trip : DispatchError → Option BudgetAxis
  | Send (.PageCapExceeded _) => some .Pages
  | Send (.Call .Timeout) => some .WallClock
  | _ => none

def attempt : DispatchError → Option DispatchAttempt
  | HttpStatus _ _ _ attempt => attempt
  | ResponseNotJson _ attempt => attempt
  | Projection _ attempt => attempt
  | _ => none

def with_attempt (e : DispatchError) (attempt : DispatchAttempt) : DispatchError :=
  match e with
  | HttpStatus status reason detail _ => HttpStatus status reason detail (some attempt)
  | ResponseNotJson message _ => ResponseNotJson message (some attempt)
  | Projection source _ => Projection source (some attempt)
  | other => other

end DispatchError

/-- The api_call a name stands for: an alias of the calling script, or a tool. -/
def resolve (plan : EndpointPlan) (caller_script : Option Slug) (name : String) :
    Except DispatchError PlannedApiCall :=
  match caller_script with
  | some script_slug =>
    match (plan.callable_by.get script_slug).bind fun reachable => reachable.get name with
    | none => .error (.NotDeclared name)
    | some api_call_slug =>
      match plan.calls.get api_call_slug with
      | none => .error (.NotDeclared name)
      | some planned => .ok planned
  | none =>
    match plan.tool name with
    | none => .error (.NotDeclared name)
    | some tool =>
      match tool.target with
      | .Script _ => .error (.NotAnApiCall name)
      | .ApiCall slug =>
        match plan.calls.get slug with
        | none => .error (.NotDeclared name)
        | some planned => .ok planned

def DETAIL_CAP : Nat := 512

section

variable (crates : Crates)

/-- The failure for a page that is no success; there is none where cutting its
text panics. -/
def http_status_error (page : CallResponse) : Option DispatchError :=
  let body := text.from_utf8_lossy page.body
  let detail := redact_message crates.url (text.trim_matches is_whitespace body)
  let failure detail := DispatchError.HttpStatus page.status.as_u16
    ((crates.canonical_reason page.status).getD "") detail none
  if detail.utf8ByteSize > DETAIL_CAP then
    (text.truncate detail DETAIL_CAP).map fun cut => failure (cut ++ "…")
  else some (failure detail)

def page_value (compiled : Option project.CompiledProjection) (page : CallResponse) :
    Except DispatchError Value := do
  let body ← if page.body.isEmpty then .ok .null
    else (crates.json.from_slice page.body).mapError (.ResponseNotJson · none)
  match compiled with
  | some p => (project.apply p body).mapError (.Projection · none)
  | none => .ok body

/-- One page's value, or the array of them all. -/
def project_pages (planned : PlannedApiCall) (pages : List CallResponse) :
    Except DispatchError Value := do
  let compiled ← match planned.api_call.projection with
    | none => .ok none
    | some p =>
      ((project.CompiledProjection.compile crates.json p).map some).mapError (.Projection · none)
  let values ← pages.mapM (page_value crates compiled)
  match values with
  | [value] => return value
  | values => return .array values

def attempt_of (planned : PlannedApiCall) (request : BoundRequest) (pages : List CallResponse) :
    DispatchAttempt where
  api_call_slug := planned.api_call.slug
  service_slug := planned.service.slug
  method := planned.api_call.method
  request_headers := request.headers
  request_body := request.body
  pages

/-- What becomes of a call once its pages are there. -/
def conclude (planned : PlannedApiCall) (request : BoundRequest) (pages : List CallResponse) :
    Dispatch (Except DispatchError DispatchOutcome) :=
  let attempt := attempt_of planned request pages
  match pages.find? fun p => !p.status.is_success with
  | some bad =>
    match http_status_error crates bad with
    | none => Dispatch.panicked
    | some error => return .error (error.with_attempt attempt)
  | none =>
    match project_pages crates planned pages with
    | .error e => return .error (e.with_attempt attempt)
    | .ok value =>
      return .ok { api_call_slug := attempt.api_call_slug, service_slug := attempt.service_slug
                   method := attempt.method, request_headers := attempt.request_headers
                   request_body := attempt.request_body, pages, value }

def send_params (ctx : DispatchContext) (planned : PlannedApiCall) (budget : CallBudget) :
    SendParams where
  allowlist := planned.service.origin_allowlist
  policy := ctx.policy
  auth := ctx.auth.get planned.service.slug
  max_response_bytes :=
    min (planned.api_call.max_response_bytes.getD planned.service.max_response_bytes)
      budget.max_response_bytes.toNat
  deadline := budget.deadline
  max_redirects := ctx.max_redirects

/-- The pages of a call that was bound. -/
def fetch (ctx : DispatchContext) (planned : PlannedApiCall) (budget : CallBudget)
    (request : BoundRequest) (client : Client) : Io (Except PaginateError (List CallResponse)) :=
  paginate crates.url crates.json.from_slice client request planned.api_call.pagination
    budget.max_pages.toNat (send_params ctx planned budget)

/-- What is left of `dispatch` once the call is resolved. -/
def dispatch_call (ctx : DispatchContext) (planned : PlannedApiCall) (args : Value)
    (budget : CallBudget) : Dispatch (Except DispatchError DispatchOutcome) :=
  match bind_args planned.api_call.params args with
  | .error e => return .error (.Args e)
  | .ok bound_args =>
    match http.bind crates.url crates.values planned.api_call planned.service bound_args with
    | .error e => return .error (.Bind e)
    | .ok request => do
      match ← Dispatch.client_for planned.service with
      | .error e => return .error (.Client e)
      | .ok client =>
        match ← Dispatch.io (fetch crates ctx planned budget request client) with
        | .error e => return .error (.Send e)
        | .ok pages => conclude crates planned request pages

def dispatch (plan : EndpointPlan) (ctx : DispatchContext) (caller_script : Option Slug)
    (name : String) (args : Value) (budget : CallBudget) :
    Dispatch (Except DispatchError DispatchOutcome) :=
  match resolve plan caller_script name with
  | .error e => return .error e
  | .ok planned => dispatch_call crates ctx planned args budget

end

section

variable {crates : Crates} {plan : EndpointPlan} {ctx : DispatchContext} {caller_script : Option Slug}
  {name : String} {args : Value} {budget : CallBudget} {planned : PlannedApiCall}

/-- A call whose pages are all there. -/
theorem dispatch_emits {bound_args : BTreeMap String Value} {request : BoundRequest} {client : Client}
    {pages : List CallResponse} {evs : List IoEvent} {result : Except DispatchError DispatchOutcome}
    (hresolve : resolve plan caller_script name = .ok planned)
    (hargs : bind_args planned.api_call.params args = .ok bound_args)
    (hbind : http.bind crates.url crates.values planned.api_call planned.service bound_args = .ok request)
    (hfetch : (fetch crates ctx planned budget request client).Emits evs (.done (.ok pages)))
    (hconclude : conclude crates planned request pages = .done result) :
    (dispatch crates plan ctx caller_script name args budget).Emits
      (⟨.client_for planned.service, .ok client⟩ :: (evs.map io_event ++ [])) (.done result) := by
  unfold dispatch dispatch_call
  simp only [hresolve, hargs, hbind, Dispatch.client_for_bind]
  refine .cons ((Dispatch.io_emits hfetch).bind ?_)
  dsimp only
  rw [hconclude]
  exact .nil _

end

/-- An endpoint with one api_call, `ping`, and the crates as they are on its
texts. -/
def sample_url : Url := { scheme := "https", host := some (.Domain "crm.example"), path := "/ping" }

def sample_origin : Origin := .crm

def sample_slug : Slug := .crm

def sample_service : Service where
  owner_id := 1
  slug := sample_slug
  base_url := { sample_url with path := "/" }
  origin_allowlist := [sample_origin]
  default_headers := []
  timeout_ms := 1000
  max_concurrency := 4
  rate_limit_per_min := none
  max_response_bytes := 1000

def sample_call : ApiCall where
  owner_id := 1
  slug := sample_slug
  service_slug := sample_slug
  method := .GET
  path_template := "/ping"
  query_fixed := []
  body_template := none
  access := .Read
  idempotent := true
  projection := none
  pagination := .None
  timeout_ms := none
  max_response_bytes := none
  params := []
  description := none

def sample_planned : PlannedApiCall where
  api_call := sample_call
  service := sample_service
  origin := sample_origin
  url_template := ⟨[.Literal "ping"]⟩
  projection := none

def sample_plan : EndpointPlan where
  owner_id := 1
  slug := sample_slug
  write_ceiling := .Read
  instructions := none
  tools := [{ name := "ping", input_schema := .object [], target := .ApiCall sample_slug, budgets := {} }]
  calls := [(sample_slug, sample_planned)]
  scripts := []
  callable_by := []
  origins := [sample_origin]
  budgets := {}
  digest := ""

def sample_crates : Crates where
  url :=
    { parse := fun text =>
        if text = "https://crm.example/ping" then .ok sample_url
        else .error "relative URL without a base"
      join := fun _ _ => .error "relative URL without a base"
      form_parse := fun _ => []
      form_serialize := fun _ => "" }
  values := default
  json :=
    { to_text := fun _ => "null"
      from_slice := fun bytes => if bytes = utf8 "null" then .ok .null else .error "expected value"
      parse_path := fun _ => .error "expected '$'" }
  canonical_reason _ := none

def sample_context : DispatchContext where
  policy := {}
  auth := []
  max_redirects := 5

/-- The upstream answers `null`. -/
def sample_exchange : Exchange where
  started := 0
  lookup := .error ""
  outcome := .ok { status := .OK, headers := [], content_length := none
                   chunks := [.ok (utf8 "null")] }

def sample_outcome : DispatchOutcome where
  api_call_slug := sample_slug
  service_slug := sample_slug
  method := .GET
  request_headers := []
  request_body := none
  pages := [{ status := .OK, headers := [], url := sample_url, body := utf8 "null" }]
  value := .null

def sample_request (timeout : Duration) : Request where
  method := .GET
  url := sample_url
  headers := []
  timeout
  body := none

/-- A call whose send starts at an instant. -/
def sample_events (t : Instant) (timeout : Duration) : List DispatchEvent :=
  [⟨.client_for sample_service, .ok (client_of sample_service {})⟩, ⟨.io .now, t⟩, ⟨.io .now, t⟩,
    ⟨.io (.exchange (client_of sample_service {}) (sample_request timeout)),
      { sample_exchange with started := t }⟩]

def sample_bound : BoundRequest := { method := .GET, url := sample_url, headers := [], body := none }

/-- The api_call with a timeout of its own, or that of its service. -/
def limited_call (timeout_ms : Option Nat) : PlannedApiCall :=
  { sample_planned with api_call := { sample_call with timeout_ms } }

/-- The upstream answers with a body. -/
def body_exchange (t : Instant) (body : List UInt8) : Exchange where
  started := t
  lookup := .error ""
  outcome := .ok { status := .OK, headers := [], content_length := none, chunks := [.ok body] }

/-- What a call came to whose one page has a body. -/
def body_outcome (body : List UInt8) (value : Value) : DispatchOutcome :=
  { sample_outcome with pages := [{ status := .OK, headers := [], url := sample_url, body }], value }

/-- One page that is JSON, at any time and with any headers. -/
theorem body_dispatched {plan : EndpointPlan} {ctx : DispatchContext} {caller_script : Option Slug}
    {name : String} {headers : HeaderMap} {json : JsonCrate} {body : List UInt8} {value : Value}
    (hbody : body.isEmpty = false) (hjson : json.from_slice body = .ok value) (timeout_ms : Option Nat)
    (hresolve : resolve plan caller_script name = .ok (limited_call timeout_ms)) (hpolicy : ctx.policy = {})
    (hheaders : hop_headers sample_bound (ctx.auth.get sample_slug) = .done (.ok headers))
    (t : Instant) (budget : CallBudget) (hfits : body.length ≤ 1000)
    (hbytes : body.length ≤ budget.max_response_bytes.toNat) (hpages : 0 < budget.max_pages.toNat) :
    (dispatch { sample_crates with json } plan ctx caller_script name (.object []) budget).Emits
      [⟨.client_for sample_service, .ok (client_of sample_service {})⟩, ⟨.io .now, t⟩, ⟨.io .now, t⟩,
        ⟨.io (.exchange (client_of sample_service {}) { sample_request budget.deadline with headers }),
          body_exchange t body⟩]
      (.done (.ok (body_outcome body value))) := by
  let crates : Crates := { sample_crates with json }
  let client := client_of sample_service {}
  let params := send_params ctx (limited_call timeout_ms) budget
  have hcap : ¬ body.length > params.max_response_bytes := by
    show ¬ body.length > min 1000 budget.max_response_bytes.toNat
    omega
  have hread : ∀ response : RawResponse, response.content_length = none → response.chunks = [.ok body] →
      read_capped crates.url response params.max_response_bytes = .ok body := by
    intro response hlength hchunks
    simp only [read_capped, hlength, hchunks, read_chunks, List.length_nil, Nat.zero_add, if_neg hcap,
      List.nil_append]
  have hchecked : check_url sample_url params.allowlist params.policy = .ok () := by
    show check_url sample_url [sample_origin] ctx.policy = .ok ()
    rw [hpolicy]
    rfl
  have htime : ¬ params.deadline < t - t := by
    rw [Nat.sub_self]
    exact Nat.not_lt_zero _
  let evs : List IoEvent := [⟨.now, t⟩, ⟨.now, t⟩,
    ⟨.exchange client { sample_request budget.deadline with headers }, body_exchange t body⟩]
  have hsend : (send crates.url client sample_bound params).Emits evs (.done (.ok
      { status := .OK, headers := [], url := sample_url, body })) := by
    have hemits := send_emits client sample_bound t t (body_exchange t body) hchecked htime
      hheaders rfl rfl (hread _ rfl rfl)
    rw [Nat.sub_self, Nat.sub_zero] at hemits
    exact hemits
  obtain ⟨left, hleft⟩ := Nat.exists_eq_succ_of_ne_zero hpages.ne'
  have hfetch : (fetch crates ctx (limited_call timeout_ms) budget sample_bound client).Emits (evs ++ [])
      (.done (.ok (body_outcome body value).pages)) := by
    unfold fetch paginate
    rw [hleft]
    exact hsend.bind (.nil _)
  -- Binding does not read the timeout.
  have hbind : http.bind crates.url crates.values (limited_call timeout_ms).api_call
      (limited_call timeout_ms).service [] = .ok sample_bound := by
    have hsample : http.bind sample_crates.url sample_crates.values sample_call sample_service [] =
        .ok sample_bound := rfl
    unfold http.bind at hsample ⊢
    exact hsample
  have hvalue : project_pages crates (limited_call timeout_ms) (body_outcome body value).pages = .ok value := by
    have hpage : page_value crates none { status := .OK, headers := [], url := sample_url, body } = .ok value := by
      rw [page_value, hbody, if_neg Bool.false_ne_true, hjson]
      rfl
    show ([_].mapM (page_value crates none) >>= _) = _
    rw [List.mapM_cons, hpage]
    rfl
  have hconclude : conclude crates (limited_call timeout_ms) sample_bound (body_outcome body value).pages =
      .done (.ok (body_outcome body value)) := by
    unfold conclude
    rw [hvalue]
    rfl
  exact dispatch_emits hresolve rfl hbind hfetch hconclude

/-- One page of four bytes, at any time and with any headers. -/
theorem limited_dispatched {plan : EndpointPlan} {ctx : DispatchContext} {caller_script : Option Slug}
    {name : String} {headers : HeaderMap} (timeout_ms : Option Nat)
    (hresolve : resolve plan caller_script name = .ok (limited_call timeout_ms)) (hpolicy : ctx.policy = {})
    (hheaders : hop_headers sample_bound (ctx.auth.get sample_slug) = .done (.ok headers))
    (t : Instant) (budget : CallBudget) (hbytes : 4 ≤ budget.max_response_bytes.toNat)
    (hpages : 0 < budget.max_pages.toNat) :
    (dispatch sample_crates plan ctx caller_script name (.object []) budget).Emits
      [⟨.client_for sample_service, .ok (client_of sample_service {})⟩, ⟨.io .now, t⟩, ⟨.io .now, t⟩,
        ⟨.io (.exchange (client_of sample_service {}) { sample_request budget.deadline with headers }),
          { sample_exchange with started := t }⟩]
      (.done (.ok sample_outcome)) := by
  have hjson : sample_crates.json.from_slice (utf8 "null") = .ok .null := rfl
  exact body_dispatched rfl hjson timeout_ms hresolve hpolicy hheaders t budget (by decide) hbytes hpages

theorem sample_dispatched_as {plan : EndpointPlan} {ctx : DispatchContext} {caller_script : Option Slug}
    {name : String} {headers : HeaderMap}
    (hresolve : resolve plan caller_script name = .ok sample_planned) (hpolicy : ctx.policy = {})
    (hheaders : hop_headers sample_bound (ctx.auth.get sample_slug) = .done (.ok headers))
    (t : Instant) (budget : CallBudget) (hbytes : 4 ≤ budget.max_response_bytes.toNat)
    (hpages : 0 < budget.max_pages.toNat) :
    (dispatch sample_crates plan ctx caller_script name (.object []) budget).Emits
      [⟨.client_for sample_service, .ok (client_of sample_service {})⟩, ⟨.io .now, t⟩, ⟨.io .now, t⟩,
        ⟨.io (.exchange (client_of sample_service {}) { sample_request budget.deadline with headers }),
          { sample_exchange with started := t }⟩]
      (.done (.ok sample_outcome)) :=
  limited_dispatched none hresolve hpolicy hheaders t budget hbytes hpages

theorem sample_dispatched_at {plan : EndpointPlan} {caller_script : Option Slug} {name : String}
    (hresolve : resolve plan caller_script name = .ok sample_planned) (t : Instant)
    (budget : CallBudget) (hbytes : 4 ≤ budget.max_response_bytes.toNat)
    (hpages : 0 < budget.max_pages.toNat) :
    (dispatch sample_crates plan sample_context caller_script name (.object []) budget).Emits
      (sample_events t budget.deadline) (.done (.ok sample_outcome)) :=
  sample_dispatched_as hresolve rfl rfl t budget hbytes hpages

/-- One page of four bytes. -/
theorem sample_dispatched (budget : CallBudget) (hbytes : 4 ≤ budget.max_response_bytes.toNat)
    (hpages : 0 < budget.max_pages.toNat) :
    ∃ evs, (dispatch sample_crates sample_plan sample_context none "ping" (.object []) budget).Emits evs
      (.done (.ok sample_outcome)) :=
  ⟨_, sample_dispatched_at rfl 0 budget hbytes hpages⟩

end api2mcp.runtime.dispatch
