import Api2Mcp.Resolve.Checks
import Api2Mcp.Runtime.Errors

namespace api2mcp.runtime.snapshot

open btree serde_json
open api2mcp.model api2mcp.resolve

/-! The builders of the digest, over again. -/

def api_call_json : ApiCall → Value := digest.api_call_json

def script_json : ScriptDef → Value := digest.script_json

def budgets_json : Budgets → Value := digest.budgets_json

def service_json (s : Service) : Value :=
  .json [("slug", .string s.slug.as_str), ("base_url", .string s.base_url.to_string),
    ("origin_allowlist", .array (s.origin_allowlist.map fun o => .string o.ascii_serialization)),
    ("default_headers", digest.string_map_json s.default_headers),
    ("timeout_ms", .of_nat s.timeout_ms), ("max_concurrency", .of_nat s.max_concurrency),
    ("rate_limit_per_min", .of_option .of_nat s.rate_limit_per_min),
    ("max_response_bytes", .of_nat s.max_response_bytes)]

/-- The calls a script reaches, by their aliases. -/
def callable_json (plan : EndpointPlan) (slug : Slug) : Value :=
  let reachable := (plan.callable_by.get slug).getD []
  .json (reachable.filterMap fun (alias_name, call_slug) =>
    (plan.calls.get call_slug).map fun p =>
      (alias_name, .json [("api_call", api_call_json p.api_call), ("service", service_json p.service)]))

/-- The definitions a tool ran from. -/
def build_snapshot (plan : EndpointPlan) (tool : PlannedTool) : Value :=
  match tool.target with
  | .ApiCall slug =>
    let planned := plan.calls.get slug
    .json [("kind", .string "api_call"), ("target_slug", .string slug.as_str),
      ("budgets", budgets_json tool.budgets),
      ("api_call", .of_option (fun p => api_call_json p.api_call) planned),
      ("service", .of_option (fun p => service_json p.service) planned)]
  | .Script slug =>
    .json [("kind", .string "script"), ("target_slug", .string slug.as_str),
      ("budgets", budgets_json tool.budgets),
      ("script", .of_option script_json (plan.scripts.get slug)),
      ("callable", callable_json plan slug)]

end api2mcp.runtime.snapshot

namespace api2mcp.http

open net serde_json

/-- A name's values, redacted as one text. -/
def redact_header (name : HeaderName) (values : List HeaderValue) : String :=
  if ALWAYS_REDACT.contains name.as_str || values.any (·.is_sensitive) then REDACTED
  else ", ".intercalate (values.map fun v => v.to_str.getD "<non-utf8>")

def redact_headers (headers : HeaderMap) : List (String × String) :=
  (headers.map (·.1)).dedup.map fun name =>
    (name.as_str, redact_header name ((headers.filter fun h => h.1 = name).map (·.2)))

end api2mcp.http

namespace api2mcp.runtime.recorder

open serde_json
open api2mcp.http api2mcp.model api2mcp.resolve api2mcp.store
open api2mcp.runtime.budget api2mcp.runtime.dispatch api2mcp.runtime.fanout api2mcp.runtime.batch

/-- What is recorded of a run beside its entries. -/
structure RunRecord where
  plan : EndpointPlan
  tool : PlannedTool
  caller_kind : RunCallerKind
  caller_id : String
  request_id : String
  args : Value
  output_redacted : Option Value
  status : RunStatus
  entries : List BatchEntry
  meter : BudgetMeter
  elapsed : Option Duration

def target_of (tool : PlannedTool) : RunTargetKind × Slug :=
  match tool.target with
  | .ApiCall slug => (.ApiCall, slug)
  | .Script slug => (.Script, slug)

/-- Both counters of a meter and its limits. -/
def snapshot_json (meter : BudgetMeter) : Value :=
  let word {w : Nat} (n : BitVec w) : Value := .of_nat n.toNat
  .json [("max_calls", .of_option word meter.max_calls), ("max_bytes", .of_option word meter.max_bytes),
    ("max_pages", .of_option word meter.max_pages),
    ("wall_clock_ms", .of_option word meter.wall_clock_ms), ("calls_used", word meter.calls_used),
    ("bytes_used", word meter.bytes_used), ("pages_used", word meter.pages_used)]

section

variable (crates : Crates)

def row_from_pages (index : Nat) (api_call_slug service_slug : Slug) (method : net.Method)
    (pages : List CallResponse) (error : Option String) : NewRunCall where
  seq := .ofNat 32 index
  api_call_slug
  service_slug
  method
  url_redacted := (pages.head?.map fun p => redact_url p.url).getD ""
  headers_redacted := some (digest.string_map_json
    (redact_headers ((pages.getLast?.map (·.headers)).getD [])))
  body_redacted := pages.getLast?.bind fun p => (crates.json.from_slice p.body).toOption
  status_code := pages.getLast?.map fun p => p.status.as_u16
  response_bytes := some (wrapping_sum (pages.map fun p => .ofNat 64 p.body.length))
  response_truncated := false
  error
  timings := none

/-- The row of an entry whose request is known to have gone out. -/
def new_run_call (entry : BatchEntry) : Option NewRunCall :=
  match entry.outcome with
  | .Ok o => some (row_from_pages crates entry.index o.api_call_slug o.service_slug o.method o.pages none)
  | .BudgetCut axis o =>
    some (row_from_pages crates entry.index o.api_call_slug o.service_slug o.method o.pages
      (some ("budget exceeded: " ++ axis.debug)))
  | .Failed e =>
    e.attempt.map fun a =>
      row_from_pages crates entry.index a.api_call_slug a.service_slug a.method a.pages
        (some (redact_message crates.url e.to_string))
  | .NotAttempted _ => none

def errors_json (entries : List BatchEntry) : Option Value :=
  let errors := (entries.filter fun e => !e.outcome.is_ok).map fun e =>
    Value.json [("index", .of_nat e.index), ("name", .string e.name),
      ("error", e.error_value crates.url)]
  if errors.isEmpty then none else some (.array errors)

def new_run (run : RunRecord) : NewRun where
  owner_id := run.plan.owner_id
  endpoint_slug := run.plan.slug
  tool_name := run.tool.name
  target_kind := (target_of run.tool).1
  target_slug := (target_of run.tool).2
  caller_kind := run.caller_kind
  caller_id := run.caller_id
  request_id := run.request_id
  execution_start := run.meter.execution_start
  definition_snapshot := snapshot.build_snapshot run.plan run.tool
  definition_digest := run.plan.digest
  input_redacted := run.args
  output_redacted := run.output_redacted
  status := run.status
  errors := errors_json crates run.entries
  calls_made := run.meter.calls_used
  bytes_in := run.meter.bytes_used
  pages_fetched := run.meter.pages_used
  budget_snapshot := some (snapshot_json run.meter)
  timings := run.elapsed.map fun d => .json [("elapsed_ms", .of_nat (d / 1000))]

def record (run : RunRecord) : Run (Except StoreError Uuid) :=
  Run.create_run (new_run crates run) (run.entries.filterMap (new_run_call crates))

end

end api2mcp.runtime.recorder
