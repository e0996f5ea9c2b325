import Api2Mcp.Entity.Users
import Api2Mcp.Json.Schema
import Api2Mcp.Relational.References

namespace api2mcp.entity

open relational serde_json

/-- The character that neither a `TEXT` nor a `JSONB` column holds. -/
def NUL : Char := Char.ofNat 0

/-- `TEXT`. -/
def is_text (s : String) : Bool := !s.toList.contains NUL

/-- `JSONB`: every text of the value is one. -/
def is_jsonb (v : Value) : Bool := v.texts.all is_text

theorem is_jsonb_iff {v : Value} : is_jsonb v = true ↔ ∀ s ∈ v.texts, is_text s = true := List.all_eq_true

@[simp] theorem is_jsonb_null : is_jsonb .null = true := rfl

@[simp] theorem is_jsonb_number (n : Number) : is_jsonb (.number n) = true := rfl

@[simp] theorem is_jsonb_string (s : String) : is_jsonb (.string s) = is_text s := Bool.and_true _

theorem is_jsonb_array {items : List Value} :
    is_jsonb (.array items) = true ↔ ∀ item ∈ items, is_jsonb item = true := by
  simp only [is_jsonb_iff]
  exact Value.forall_texts_array

/-- An object literal whose keys differ. -/
theorem is_jsonb_json {fields : Map} (hkeys : (fields.map Prod.fst).Nodup) :
    is_jsonb (.json fields) = true ↔ ∀ field ∈ fields, is_text field.1 = true ∧ is_jsonb field.2 = true := by
  simp only [is_jsonb_iff]
  exact Value.forall_texts_json hkeys

/-- `INTEGER`. -/
def is_integer (n : Int) : Bool := -2 ^ 31 ≤ n && n < 2 ^ 31

/-- `BIGINT`. -/
def is_bigint (n : Int) : Bool := -2 ^ 63 ≤ n && n < 2 ^ 63

namespace runs

structure Model where
  id : Uuid
  owner_id : Uuid
  endpoint_slug : String
  tool_name : String
  target_kind : String
  target_slug : String
  caller_kind : String
  caller_id : String
  request_id : String
  execution_start : DateTime
  definition_snapshot : Value
  definition_digest : String
  input_redacted : Value
  output_redacted : Option Value
  status : String
  errors : Option Value
  calls_made : Int
  bytes_in : Int
  pages_fetched : Int
  budget_snapshot : Option Value
  timings : Option Value
  created_at : DateTime

/-- The primary key. -/
def indexes : Indexes Model := .on Model.id

/-- Each column takes its value, and the three checks are met. -/
def Model.accepted (r : Model) : Bool :=
  [r.endpoint_slug, r.tool_name, r.target_kind, r.target_slug, r.caller_kind, r.caller_id, r.request_id,
    r.definition_digest, r.status].all is_text &&
  [some r.definition_snapshot, some r.input_redacted, r.output_redacted, r.errors, r.budget_snapshot,
    r.timings].all (·.all is_jsonb) &&
  is_integer r.calls_made && is_bigint r.bytes_in && is_integer r.pages_fetched &&
  ["api_call", "script"].contains r.target_kind &&
  ["session", "oauth", "service_token", "cli"].contains r.caller_kind &&
  ["ok", "partial", "error", "denied", "budget_exceeded", "timeout"].contains r.status

end runs

namespace run_calls

structure Model where
  id : Uuid
  run_id : Uuid
  seq : Int
  api_call_slug : String
  service_slug : String
  method : String
  url_redacted : String
  headers_redacted : Option Value
  body_redacted : Option Value
  status_code : Option Int
  response_bytes : Option Int
  response_truncated : Bool
  error : Option String
  timings : Option Value
  created_at : DateTime

/-- The primary key and `ux_run_calls_run_seq`. -/
def indexes : Indexes Model := (Indexes.on Model.id).or (.on fun r => (r.run_id, r.seq))

/-- Each column takes its value. -/
def Model.accepted (r : Model) : Bool :=
  [some r.api_call_slug, some r.service_slug, some r.method, some r.url_redacted, r.error].all
    (·.all is_text) &&
  [r.headers_redacted, r.body_redacted, r.timings].all (·.all is_jsonb) &&
  is_integer r.seq && r.status_code.all is_integer && r.response_bytes.all is_bigint

end run_calls

/-- The audit trail with the users it belongs to. A row of it names a row of the
table it refers to. -/
structure AuditRows where
  users : Table users.indexes := .empty
  runs : Table runs.indexes := .empty
  run_calls : Table run_calls.indexes := .empty
  fk_runs_owner : References runs (·.owner_id) users (·.id)
  fk_run_calls_run : References run_calls (·.run_id) runs (·.id)

end api2mcp.entity
