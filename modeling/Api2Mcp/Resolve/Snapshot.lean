import Api2Mcp.Concurrent.Trace
import Api2Mcp.Resolve.BuildPlan
import Mathlib.Data.Fin.VecNotation
import Mathlib.Tactic.IntervalCases

namespace api2mcp.resolve.snapshot

open concurrent
open api2mcp.entity api2mcp.model api2mcp.store

/-! Plans that are built while definitions are written. -/

inductive Call where
  | write (q : Fetch Write)
  | build_plan (owner_id : Uuid) (slug : Slug)

inductive Answer where
  | written (result : Except StoreError Unit)
  | built (result : Except ResolveError EndpointPlan)

section

variable (json : serde_json.JsonCrate) (sha256_hex : String → String)

def Call.task : Call → DbTask Answer
  | write q => do return .written (← write_after q)
  | build_plan owner_id slug => do
    return .built (← (resolve.build_plan json sha256_hex owner_id slug).run.task .select Db.rows)

variable {json sha256_hex} {ι : Type} [DecidableEq ι]

end

/-- A script `report`, as the tool `report` of the endpoint. -/
def report_row : scripts.Model where
  id := 3
  owner_id := 1
  slug := sample.crm
  description := none
  source := ""
  max_calls := some 5
  max_bytes := none
  wall_clock_ms := none
  max_pages := none
  max_concurrency := none

def report_rows : Rows where
  services := .single sample.service
  tags := .single ⟨4, sample.crm⟩
  scripts := .single report_row
  script_tags := .single ⟨3, 4⟩
  endpoints := .single (sample.endpoint 9)
  endpoint_aliases := .single ⟨9, .Script sample.crm, "report"⟩

/-- What a client is shown of a plan. -/
def shown (plan : EndpointPlan) : Option String × List String :=
  (plan.instructions, plan.tools.map (·.name))

end api2mcp.resolve.snapshot
