import Api2Mcp.Resolve.BuildPlan

namespace api2mcp.resolve

open btree concurrent
open api2mcp.model api2mcp.store

abbrev CacheKey := Uuid × Slug

/-- The plans built so far, each with the generation read before its rows were. -/
abbrev PlanCache := CacheKey → Option (Nat × EndpointPlan)

def PlanCache.empty : PlanCache := fun _ => none

/-- The plan cached for `key`, if it was cached at this generation. -/
def PlanCache.cached_at (cache : PlanCache) (key : CacheKey) (generation : Nat) :
    Option EndpointPlan :=
  match cache key with
  | some (g, plan) => if g = generation then some plan else none
  | none => none

/-- What a server process works on: the database and its own plan cache. -/
structure AppState where
  db : Db
  plans : PlanCache

abbrev AppTask := Task Stmt AppState

section

variable (json : serde_json.JsonCrate) (sha256_hex : String → String)

/-- The lock on the cache is held for the lookup and for the insertion, not
while the plan is built. -/
def get_or_build (owner_id : Uuid) (slug : Slug) : AppTask (Except ResolveError EndpointPlan) := do
  let current_gen ← Task.read .select_generation fun state => state.db.generation.getD 0
  let key := (owner_id, slug)
  match ← Task.read .lookup_plan fun state => state.plans.cached_at key current_gen with
  | some plan => return .ok plan
  | none =>
    match ← (build_plan json sha256_hex owner_id slug).run.task .select (·.db.rows) with
    | .error e => return .error e
    | .ok plan =>
      Task.exec .insert_plan fun state =>
        (.ok plan,
         { state with plans := Function.update state.plans key (some (current_gen, plan)) })

end

end api2mcp.resolve
