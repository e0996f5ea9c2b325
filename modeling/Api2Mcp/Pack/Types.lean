import Api2Mcp.Collections.BTree
import Api2Mcp.Json.Value

namespace api2mcp.pack

open btree serde_json

def PACK_VERSION : Nat := 1

structure PackService where
  base_url : String
  origin_allowlist : BTreeSet String
  default_headers : BTreeMap String String
  timeout_ms : Nat
  max_concurrency : Nat
  rate_limit_per_min : Option Nat
  max_response_bytes : Nat

/-- A pointer into the body is still a text. -/
inductive PackParamLocation where
  | Path
  | Query
  | Header
  | Body (pointer : String)
  | Local
  deriving DecidableEq

structure PackParam where
  name : String
  location : PackParamLocation
  ty : String
  required : Bool
  default : Option Value
  fixed : Option Value
  enum_values : Option (List Value)
  description : Option String
  position : Int

inductive PackCardinality where
  | One
  | Many
  deriving DecidableEq

structure PackProjectionField where
  name : String
  path : String
  cardinality : PackCardinality
  coerce : Option String

structure PackProjection where
  fields : List PackProjectionField

inductive PackPagination where
  | None
  | Cursor (next_cursor_path query_param : String)

structure PackBudgets where
  max_calls : Option Nat
  max_bytes : Option Nat
  wall_clock_ms : Option Nat
  max_pages : Option Nat
  max_concurrency : Option Nat

structure PackApiCall where
  service : String
  method : String
  path_template : String
  query_fixed : BTreeMap String String
  body_template : Option Value
  access : String
  idempotent : Bool
  projection : Option PackProjection
  pagination : PackPagination
  timeout_ms : Option Nat
  max_response_bytes : Option Nat
  params : List PackParam
  tags : BTreeSet String
  description : Option String

structure PackScript where
  source : String
  params : List PackParam
  callable : BTreeMap String String
  budgets : PackBudgets
  description : Option String
  tags : BTreeSet String

inductive PackEndpointTarget where
  | ApiCall (slug : String)
  | Script (slug : String)

structure PackEndpoint where
  tag_expr : String
  write_ceiling : String
  budgets : PackBudgets
  instructions : Option String
  enabled : Bool
  aliases : BTreeMap String PackEndpointTarget
  auth_providers : BTreeSet String

/-- The document, every definition under its slug. -/
structure Pack where
  version : Nat
  services : BTreeMap String PackService
  api_calls : BTreeMap String PackApiCall
  scripts : BTreeMap String PackScript
  endpoints : BTreeMap String PackEndpoint
  tags : BTreeSet String

end api2mcp.pack
