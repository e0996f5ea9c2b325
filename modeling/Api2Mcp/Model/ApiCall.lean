import Api2Mcp.Json.Pointer
import Api2Mcp.Model.Origin
import Api2Mcp.Model.Slug
import Api2Mcp.Net.Http
import Api2Mcp.Store.Basic

namespace api2mcp.model

open net serde_json jsonptr

inductive Access where
  | Read
  | Write
  deriving DecidableEq, Repr

/-- Variant order: a read is below a write. -/
def Access.le : Access → Access → Bool
  | .Write, .Read => false
  | _, _ => true

inductive ParamLocation where
  | Path
  | Query
  | Header
  | Body (pointer : PointerBuf)
  | Local
  deriving DecidableEq, Repr

def HEADER_PARAM_ALLOWLIST : List String :=
  ["Accept", "Accept-Language", "Content-Language", "If-Match", "If-None-Match", "Idempotency-Key",
    "X-Request-Id", "X-Correlation-Id"]

def is_header_param_name_allowed (name : String) : Bool := HEADER_PARAM_ALLOWLIST.contains name

inductive ParamType where
  | String
  | Integer
  | Number
  | Boolean
  | StringArray
  deriving DecidableEq, Repr

structure Param where
  name : String
  location : ParamLocation
  ty : ParamType
  required : Bool
  default : Option Value
  fixed : Option Value
  enum_values : Option (List Value)
  description : Option String
  position : Int

/-- A param the definer fixed is not the caller's to see. -/
def Param.is_model_visible (param : Param) : Bool := param.fixed.isNone

inductive Cardinality where
  | One
  | Many
  deriving DecidableEq, Repr

structure ProjectionField where
  name : String
  path : String
  cardinality : Cardinality
  coerce : Option ParamType
  deriving DecidableEq, Repr

structure Projection where
  fields : List ProjectionField
  deriving DecidableEq, Repr

inductive Pagination where
  | None
  | Cursor (next_cursor_path : PointerBuf) (query_param : String)
  deriving DecidableEq, Repr

structure ApiCall where
  owner_id : Uuid
  slug : Slug
  service_slug : Slug
  method : Method
  path_template : String
  query_fixed : List (String × String)
  body_template : Option Value
  access : Access
  idempotent : Bool
  projection : Option Projection
  pagination : Pagination
  timeout_ms : Option Nat
  max_response_bytes : Option Nat
  params : List Param
  description : Option String

/-- Maps with text keys, in the order of their keys. -/
structure Service where
  owner_id : Uuid
  slug : Slug
  base_url : Url
  origin_allowlist : List Origin
  default_headers : List (String × String)
  timeout_ms : Nat
  max_concurrency : Nat
  rate_limit_per_min : Option Nat
  max_response_bytes : Nat
  deriving DecidableEq

end api2mcp.model
