import Api2Mcp.Model.ApiCall
import Api2Mcp.Model.Slug

namespace api2mcp.model

open btree

/-- What a run may spend; `none` is no opinion. -/
structure Budgets where
  max_calls : Option Nat := none
  max_bytes : Option Nat := none
  wall_clock : Option Duration := none
  max_pages : Option Nat := none
  max_concurrency : Option Nat := none
  deriving DecidableEq, Repr

def fold_opt : Option Nat → Option Nat → Option Nat
  | some x, some y => some (min x y)
  | some x, none => some x
  | none, some y => some y
  | none, none => none

def Budgets.fold (a b : Budgets) : Budgets where
  max_calls := fold_opt a.max_calls b.max_calls
  max_bytes := fold_opt a.max_bytes b.max_bytes
  wall_clock := fold_opt a.wall_clock b.wall_clock
  max_pages := fold_opt a.max_pages b.max_pages
  max_concurrency := fold_opt a.max_concurrency b.max_concurrency

structure ScriptDef where
  owner_id : Uuid
  slug : Slug
  source : String
  params : List Param
  callable : BTreeMap String Slug
  budgets : Budgets
  description : Option String

inductive EndpointTarget where
  | ApiCall (slug : Slug)
  | Script (slug : Slug)
  deriving DecidableEq

structure EndpointDef where
  owner_id : Uuid
  slug : Slug
  tag_expr : TagExpr
  write_ceiling : Access
  budgets : Budgets
  instructions : Option String
  enabled : Bool
  aliases : BTreeMap String EndpointTarget
  auth_providers : BTreeSet Slug
  deriving DecidableEq

end api2mcp.model
