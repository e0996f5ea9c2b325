import Api2Mcp.Concurrent.Task
import Api2Mcp.Relational.Table
import Api2Mcp.Text.Fmt
import Mathlib.Algebra.Group.Nat.Defs

namespace api2mcp

/-- Primary keys. Version 4 identifiers are random, so a call takes the ones
it draws as arguments. -/
abbrev Uuid := Nat

/-- A point in time, in microseconds since the epoch. -/
abbrev DateTime := Int

/-- `std::time::Duration`, in microseconds. -/
abbrev Duration := Nat

namespace chrono

/-- `impl Display for OutOfRangeError`. -/
def out_of_range : String := "Source duration value is out of range for the target type"

/-- `chrono::Duration::to_std`: a negative span has no counterpart. -/
def to_std (d : Int) : Except String Duration :=
  if d < 0 then .error out_of_range else .ok d.toNat

/-- `chrono::Duration::from_std`: at most `i64::MAX` milliseconds. -/
def from_std (d : Duration) : Except String Int :=
  if d ≤ (2 ^ 63 - 1) * 1000 then .ok d else .error out_of_range

end chrono

namespace store

inductive StoreError where
  | NotFound
  | Malformed (message : String)
  | Conflict (message : String)
  | Db
  | Internal (message : String)
  deriving DecidableEq, Repr

/-- `impl Display for StoreError`. -/
def StoreError.to_string : StoreError → String
  | .NotFound => "not found"
  | .Malformed m => "malformed database row: " ++ m
  | .Conflict m => m
  | .Db => "database error"
  | .Internal m => m

end store

end api2mcp
