import Api2Mcp.Json.Value
import Api2Mcp.Schema.Validate

namespace api2mcp.project

open serde_json
open api2mcp.model api2mcp.schema

structure CompiledField where
  name : String
  path_str : String
  path : Value → List Value
  cardinality : Cardinality
  coerce : Option ParamType

structure CompiledProjection where
  fields : List CompiledField

inductive ProjectionError where
  | InvalidPath (name path message : String)
  | Missing (name path : String)
  | AmbiguousMatch (name path : String) (count : Nat)
  | CoercionFailed (name actual expected : String)
  deriving DecidableEq, Repr

/-- `impl Display for ProjectionError`. -/
def ProjectionError.to_string : ProjectionError → String
  | .InvalidPath name path message =>
    "field " ++ fmt.debug name ++ ": invalid JSONPath " ++ fmt.debug path ++ ": " ++ message
  | .Missing name path =>
    "field " ++ fmt.debug name ++ " (cardinality one): no node matched " ++ fmt.debug path
  | .AmbiguousMatch name path count =>
    "field " ++ fmt.debug name ++ " (cardinality one): " ++ Nat.repr count ++ " nodes matched " ++
      fmt.debug path ++ ", expected exactly one"
  | .CoercionFailed name actual expected =>
    "field " ++ fmt.debug name ++ ": matched value is " ++ actual ++
      ", which cannot be coerced to " ++ expected

def CompiledProjection.compile (json : JsonCrate) (projection : Projection) :
    Except ProjectionError CompiledProjection := do
  let fields ← projection.fields.mapM fun field =>
    match json.parse_path field.path with
    | .error e => .error (.InvalidPath field.name field.path e)
    | .ok path =>
      .ok { name := field.name, path_str := field.path, path, cardinality := field.cardinality
            coerce := field.coerce : CompiledField }
  return ⟨fields⟩

def coerce_integer : Value → Except String Value
  | .number (.Float bits) =>
    match Number.whole bits with
    | some n =>
      -- The comparison is between doubles, and the cast saturates.
      if -2 ^ 63 ≤ n && n ≤ 2 ^ 63 then .ok (.number (.of_i64 (min n (2 ^ 63 - 1)))) else .error "number"
    | none => .error "number"
  | .number n => .ok (.number n)
  | .string s =>
    let (negative, digits) := match s.toList with
      | '-' :: digits => (true, digits)
      | digits => (false, digits)
    if !digits.isEmpty && digits.all Char.isDigit then
      let magnitude : Int := digits.foldl (fun n c => n * 10 + (c.toNat - '0'.toNat)) 0
      let n := if negative then -magnitude else magnitude
      if -2 ^ 63 ≤ n && n < 2 ^ 63 then .ok (.number (.of_i64 n)) else .error "string"
    else .error "string"
  | other => .error other.json_type_name

/-- The coercion of an argument, written out a second time. -/
def coerce_value (ty : ParamType) (value : Value) : Except String Value :=
  match ty, value with
  | .String, .string _ => .ok value
  | .Integer, value => coerce_integer value
  | .Number, .number _ => .ok value
  | .Boolean, .bool _ => .ok value
  | .StringArray, .array items => if items.all is_string then .ok value else .error "array of non-strings"
  | _, other => .error other.json_type_name

def coercion_failed (field : CompiledField) (ty : ParamType) (actual : String) : ProjectionError :=
  .CoercionFailed field.name actual (json_schema_type_name ty)

def project_one (field : CompiledField) : List Value → Except ProjectionError Value
  | [] => .error (.Missing field.name field.path_str)
  | [single] =>
    match field.coerce with
    | some ty => (coerce_value ty single).mapError (coercion_failed field ty)
    | none => .ok single
  | many => .error (.AmbiguousMatch field.name field.path_str many.length)

def project_many (field : CompiledField) (nodes : List Value) : Except ProjectionError Value :=
  match field.coerce with
  | none => .ok (.array nodes)
  | some ty => ((nodes.mapM (coerce_value ty)).map .array).mapError (coercion_failed field ty)

/-- Every field's nodes under its name. -/
def apply (projection : CompiledProjection) (body : Value) : Except ProjectionError Value := do
  let out ← projection.fields.foldlM (fun out field => do
    let nodes := field.path body
    let value ← match field.cardinality with
      | .One => project_one field nodes
      | .Many => project_many field nodes
    return Map.insert field.name value out) []
  return .object out

end api2mcp.project
