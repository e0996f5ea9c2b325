import Api2Mcp.Collections.BTree
import Api2Mcp.Json.Number
import Api2Mcp.Model.ApiCall
import Mathlib.Data.List.Sort

namespace api2mcp.schema

open btree serde_json
open api2mcp.model

def json_schema_type_name : ParamType → String
  | .String => "string"
  | .Integer => "integer"
  | .Number => "number"
  | .Boolean => "boolean"
  | .StringArray => "array"

def insert_type (ty : ParamType) (obj : Map) : Map :=
  let obj := Map.insert "type" (.string (json_schema_type_name ty)) obj
  if ty = .StringArray then Map.insert "items" (.json [("type", .string "string")]) obj else obj

/-- A member that is there only if it has a value. -/
def insert_some (key : String) (value : Option Value) (obj : Map) : Map :=
  match value with
  | some value => Map.insert key value obj
  | none => obj

def property_schema (p : Param) : Value :=
  .object <|
    insert_some "default" p.default <|
    insert_some "enum" (p.enum_values.map .array) <|
    insert_some "description" (p.description.map .string) <|
    insert_type p.ty []

/-- The visible params in the order of their positions. -/
def input_schema (params : List Param) : Value :=
  let visible := (params.filter Param.is_model_visible).insertionSort fun a b => a.position ≤ b.position
  let properties := visible.foldl (fun out p => Map.insert p.name (property_schema p) out) []
  let required := (visible.filter (·.required)).map fun p => Value.string p.name
  .json [("type", .string "object"), ("properties", .object properties),
    ("required", .array required)]

/-- A digit string, optionally signed, that is an `i64`. -/
def parse_digit_string (s : String) : Option Int :=
  let (negative, digits) := match s.toList with
    | '-' :: digits => (true, digits)
    | digits => (false, digits)
  if digits.isEmpty || !digits.all Char.isDigit then none
  else
    let magnitude : Int := digits.foldl (fun n c => n * 10 + (c.toNat - '0'.toNat)) 0
    let n := if negative then -magnitude else magnitude
    if -2 ^ 63 ≤ n && n < 2 ^ 63 then some n else none

def coerce_integer : Value → Except String Value
  | .number (.Float bits) =>
    match Number.whole bits with
    | some n =>
      -- The comparison is between doubles, and the cast saturates.
      if -2 ^ 63 ≤ n && n ≤ 2 ^ 63 then .ok (.number (.of_i64 (min n (2 ^ 63 - 1)))) else .error "number"
    | none => .error "number"
  | .number n => .ok (.number n)
  | .string s =>
    match parse_digit_string s with
    | some n => .ok (.number (.of_i64 n))
    | none => .error "string"
  | other => .error other.json_type_name

def is_string : Value → Bool
  | .string _ => true
  | _ => false

/-- The value as one of the type, or the name of the type it has. -/
def coerce (ty : ParamType) (value : Value) : Except String Value :=
  match ty, value with
  | .String, .string _ => .ok value
  | .Integer, value => coerce_integer value
  | .Number, .number _ => .ok value
  | .Boolean, .bool _ => .ok value
  | .StringArray, .array items => if items.all is_string then .ok value else .error "array of non-strings"
  | _, other => .error other.json_type_name

inductive ValidationError where
  | NotAnObject
  | UnknownParam (param : String)
  | MissingRequired (param : String)
  | WrongType (param expected got : String)
  | NotInEnum (param : String)
  deriving DecidableEq, Repr

def ValidationError.to_string : ValidationError → String
  | .NotAnObject => "arguments must be a JSON object"
  | .UnknownParam param => "unknown parameter " ++ fmt.debug param
  | .MissingRequired param => "missing required parameter " ++ fmt.debug param
  | .WrongType param expected got =>
    "parameter " ++ fmt.debug param ++ ": expected " ++ expected ++ ", got " ++ got
  | .NotInEnum param => "parameter " ++ fmt.debug param ++ " is not one of the allowed values"

/-- One param: what the definer fixed, what the caller sent, or the default. -/
def bind_param (obj : Map) (bound : BTreeMap String Value) (p : Param) :
    Except ValidationError (BTreeMap String Value) :=
  match p.fixed with
  | some fixed => .ok (bound.insert p.name fixed)
  | none =>
    match Map.get p.name obj with
    | some value =>
      match coerce p.ty value with
      | .error got => .error (.WrongType p.name (json_schema_type_name p.ty) got)
      | .ok coerced =>
        if p.enum_values.any fun allowed => !allowed.any coerced.eq then .error (.NotInEnum p.name)
        else .ok (bound.insert p.name coerced)
    | none =>
      match p.default with
      | some default => .ok (bound.insert p.name default)
      | none => if p.required then .error (.MissingRequired p.name) else .ok bound

def bind_args (params : List Param) (args : Value) :
    Except ValidationError (BTreeMap String Value) :=
  match args with
  | .object obj => do
    let bound ← params.foldlM (bind_param obj) []
    match obj.find? fun field => !(params.map (·.name)).contains field.1 with
    | some unknown => .error (.UnknownParam unknown.1)
    | none => .ok bound
  | _ => .error .NotAnObject

end api2mcp.schema
