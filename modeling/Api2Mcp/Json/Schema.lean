import Api2Mcp.Collections.Sorted
import Api2Mcp.Json.Number
import Api2Mcp.Json.Nesting
import Mathlib.Data.String.Basic
import Mathlib.Order.Defs.Unbundled

namespace serde_json

open btree

theorem Map.insert_eq (key : String) (value : Value) (fields : Map) :
    Map.insert key value fields = BTreeMap.insert key value fields := by
  induction fields with
  | nil => rfl
  | cons field fields ih => rw [Map.insert, BTreeMap.insert, ih]

theorem Map.get_eq (key : String) (fields : Map) : Map.get key fields = BTreeMap.get fields key := by
  induction fields with
  | nil => rfl
  | cons field fields ih =>
    obtain ⟨k, v⟩ := field
    by_cases h : k = key
    · simp [Map.get, BTreeMap.get, h]
    · simpa [Map.get, BTreeMap.get, h] using ih

theorem Map.mem_insert {key : String} {value : Value} {fields : Map} {field : String × Value}
    (h : field ∈ Map.insert key value fields) : field = (key, value) ∨ field ∈ fields := by
  rw [Map.insert_eq] at h
  exact BTreeMap.mem_insert h

theorem Map.mem_of_get {key : String} {value : Value} {fields : Map} (h : Map.get key fields = some value) :
    (key, value) ∈ fields := by
  rw [Map.get_eq] at h
  exact BTreeMap.mem_of_get h

namespace Value

/-- An object literal keeps the last member of each key. -/
theorem json_eq (fields : Map) : json fields = .object (BTreeMap.collect fields) := by
  have hinsert : (fun (out : Map) (f : String × Value) => Map.insert f.1 f.2 out) =
      fun out f => BTreeMap.insert f.1 f.2 out := by
    funext out f
    exact Map.insert_eq f.1 f.2 out
  rw [json, hinsert, BTreeMap.collect]

/-- An object literal nests within what bounds its members. -/
theorem nesting_json_le {fields : Map} {n : Nat} (h : ∀ field ∈ fields, field.2.nesting + 1 ≤ n) :
    (json fields).nesting ≤ n := by
  rw [json_eq, nesting_object_le]
  exact fun field hfield => h field (BTreeMap.mem_of_mem_collect hfield)

theorem forall_numbers_json {fields : Map} {P : Number → Prop}
    (h : ∀ field ∈ fields, ∀ x ∈ numbers field.2, P x) : ∀ x ∈ numbers (json fields), P x := by
  rw [json_eq, forall_numbers_object]
  exact fun field hfield => h field (BTreeMap.mem_of_mem_collect hfield)

/-- The texts of an object literal whose keys differ. -/
theorem forall_texts_json {fields : Map} (hkeys : (fields.map Prod.fst).Nodup) {P : String → Prop} :
    (∀ s ∈ texts (json fields), P s) ↔ ∀ field ∈ fields, P field.1 ∧ ∀ s ∈ texts field.2, P s := by
  rw [json_eq, forall_texts_object]
  exact forall_congr' fun field => imp_congr_left (BTreeMap.mem_collect hkeys)

end Value

end serde_json

namespace json_schema

open serde_json

mutual

/-- Equality of JSON: numbers are compared by their values, in whatever form
they are kept. -/
def same : Value → Value → Bool
  | .null, .null => true
  | .bool a, .bool b => a = b
  | .number a, .number b => a.value = b.value
  | .string a, .string b => a = b
  | .array a, .array b => same_items a b
  | .object a, .object b => same_fields a b
  | _, _ => false

def same_items : List Value → List Value → Bool
  | [], [] => true
  | a :: as, b :: bs => same a b && same_items as bs
  | _, _ => false

def same_fields : Map → Map → Bool
  | [], [] => true
  | (k, a) :: as, (l, b) :: bs => k = l && same a b && same_fields as bs
  | _, _ => false

end

/-- A type name. A number without a fraction is an integer. -/
def has_type (ty : String) : Value → Bool
  | .null => ty = "null"
  | .bool _ => ty = "boolean"
  | .number x => ty = "number" || (ty = "integer" && x.integer.isSome)
  | .string _ => ty = "string"
  | .array _ => ty = "array"
  | .object _ => ty = "object"

/-- `type`: one name, or any of a list. -/
def type_keyword (keyword v : Value) : Bool :=
  match keyword with
  | .string ty => has_type ty v
  | .array tys => tys.any fun ty => ty.as_str.any (has_type · v)
  | _ => true

def enum_keyword (keyword v : Value) : Bool :=
  match keyword with
  | .array allowed => allowed.any (same v)
  | _ => true

def required_keyword (keyword v : Value) : Bool :=
  match keyword, v with
  | .array names, .object obj => names.all fun name => name.as_str.all fun k => (Map.get k obj).isSome
  | _, _ => true

mutual

/-- A value satisfies a schema: every keyword of it. -/
def satisfies : Value → Value → Bool
  | .bool b, _ => b
  | .object keywords, v => satisfies_all keywords v
  | _, _ => true

/-- A keyword that is not known asks nothing. -/
def satisfies_all : Map → Value → Bool
  | [], _ => true
  | (k, keyword) :: keywords, v =>
    (if k = "type" then type_keyword keyword v
      else if k = "enum" then enum_keyword keyword v
      else if k = "required" then required_keyword keyword v
      else if k = "properties" then properties_keyword keyword v
      else if k = "items" then items_keyword keyword v
      else true) && satisfies_all keywords v

def properties_keyword : Value → Value → Bool
  | .object properties, .object obj => satisfies_properties properties obj
  | _, _ => true

def satisfies_properties : Map → Map → Bool
  | [], _ => true
  | (k, schema) :: properties, obj =>
    (Map.get k obj).all (satisfies schema) && satisfies_properties properties obj

def items_keyword (keyword : Value) : Value → Bool
  | .array items => items.all (satisfies keyword)
  | _ => true

end

theorem satisfies_properties_iff {properties obj : Map} :
    satisfies_properties properties obj = true ↔
      ∀ property ∈ properties, ∀ v, Map.get property.1 obj = some v → satisfies property.2 v = true := by
  induction properties with
  | nil => simp [satisfies_properties]
  | cons property properties ih =>
    obtain ⟨k, schema⟩ := property
    rw [satisfies_properties, Bool.and_eq_true, ih, List.forall_mem_cons]
    refine and_congr_left fun _ => ?_
    cases Map.get k obj with
    | none => simp
    | some v => simp

/-- What one keyword asks. -/
def keyword (k : String) (schema v : Value) : Bool := satisfies_all [(k, schema)] v

theorem satisfies_all_cons (k : String) (schema : Value) (keywords : Map) (v : Value) :
    satisfies_all ((k, schema) :: keywords) v = (keyword k schema v && satisfies_all keywords v) := by
  rw [keyword, satisfies_all, satisfies_all, satisfies_all, Bool.and_true]

/-- A keyword that is added asks its own besides the others. -/
theorem satisfies_all_insert {k : String} {keywords : Map} (h : Map.get k keywords = none)
    (schema v : Value) :
    satisfies_all (Map.insert k schema keywords) v = (keyword k schema v && satisfies_all keywords v) := by
  induction keywords with
  | nil => rw [Map.insert, satisfies_all_cons]
  | cons field keywords ih =>
    obtain ⟨k', schema'⟩ := field
    unfold Map.get at h
    split at h
    · cases h
    · rename_i hne
      unfold Map.insert
      split
      · rw [satisfies_all_cons]
      · rw [if_neg fun heq => hne heq.symm, satisfies_all_cons, ih h, satisfies_all_cons,
          Bool.and_left_comm]

end json_schema
