import Mathlib.Data.List.Basic

namespace serde_json

/-- A number as it was parsed: a non-negative integer, a negative one, or the
bits of a finite double. -/
inductive Number where
  | PosInt (n : BitVec 64)
  | NegInt (n : BitVec 64)
  | Float (bits : BitVec 64)
  deriving DecidableEq, Repr

/-- A JSON value. The members of an object are in the order of their keys. -/
inductive Value where
  | null
  | bool (b : Bool)
  | number (n : Number)
  | string (s : String)
  | array (items : List Value)
  | object (fields : List (String × Value))

/-- The members of an object. -/
abbrev Map := List (String × Value)

def Map.get (key : String) : Map → Option Value
  | [] => none
  | (k, v) :: fields => if k = key then some v else Map.get key fields

/-- Keeps the order of the keys; the value of a key that is there is replaced. -/
def Map.insert (key : String) (value : Value) : Map → Map
  | [] => [(key, value)]
  | (k, v) :: fields =>
    if key < k then (key, value) :: (k, v) :: fields
    else if key = k then (key, value) :: fields
    else (k, v) :: Map.insert key value fields

theorem Map.get_insert (key k : String) (value : Value) (fields : Map) :
    Map.get k (Map.insert key value fields) = if k = key then some value else Map.get k fields := by
  induction fields with
  | nil => simp [Map.insert, Map.get, eq_comm]
  | cons field fields ih =>
    obtain ⟨k', v⟩ := field
    unfold Map.insert
    split
    · simp [Map.get, eq_comm]
    split
    · rename_i heq
      subst heq
      by_cases hk : key = k
      · simp [Map.get, hk]
      · simp [Map.get, hk, Ne.symm hk]
    · rename_i hne
      simp only [Map.get, ih]
      by_cases hk : k' = k
      · subst hk
        simp [Ne.symm hne]
      · simp [hk]

theorem Map.insert_last {key : String} {fields : Map} (h : ∀ field ∈ fields, field.1 < key) (value : Value) :
    Map.insert key value fields = fields ++ [(key, value)] := by
  induction fields with
  | nil => rfl
  | cons field fields ih =>
    obtain ⟨hfield, hfields⟩ := List.forall_mem_cons.mp h
    obtain ⟨k, v⟩ := field
    unfold Map.insert
    have hne : key ≠ k := by
      rintro rfl
      exact String.lt_irrefl _ hfield
    rw [if_neg (String.lt_asymm hfield), if_neg hne, ih hfields, List.cons_append]

namespace Value

def of_nat (n : Nat) : Value := .number (.PosInt (.ofNat 64 n))

/-- An object literal. -/
def json (fields : List (String × Value)) : Value :=
  .object (fields.foldl (fun out f => Map.insert f.1 f.2 out) [])

/-- Indexing by a key: only an object has members. -/
def get (key : String) : Value → Option Value
  | object fields => Map.get key fields
  | _ => none

def as_str : Value → Option String
  | string s => some s
  | _ => none

def is_null : Value → Bool
  | null => true
  | _ => false

def as_array : Value → Option (List Value)
  | array items => some items
  | _ => none

/-- Members in the order of their keys are those of the object. -/
theorem json_of_sorted {fields : Map} (h : fields.Pairwise fun a b => a.1 < b.1) :
    json fields = .object fields := by
  have hfold : ∀ out : Map, (out ++ fields).Pairwise (fun a b => a.1 < b.1) →
      fields.foldl (fun out f => Map.insert f.1 f.2 out) out = out ++ fields := by
    clear h
    induction fields with
    | nil => intro out _; rw [List.foldl_nil, List.append_nil]
    | cons field fields ih =>
      intro out hout
      have hlast : ∀ f ∈ out, f.1 < field.1 := fun f hf =>
        (List.pairwise_append.mp hout).2.2 f hf field List.mem_cons_self
      rw [List.append_cons] at hout
      rw [List.foldl_cons, Map.insert_last hlast, ih _ hout, List.append_assoc, List.singleton_append]
  rw [json, hfold [] h, List.nil_append]

/-- The last of the members of one name is kept. -/
theorem get_json (key : String) (fields : Map) :
    (json fields).get key = fields.foldl (fun found f => if key = f.1 then some f.2 else found) none := by
  have hfold : ∀ (fields out : Map), Map.get key (fields.foldl (fun out f => Map.insert f.1 f.2 out) out) =
      fields.foldl (fun found f => if key = f.1 then some f.2 else found) (Map.get key out) := by
    intro fields
    induction fields with
    | nil => intro out; rfl
    | cons field fields ih => intro out; rw [List.foldl_cons, List.foldl_cons, ih, Map.get_insert]
  exact hfold fields []

def json_type_name : Value → String
  | null => "null"
  | bool _ => "boolean"
  | number _ => "number"
  | string _ => "string"
  | array _ => "array"
  | object _ => "object"

def of_int (n : Int) : Value :=
  if n < 0 then .number (.NegInt (.ofInt 64 n)) else of_nat n.toNat

def of_option {α : Type} (f : α → Value) : Option α → Value
  | some a => f a
  | none => .null

end Value

/-- What `serde_json` and `serde_json_path` compute on texts: the canonical
text of a value, the value of a text, and the nodes a JSONPath selects. -/
structure JsonCrate where
  to_text : Value → String
  from_slice : List UInt8 → Except String Value
  parse_path : String → Except String (Value → List Value)

instance : Inhabited JsonCrate := ⟨⟨fun _ => "", fun _ => .error "", fun _ => .error ""⟩⟩

end serde_json
