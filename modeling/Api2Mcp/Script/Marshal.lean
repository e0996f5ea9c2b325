import Api2Mcp.Control.Except
import Api2Mcp.Json.Schema

namespace api2mcp.script.marshal

open btree serde_json

/-- A value of the engine. A type that no JSON stands for has its name alone. -/
inductive Dynamic where
  | unit
  | bool (b : Bool)
  | int (i : BitVec 64)
  | float (bits : BitVec 64)
  | string (s : String)
  | array (items : List Dynamic)
  | map (fields : List (String × Dynamic))
  | timestamp (rfc3339 : String)
  | other (type_name : String)

def MAX_DEPTH : Nat := 64

inductive MarshalError where
  | TooDeep
  | IntegerOutOfRange (u : BitVec 64)
  | UnsupportedType (type_name : String)
  | NonFiniteFloat
  deriving DecidableEq

/-- `impl Display for MarshalError`. -/
def MarshalError.to_string : MarshalError → String
  | .TooDeep => "nesting exceeds the maximum depth of " ++ Nat.repr MAX_DEPTH
  | .IntegerOutOfRange u =>
    "integer " ++ Nat.repr u.toNat ++ " has no lossless Rhai representation (rhai::INT is i64)"
  | .UnsupportedType type_name => "value of type " ++ type_name ++ " is not representable as JSON"
  | .NonFiniteFloat => "float value is not finite"

def as_i64 : Number → Option (BitVec 64)
  | .PosInt n => if n.toNat < 2 ^ 63 then some n else none
  | .NegInt n => some n
  | .Float _ => none

def as_u64 : Number → Option (BitVec 64)
  | .PosInt n => some n
  | _ => none

/-- `Number::as_f64`, of a number that is no integer. -/
def as_f64 : Number → Option (BitVec 64)
  | .Float bits => some bits
  | _ => none

def number_to_dynamic (n : Number) : Except MarshalError Dynamic :=
  match as_i64 n with
  | some i => .ok (.int i)
  | none =>
    match as_u64 n with
    | some u => .error (.IntegerOutOfRange u)
    | none =>
      match as_f64 n with
      | some f => .ok (.float f)
      | none => .error .NonFiniteFloat

mutual

def to_dynamic_depth (depth : Nat) (value : Value) : Except MarshalError Dynamic :=
  if depth > MAX_DEPTH then .error .TooDeep
  else
    match value with
    | .null => .ok .unit
    | .bool b => .ok (.bool b)
    | .number n => number_to_dynamic n
    | .string s => .ok (.string s)
    | .array items => .array <$> to_dynamic_items (depth + 1) items
    | .object obj => .map <$> to_dynamic_fields (depth + 1) obj []
termination_by structural value

def to_dynamic_items (depth : Nat) (items : List Value) : Except MarshalError (List Dynamic) :=
  match items with
  | [] => .ok []
  | item :: items => do
    let d ← to_dynamic_depth depth item
    let rest ← to_dynamic_items depth items
    .ok (d :: rest)
termination_by structural items

def to_dynamic_fields (depth : Nat) (fields : List (String × Value)) (map : BTreeMap String Dynamic) :
    Except MarshalError (BTreeMap String Dynamic) :=
  match fields with
  | [] => .ok map
  | (k, v) :: fields => do
    let d ← to_dynamic_depth depth v
    to_dynamic_fields depth fields (map.insert k d)
termination_by structural fields

end

def to_dynamic (value : Value) : Except MarshalError Dynamic := to_dynamic_depth 0 value

/-- `Number::from_f64`. -/
def from_f64 (bits : BitVec 64) : Option Number :=
  if binary64.exponent bits = 2047 then none else some (.Float bits)

mutual

def to_json_depth (depth : Nat) (value : Dynamic) : Except MarshalError Value :=
  if depth > MAX_DEPTH then .error .TooDeep
  else
    match value with
    | .unit => .ok .null
    | .bool b => .ok (.bool b)
    | .int i => .ok (.number (.of_i64 i.toInt))
    | .float f =>
      match from_f64 f with
      | some n => .ok (.number n)
      | none => .error .NonFiniteFloat
    | .string s => .ok (.string s)
    | .array arr => .array <$> to_json_items (depth + 1) arr
    | .map fields => .object <$> to_json_fields (depth + 1) fields []
    | .timestamp ts => .ok (.string ts)
    | .other type_name => .error (.UnsupportedType type_name)
termination_by structural value

def to_json_items (depth : Nat) (items : List Dynamic) : Except MarshalError (List Value) :=
  match items with
  | [] => .ok []
  | item :: items => do
    let v ← to_json_depth depth item
    let rest ← to_json_items depth items
    .ok (v :: rest)
termination_by structural items

def to_json_fields (depth : Nat) (fields : List (String × Dynamic)) (out : Map) :
    Except MarshalError Map :=
  match fields with
  | [] => .ok out
  | (k, d) :: fields => do
    let v ← to_json_depth depth d
    to_json_fields depth fields (Map.insert k v out)
termination_by structural fields

end

def to_json (value : Dynamic) : Except MarshalError Value := to_json_depth 0 value

/-- An integer that `i64` does not hold. -/
def AboveI64 : Number → Prop
  | .PosInt n => 2 ^ 63 ≤ n.toNat
  | _ => False

/-- No integer of the value is above `i64::MAX`. -/
def Representable (v : Value) : Prop := ∀ x ∈ v.numbers, ¬ AboveI64 x

mutual

/-- What the engine has for a value. -/
def dynamic_of : Value → Dynamic
  | .null => .unit
  | .bool b => .bool b
  | .number (.PosInt n) => .int n
  | .number (.NegInt n) => .int n
  | .number (.Float bits) => .float bits
  | .string s => .string s
  | .array items => .array (dynamic_items items)
  | .object fields => .map (BTreeMap.collect (dynamic_fields fields))

def dynamic_items : List Value → List Dynamic
  | [] => []
  | item :: items => dynamic_of item :: dynamic_items items

def dynamic_fields : Map → List (String × Dynamic)
  | [] => []
  | (k, v) :: fields => (k, dynamic_of v) :: dynamic_fields fields

end

theorem dynamic_items_eq (items : List Value) : dynamic_items items = items.map dynamic_of := by
  induction items with
  | nil => rfl
  | cons item items ih => rw [dynamic_items, List.map_cons, ih]

theorem dynamic_fields_eq (fields : Map) :
    dynamic_fields fields = fields.map fun field => (field.1, dynamic_of field.2) := by
  induction fields with
  | nil => rfl
  | cons field fields ih => rw [dynamic_fields, List.map_cons, ih]

theorem number_to_dynamic_iff {x : Number} {d : Dynamic} :
    number_to_dynamic x = .ok d ↔ ¬ AboveI64 x ∧ d = dynamic_of (.number x) := by
  unfold number_to_dynamic
  cases x with
  | PosInt n =>
    unfold as_i64 AboveI64
    dsimp only
    split
    · rename_i i hi
      split at hi
      · rename_i hlt
        obtain rfl := Option.some.inj hi
        rw [Except.ok.injEq, and_iff_right (Nat.not_le.mpr hlt), eq_comm, dynamic_of]
      · cases hi
    · rename_i hnone
      split at hnone
      · cases hnone
      · rename_i hge
        exact iff_of_false (by simp [as_u64]) fun h => h.1 (Nat.le_of_not_lt hge)
  | NegInt n =>
    rw [and_iff_right (show ¬ AboveI64 (.NegInt n) from id), dynamic_of]
    simp [as_i64, eq_comm]
  | Float bits =>
    rw [and_iff_right (show ¬ AboveI64 (.Float bits) from id), dynamic_of]
    simp [as_i64, as_u64, as_f64, eq_comm]

/-- A value is converted, at some depth, exactly if it stays within the depth
and the integers. -/
def Converts (v : Value) : Prop :=
  ∀ depth d, to_dynamic_depth depth v = .ok d ↔
    (depth + v.nesting ≤ MAX_DEPTH ∧ Representable v) ∧ d = dynamic_of v

theorem to_dynamic_items_iff {items : List Value} (h : ∀ item ∈ items, Converts item) {depth : Nat}
    {ds : List Dynamic} : to_dynamic_items depth items = .ok ds ↔
      (∀ item ∈ items, depth + item.nesting ≤ MAX_DEPTH ∧ Representable item) ∧ ds = items.map dynamic_of := by
  induction items generalizing ds with
  | nil => simp [to_dynamic_items, eq_comm]
  | cons item items ih =>
    obtain ⟨hitem, hitems⟩ := List.forall_mem_cons.mp h
    rw [to_dynamic_items, List.forall_mem_cons, List.map_cons]
    simp only [except.bind_eq_ok, hitem depth, ih hitems, Except.ok.injEq]
    constructor
    · rintro ⟨_, ⟨hfits, rfl⟩, _, ⟨hrest, rfl⟩, rfl⟩
      exact ⟨⟨hfits, hrest⟩, rfl⟩
    · rintro ⟨⟨hfits, hrest⟩, rfl⟩
      exact ⟨_, ⟨hfits, rfl⟩, _, ⟨hrest, rfl⟩, rfl⟩

theorem to_dynamic_fields_iff {fields : Map} (h : ∀ field ∈ fields, Converts field.2) {depth : Nat}
    {map out : BTreeMap String Dynamic} : to_dynamic_fields depth fields map = .ok out ↔
      (∀ field ∈ fields, depth + field.2.nesting ≤ MAX_DEPTH ∧ Representable field.2) ∧
        out = (dynamic_fields fields).foldl (fun map kv => map.insert kv.1 kv.2) map := by
  induction fields generalizing map with
  | nil => simp [to_dynamic_fields, dynamic_fields, eq_comm]
  | cons field fields ih =>
    obtain ⟨hfield, hfields⟩ := List.forall_mem_cons.mp h
    obtain ⟨k, v⟩ := field
    rw [to_dynamic_fields, List.forall_mem_cons, dynamic_fields, List.foldl_cons]
    simp only [except.bind_eq_ok, hfield depth, ih hfields]
    constructor
    · rintro ⟨_, ⟨hfits, rfl⟩, hrest, rfl⟩
      exact ⟨⟨hfits, hrest⟩, rfl⟩
    · rintro ⟨⟨hfits, hrest⟩, rfl⟩
      exact ⟨_, ⟨hfits, rfl⟩, hrest, rfl⟩

/-- Below the depth limit, a part that holds no number. -/
theorem converts_leaf {v : Value} {d : Dynamic} (hnesting : v.nesting = 0) (hnumbers : v.numbers = [])
    (hd : dynamic_of v = d) (h : ∀ depth, to_dynamic_depth depth v =
      if depth > MAX_DEPTH then .error .TooDeep else .ok d) : Converts v := by
  intro depth d'
  have hrepresentable : Representable v := by simp [Representable, hnumbers]
  rw [h, hnesting, hd, Nat.add_zero, and_iff_left hrepresentable]
  split
  · rename_i hdeep
    exact iff_of_false nofun fun hfits => Nat.not_le.mpr hdeep hfits.1
  · rename_i hlow
    rw [Except.ok.injEq, and_iff_right (Nat.le_of_not_lt hlow), eq_comm]

/-- By induction on the value, one level deeper with each array and object. -/
theorem converts (v : Value) : Converts v := by
  induction v using Value.ind with
  | null => exact converts_leaf rfl rfl rfl fun depth => rfl
  | bool b => exact converts_leaf rfl rfl rfl fun depth => rfl
  | string s => exact converts_leaf rfl rfl rfl fun depth => rfl
  | number x =>
    intro depth d
    have hrepresentable : Representable (.number x) ↔ ¬ AboveI64 x := by simp [Representable, Value.numbers]
    rw [to_dynamic_depth, hrepresentable, Value.nesting, Nat.add_zero]
    · split
      · rename_i hdeep
        exact iff_of_false (by rintro ⟨⟩) fun hfits => Nat.not_le.mpr hdeep hfits.1.1
      · rename_i hlow
        rw [number_to_dynamic_iff, and_iff_right (Nat.le_of_not_lt hlow)]
    · rintro items ⟨⟩
    · rintro fields ⟨⟩
  | array items ih =>
    intro depth d
    have hparts : (depth + (Value.array items).nesting ≤ MAX_DEPTH ∧ Representable (.array items)) ↔
        depth ≤ MAX_DEPTH ∧
          ∀ item ∈ items, depth + 1 + item.nesting ≤ MAX_DEPTH ∧ Representable item := by
      rw [Value.add_nesting_array_le, Representable, Value.forall_numbers_array, and_assoc, ← forall₂_and]
      rfl
    rw [to_dynamic_depth, hparts, dynamic_of, dynamic_items_eq]
    split
    · rename_i hdeep
      exact iff_of_false (by rintro ⟨⟩) fun hfits => Nat.not_le.mpr hdeep hfits.1.1
    · rename_i hlow
      rw [and_iff_right (Nat.le_of_not_lt hlow)]
      simp only [except.map_eq_ok, to_dynamic_items_iff ih]
      constructor
      · rintro ⟨_, ⟨hfits, rfl⟩, rfl⟩
        exact ⟨hfits, rfl⟩
      · rintro ⟨hfits, rfl⟩
        exact ⟨_, ⟨hfits, rfl⟩, rfl⟩
  | object fields ih =>
    intro depth d
    have hparts : (depth + (Value.object fields).nesting ≤ MAX_DEPTH ∧ Representable (.object fields)) ↔
        depth ≤ MAX_DEPTH ∧
          ∀ field ∈ fields, depth + 1 + field.2.nesting ≤ MAX_DEPTH ∧ Representable field.2 := by
      rw [Value.add_nesting_object_le, Representable, Value.forall_numbers_object, and_assoc, ← forall₂_and]
      rfl
    rw [to_dynamic_depth, hparts, dynamic_of]
    split
    · rename_i hdeep
      exact iff_of_false (by rintro ⟨⟩) fun hfits => Nat.not_le.mpr hdeep hfits.1.1
    · rename_i hlow
      rw [and_iff_right (Nat.le_of_not_lt hlow)]
      simp only [except.map_eq_ok, to_dynamic_fields_iff ih]
      constructor
      · rintro ⟨_, ⟨hfits, rfl⟩, rfl⟩
        exact ⟨hfits, rfl⟩
      · rintro ⟨hfits, rfl⟩
        exact ⟨_, ⟨hfits, rfl⟩, rfl⟩

theorem to_dynamic_depth_iff {v : Value} {depth : Nat} {d : Dynamic} :
    to_dynamic_depth depth v = .ok d ↔
      (depth + v.nesting ≤ MAX_DEPTH ∧ Representable v) ∧ d = dynamic_of v :=
  converts v depth d

theorem to_dynamic_iff {v : Value} {d : Dynamic} :
    to_dynamic v = .ok d ↔ (v.nesting ≤ MAX_DEPTH ∧ Representable v) ∧ d = dynamic_of v := by
  rw [to_dynamic, to_dynamic_depth_iff, Nat.zero_add]

/-- The engine's value for `v` is `v` again as JSON, at every depth where it
fits. -/
def Returns (v : Value) : Prop :=
  ∀ depth, depth + v.nesting ≤ MAX_DEPTH → to_json_depth depth (dynamic_of v) = .ok v

theorem to_json_items_of {items : List Value} {depth : Nat} (h : ∀ item ∈ items, Returns item)
    (hdepth : ∀ item ∈ items, depth + item.nesting ≤ MAX_DEPTH) :
    to_json_items depth (items.map dynamic_of) = .ok items := by
  induction items with
  | nil => rfl
  | cons item items ih =>
    obtain ⟨hitem, hitems⟩ := List.forall_mem_cons.mp h
    obtain ⟨hdepth, hdepths⟩ := List.forall_mem_cons.mp hdepth
    rw [List.map_cons, to_json_items, hitem depth hdepth, ih hitems hdepths]
    rfl

theorem to_json_fields_of {fields : Map} {depth : Nat} (h : ∀ field ∈ fields, Returns field.2)
    (hdepth : ∀ field ∈ fields, depth + field.2.nesting ≤ MAX_DEPTH) (out : Map) :
    to_json_fields depth (dynamic_fields fields) out =
      .ok (fields.foldl (fun out field => Map.insert field.1 field.2 out) out) := by
  induction fields generalizing out with
  | nil => rfl
  | cons field fields ih =>
    obtain ⟨hfield, hfields⟩ := List.forall_mem_cons.mp h
    obtain ⟨hdepth, hdepths⟩ := List.forall_mem_cons.mp hdepth
    obtain ⟨k, v⟩ := field
    rw [dynamic_fields, to_json_fields, hfield depth hdepth]
    exact ih hfields hdepths _

theorem sorted_dynamic_fields {fields : Map} (h : fields.Pairwise fun a b => a.1 < b.1) :
    BTreeMap.collect (dynamic_fields fields) = dynamic_fields fields := by
  refine BTreeMap.collect_of_sorted ?_
  rw [dynamic_fields_eq]
  exact List.pairwise_map.mpr (List.pairwise_map.mpr h)

theorem returns_number {x : Number} (hvalid : x.Valid) (hbelow : ¬ AboveI64 x) : Returns (.number x) := by
  intro depth hdepth
  rw [Value.nesting, Nat.add_zero] at hdepth
  · have hlow : ¬ depth > MAX_DEPTH := Nat.not_lt_of_le hdepth
    cases x with
    | PosInt n =>
      have hlt : n.toNat < 2 ^ 63 := Nat.lt_of_not_le hbelow
      have hint : n.toInt = n.toNat := BitVec.toInt_eq_toNat_of_lt (by omega)
      have hof : Number.of_i64 n.toInt = .PosInt n := by
        rw [Number.of_i64, hint, if_neg (by omega)]
        congr 1
        exact BitVec.eq_of_toNat_eq (by simp)
      rw [dynamic_of, to_json_depth, if_neg hlow, hof]
    | NegInt n =>
      have hneg : n.toInt < 0 := hvalid
      have hof : Number.of_i64 n.toInt = .NegInt n := by
        rw [Number.of_i64, if_pos hneg, BitVec.ofInt_toInt]
      rw [dynamic_of, to_json_depth, if_neg hlow, hof]
    | Float bits =>
      have hfinite : from_f64 bits = some (.Float bits) := if_neg hvalid
      rw [dynamic_of, to_json_depth, if_neg hlow, hfinite]
  · rintro items ⟨⟩
  · rintro fields ⟨⟩

/-- By induction on the value. -/
theorem returns {v : Value} (hvalid : v.Valid) (hrepresentable : Representable v) : Returns v := by
  have hleaf : ∀ (v : Value) (d : Dynamic), dynamic_of v = d →
      (∀ depth, to_json_depth depth d = if depth > MAX_DEPTH then .error .TooDeep else .ok v) → Returns v := by
    rintro v _ rfl h depth hdepth
    rw [h, if_neg (Nat.not_lt_of_le ((Nat.le_add_right _ _).trans hdepth))]
  induction v using Value.ind with
  | null => exact hleaf _ _ rfl fun depth => rfl
  | bool b => exact hleaf _ _ rfl fun depth => rfl
  | string s => exact hleaf _ _ rfl fun depth => rfl
  | number x =>
    cases hvalid with
    | number hvalid => exact returns_number hvalid (hrepresentable x (by simp [Value.numbers]))
  | array items ih =>
    cases hvalid with
    | array hitems =>
      intro depth hdepth
      obtain ⟨hlow, hparts⟩ := Value.add_nesting_array_le.mp hdepth
      have hall := Value.forall_numbers_array.mp hrepresentable
      have hreturns : ∀ item ∈ items, Returns item := fun item hitem =>
        ih item hitem (hitems item hitem) (hall item hitem)
      rw [dynamic_of, dynamic_items_eq, to_json_depth, if_neg (Nat.not_lt_of_le hlow),
        to_json_items_of hreturns hparts]
      rfl
  | object fields ih =>
    cases hvalid with
    | object hkeys hfields =>
      intro depth hdepth
      obtain ⟨hlow, hparts⟩ := Value.add_nesting_object_le.mp hdepth
      have hall := Value.forall_numbers_object.mp hrepresentable
      have hreturns : ∀ field ∈ fields, Returns field.2 := fun field hfield =>
        ih field hfield (hfields field hfield) (hall field hfield)
      rw [dynamic_of, sorted_dynamic_fields hkeys, to_json_depth, if_neg (Nat.not_lt_of_le hlow),
        to_json_fields_of hreturns hparts]
      have hsame := Value.json_of_sorted hkeys
      rw [Value.json] at hsame
      exact congrArg Except.ok hsame

/-- A value is converted exactly if it nests at most 64 levels and has no
integer above `i64::MAX`, and then it comes back as it was. -/
theorem to_dynamic_round_trip (v : { v : Value // v.Valid }) :
    ((∃ d, to_dynamic v = .ok d) ↔ v.1.nesting ≤ 64 ∧ ∀ x ∈ v.1.numbers, ¬ AboveI64 x) ∧
      ∀ d, to_dynamic v = .ok d → to_json d = .ok v := by
  constructor
  · constructor
    · rintro ⟨d, hd⟩
      exact (to_dynamic_iff.mp hd).1
    · intro hfits
      exact ⟨_, to_dynamic_iff.mpr ⟨hfits, rfl⟩⟩
  · intro d hd
    obtain ⟨⟨hnesting, hrepresentable⟩, rfl⟩ := to_dynamic_iff.mp hd
    exact returns v.2 hrepresentable 0 (by rwa [Nat.zero_add])

/-- Indexing by a key: only a map has members. -/
def Dynamic.get (key : String) : Dynamic → Option Dynamic
  | .map fields => BTreeMap.get fields key
  | _ => none

/-- The members of an object literal, as the engine has them. -/
theorem get_dynamic_of_json (key : String) (fields : Map) :
    (dynamic_of (.json fields)).get key = ((Value.json fields).get key).map dynamic_of := by
  have hsorted : (BTreeMap.collect fields).Sorted := BTreeMap.sorted_collect fields
  have hkeys : (BTreeMap.collect fields).Pairwise fun a b => a.1 < b.1 := List.pairwise_map.mp hsorted
  rw [Value.json_eq, dynamic_of, sorted_dynamic_fields hkeys, dynamic_fields_eq, Dynamic.get, Value.get, Map.get_eq]
  exact BTreeMap.get_map _ dynamic_of key

end api2mcp.script.marshal
