import Api2Mcp.Json.Number

namespace serde_json

namespace Value

/-- Induction over a value, with its items and its members by membership. -/
theorem ind {motive : Value → Prop} (null : motive .null) (bool : ∀ b, motive (.bool b))
    (number : ∀ x, motive (.number x)) (string : ∀ s, motive (.string s))
    (array : ∀ items, (∀ item ∈ items, motive item) → motive (.array items))
    (object : ∀ fields : Map, (∀ field ∈ fields, motive field.2) → motive (.object fields)) :
    ∀ v, motive v :=
  @Value.rec motive (fun items => ∀ item ∈ items, motive item)
    (fun fields => ∀ field ∈ fields, motive field.2) (fun field => motive field.2) null bool number string
    array object (fun _ h => nomatch h)
    (fun _ _ hhead htail => List.forall_mem_cons.mpr ⟨hhead, htail⟩)
    (fun _ h => nomatch h)
    (fun _ _ hhead htail => List.forall_mem_cons.mpr ⟨hhead, htail⟩) fun _ _ h => h

mutual

/-- How many arrays and objects the deepest part of a value stands in. -/
def nesting : Value → Nat
  | .array items => nesting_items items
  | .object fields => nesting_fields fields
  | _ => 0

def nesting_items : List Value → Nat
  | [] => 0
  | item :: items => max (nesting item + 1) (nesting_items items)

def nesting_fields : Map → Nat
  | [] => 0
  | (_, v) :: fields => max (nesting v + 1) (nesting_fields fields)

end

theorem nesting_array_le {items : List Value} {n : Nat} :
    nesting (.array items) ≤ n ↔ ∀ item ∈ items, nesting item + 1 ≤ n := by
  rw [nesting]
  induction items with
  | nil => simp [nesting_items]
  | cons item items ih => rw [nesting_items, Nat.max_le, ih, List.forall_mem_cons]

theorem nesting_object_le {fields : Map} {n : Nat} :
    nesting (.object fields) ≤ n ↔ ∀ field ∈ fields, nesting field.2 + 1 ≤ n := by
  rw [nesting]
  induction fields with
  | nil => simp [nesting_fields]
  | cons field fields ih =>
    obtain ⟨k, v⟩ := field
    rw [nesting_fields, Nat.max_le, ih, List.forall_mem_cons]

/-- An array that stands in `k` others, and its items. -/
theorem add_nesting_array_le {items : List Value} {k n : Nat} :
    k + nesting (.array items) ≤ n ↔ k ≤ n ∧ ∀ item ∈ items, k + 1 + nesting item ≤ n := by
  constructor
  · intro h
    have hitems := nesting_array_le.mp (Nat.le_sub_of_add_le' h)
    refine ⟨by omega, fun item hitem => ?_⟩
    have hle := hitems item hitem
    omega
  · rintro ⟨hk, hitems⟩
    have hle : nesting (.array items) ≤ n - k := nesting_array_le.mpr fun item hitem => by
      have hle := hitems item hitem
      omega
    omega

theorem add_nesting_object_le {fields : Map} {k n : Nat} :
    k + nesting (.object fields) ≤ n ↔ k ≤ n ∧ ∀ field ∈ fields, k + 1 + nesting field.2 ≤ n := by
  constructor
  · intro h
    have hfields := nesting_object_le.mp (Nat.le_sub_of_add_le' h)
    refine ⟨by omega, fun field hfield => ?_⟩
    have hle := hfields field hfield
    omega
  · rintro ⟨hk, hfields⟩
    have hle : nesting (.object fields) ≤ n - k := nesting_object_le.mpr fun field hfield => by
      have hle := hfields field hfield
      omega
    omega

mutual

/-- The numbers of a value, at every depth. -/
def numbers : Value → List Number
  | .number x => [x]
  | .array items => numbers_items items
  | .object fields => numbers_fields fields
  | _ => []

def numbers_items : List Value → List Number
  | [] => []
  | item :: items => numbers item ++ numbers_items items

def numbers_fields : Map → List Number
  | [] => []
  | (_, v) :: fields => numbers v ++ numbers_fields fields

end

theorem forall_numbers_array {items : List Value} {P : Number → Prop} :
    (∀ x ∈ numbers (.array items), P x) ↔ ∀ item ∈ items, ∀ x ∈ numbers item, P x := by
  rw [numbers]
  induction items with
  | nil => simp [numbers_items]
  | cons item items ih => rw [numbers_items, List.forall_mem_append, ih, List.forall_mem_cons]

theorem forall_numbers_object {fields : Map} {P : Number → Prop} :
    (∀ x ∈ numbers (.object fields), P x) ↔ ∀ field ∈ fields, ∀ x ∈ numbers field.2, P x := by
  rw [numbers]
  induction fields with
  | nil => simp [numbers_fields]
  | cons field fields ih =>
    obtain ⟨k, v⟩ := field
    rw [numbers_fields, List.forall_mem_append, ih, List.forall_mem_cons]

mutual

/-- The strings of a value, at every depth. -/
def strings : Value → List String
  | .string s => [s]
  | .array items => strings_items items
  | .object fields => strings_fields fields
  | _ => []

def strings_items : List Value → List String
  | [] => []
  | item :: items => strings item ++ strings_items items

def strings_fields : Map → List String
  | [] => []
  | (_, v) :: fields => strings v ++ strings_fields fields

end

theorem forall_strings_array {items : List Value} {P : String → Prop} :
    (∀ s ∈ strings (.array items), P s) ↔ ∀ item ∈ items, ∀ s ∈ strings item, P s := by
  rw [strings]
  induction items with
  | nil => simp [strings_items]
  | cons item items ih => rw [strings_items, List.forall_mem_append, ih, List.forall_mem_cons]

theorem forall_strings_object {fields : Map} {P : String → Prop} :
    (∀ s ∈ strings (.object fields), P s) ↔ ∀ field ∈ fields, ∀ s ∈ strings field.2, P s := by
  rw [strings]
  induction fields with
  | nil => simp [strings_fields]
  | cons field fields ih =>
    obtain ⟨k, v⟩ := field
    rw [strings_fields, List.forall_mem_append, ih, List.forall_mem_cons]

mutual

/-- The texts of a value, at every depth: its strings, and the keys of its
members. -/
def texts : Value → List String
  | .string s => [s]
  | .array items => texts_items items
  | .object fields => texts_fields fields
  | _ => []

def texts_items : List Value → List String
  | [] => []
  | item :: items => texts item ++ texts_items items

def texts_fields : Map → List String
  | [] => []
  | (k, v) :: fields => k :: (texts v ++ texts_fields fields)

end

theorem forall_texts_array {items : List Value} {P : String → Prop} :
    (∀ s ∈ texts (.array items), P s) ↔ ∀ item ∈ items, ∀ s ∈ texts item, P s := by
  rw [texts]
  induction items with
  | nil => simp [texts_items]
  | cons item items ih => rw [texts_items, List.forall_mem_append, ih, List.forall_mem_cons]

theorem forall_texts_object {fields : Map} {P : String → Prop} :
    (∀ s ∈ texts (.object fields), P s) ↔ ∀ field ∈ fields, P field.1 ∧ ∀ s ∈ texts field.2, P s := by
  rw [texts]
  induction fields with
  | nil => simp [texts_fields]
  | cons field fields ih =>
    obtain ⟨k, v⟩ := field
    rw [texts_fields, List.forall_mem_cons, List.forall_mem_append, ih, List.forall_mem_cons, and_assoc]

end Value

/-- What the crate keeps of a number: a negative integer is one, and a double is
finite. -/
def Number.Valid : Number → Prop
  | .PosInt _ => True
  | .NegInt n => n.toInt < 0
  | .Float bits => binary64.exponent bits ≠ 2047

/-- A value as the crate builds one: the numbers are valid, and the members of
an object are in the order of their keys, each of them once. -/
inductive Value.Valid : Value → Prop
  | null : Valid .null
  | bool (b : Bool) : Valid (.bool b)
  | number {x : Number} (hvalid : x.Valid) : Valid (.number x)
  | string (s : String) : Valid (.string s)
  | array {items : List Value} (hitems : ∀ item ∈ items, Valid item) : Valid (.array items)
  | object {fields : Map} (hkeys : fields.Pairwise fun a b => a.1 < b.1)
      (hfields : ∀ field ∈ fields, Valid field.2) : Valid (.object fields)

end serde_json
