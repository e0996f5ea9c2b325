import Api2Mcp.Json.Schema

namespace serde_json

open btree

/-- A text as it is written: an integer has its sign and its digits, a number
with a fraction or an exponent the double it is read as, and the members of an
object are in their order. -/
inductive Literal where
  | null
  | bool (b : Bool)
  | integer (negative : Bool) (magnitude : Nat)
  | real (bits : BitVec 64)
  | string (s : String)
  | array (items : List Literal)
  | object (fields : List (String × Literal))

/-- One step into a value. -/
inductive Step where
  | item (i : Nat)
  | member (key : String)
  deriving DecidableEq

namespace Literal

/-- Induction over a text, with its items and its members by membership. -/
theorem ind {motive : Literal → Prop} (null : motive .null) (bool : ∀ b, motive (.bool b))
    (integer : ∀ negative magnitude, motive (.integer negative magnitude)) (real : ∀ bits, motive (.real bits))
    (string : ∀ s, motive (.string s))
    (array : ∀ items, (∀ item ∈ items, motive item) → motive (.array items))
    (object : ∀ fields : List (String × Literal), (∀ field ∈ fields, motive field.2) → motive (.object fields)) :
    ∀ t, motive t :=
  @Literal.rec motive (fun items => ∀ item ∈ items, motive item)
    (fun fields => ∀ field ∈ fields, motive field.2) (fun field => motive field.2) null bool integer real
    string array object (fun _ h => nomatch h)
    (fun _ _ hhead htail => List.forall_mem_cons.mpr ⟨hhead, htail⟩)
    (fun _ h => nomatch h)
    (fun _ _ hhead htail => List.forall_mem_cons.mpr ⟨hhead, htail⟩) fun _ _ h => h

/-- The integer that a literal stands for. -/
def signed (negative : Bool) (magnitude : Nat) : Int := if negative then -magnitude else magnitude

/-- An integer that neither `u64` nor `i64` holds, or that is a negative zero. -/
def OutOfRange (negative : Bool) (magnitude : Nat) : Prop :=
  if negative then magnitude = 0 ∨ 2 ^ 63 < magnitude else 2 ^ 64 ≤ magnitude

instance (negative : Bool) (magnitude : Nat) : Decidable (OutOfRange negative magnitude) :=
  inferInstanceAs (Decidable (if negative then magnitude = 0 ∨ 2 ^ 63 < magnitude else 2 ^ 64 ≤ magnitude))

theorem out_of_range_negative {magnitude : Nat} :
    OutOfRange true magnitude ↔ magnitude = 0 ∨ 2 ^ 63 < magnitude := by
  rw [OutOfRange, if_pos rfl]

theorem out_of_range_positive {magnitude : Nat} : OutOfRange false magnitude ↔ 2 ^ 64 ≤ magnitude := by
  rw [OutOfRange, if_neg Bool.false_ne_true]

section

variable (to_f64 : Bool → Nat → BitVec 64)

/-- What the crate reads an integer as, by default: a double where it is out of
range. -/
def number (negative : Bool) (magnitude : Nat) : Number :=
  if OutOfRange negative magnitude then .Float (to_f64 negative magnitude)
  else if negative then .NegInt (.ofInt 64 (-magnitude))
  else .PosInt (.ofNat 64 magnitude)

mutual

/-- The value of a text. Of two members with one key the last one counts. -/
def value (t : Literal) : Value :=
  match t with
  | .null => .null
  | .bool b => .bool b
  | .integer negative magnitude => .number (number to_f64 negative magnitude)
  | .real bits => .number (.Float bits)
  | .string s => .string s
  | .array items => .array (value_items items)
  | .object fields => .object (BTreeMap.collect (value_fields fields))
termination_by structural t

def value_items (items : List Literal) : List Value :=
  match items with
  | [] => []
  | item :: items => value item :: value_items items
termination_by structural items

def value_fields (fields : List (String × Literal)) : Map :=
  match fields with
  | [] => []
  | (k, t) :: fields => (k, value t) :: value_fields fields
termination_by structural fields

end

end

/-- The part of a text at a path, in what is left of it once the last of two
members with one key counts. -/
def part : List Step → Literal → Option Literal
  | [], t => some t
  | .item i :: path, .array items => items[i]?.bind (part path)
  | .member key :: path, .object fields => (BTreeMap.get (BTreeMap.collect fields) key).bind (part path)
  | _ :: _, _ => none

section

variable {to_f64 : Bool → Nat → BitVec 64} {path : List Step}

theorem value_items_eq (items : List Literal) : value_items to_f64 items = items.map (value to_f64) := by
  induction items with
  | nil => rfl
  | cons item items ih => rw [value_items, List.map_cons, ih]

theorem value_fields_eq (fields : List (String × Literal)) :
    value_fields to_f64 fields = fields.map fun field => (field.1, value to_f64 field.2) := by
  induction fields with
  | nil => rfl
  | cons field fields ih => rw [value_fields, List.map_cons, ih]

/-- The members of the value are those of the text that count. -/
theorem collect_value_fields (fields : List (String × Literal)) :
    BTreeMap.collect (value_fields to_f64 fields) =
      (BTreeMap.collect fields).map fun field => (field.1, value to_f64 field.2) := by
  rw [value_fields_eq, BTreeMap.collect_map]

/-- A part of an array is the array, or a part of an item. -/
theorem forall_part_array {items : List Literal} {Q : List Step → Literal → Prop} :
    (∀ path t, part path (.array items) = some t → Q path t) ↔
      Q [] (.array items) ∧
        ∀ (i : Nat) item, items[i]? = some item → ∀ path t, part path item = some t → Q (.item i :: path) t := by
  constructor
  · intro h
    refine ⟨h [] _ rfl, fun i item hitem path t ht => h _ t ?_⟩
    rw [part, hitem, Option.bind_some, ht]
  · rintro ⟨hself, hitems⟩ path t ht
    match path with
    | [] =>
      obtain rfl := Option.some.inj ht
      exact hself
    | .member key :: path => cases ht
    | .item i :: path =>
      obtain ⟨item, hitem, ht⟩ := Option.bind_eq_some_iff.mp ht
      exact hitems i item hitem path t ht

theorem forall_part_object {fields : List (String × Literal)} {Q : List Step → Literal → Prop} :
    (∀ path t, part path (.object fields) = some t → Q path t) ↔
      Q [] (.object fields) ∧
        ∀ key member, BTreeMap.get (BTreeMap.collect fields) key = some member →
          ∀ path t, part path member = some t → Q (.member key :: path) t := by
  constructor
  · intro h
    refine ⟨h [] _ rfl, fun key member hmember path t ht => h _ t ?_⟩
    rw [part, hmember, Option.bind_some, ht]
  · rintro ⟨hself, hmembers⟩ path t ht
    match path with
    | [] =>
      obtain rfl := Option.some.inj ht
      exact hself
    | .item i :: path => cases ht
    | .member key :: path =>
      obtain ⟨member, hmember, ht⟩ := Option.bind_eq_some_iff.mp ht
      exact hmembers key member hmember path t ht

theorem part_cons_leaf {leaf : Literal} (harray : ∀ items, leaf ≠ .array items)
    (hobject : ∀ fields, leaf ≠ .object fields) (step : Step) (path : List Step) :
    part (step :: path) leaf = none := by
  cases leaf with
  | array items => exact absurd rfl (harray items)
  | object fields => exact absurd rfl (hobject fields)
  | _ => cases step <;> rfl

/-- What has neither items nor members is its only part. -/
theorem forall_part_leaf {leaf : Literal} {Q : List Step → Literal → Prop}
    (h : ∀ step path, part (step :: path) leaf = none) :
    (∀ path t, part path leaf = some t → Q path t) ↔ Q [] leaf := by
  constructor
  · exact fun hall => hall [] leaf rfl
  · intro hself path t ht
    match path with
    | [] =>
      obtain rfl := Option.some.inj ht
      exact hself
    | step :: path =>
      rw [h] at ht
      cases ht

/-- The members that count are those under some key. -/
theorem forall_member_iff {fields : List (String × Literal)} {P : Value → Prop} :
    (∀ field ∈ BTreeMap.collect (value_fields to_f64 fields), P field.2) ↔
      ∀ key member, BTreeMap.get (BTreeMap.collect fields) key = some member → P (member.value to_f64) := by
  rw [collect_value_fields, List.forall_mem_map]
  constructor
  · intro h key member hmember
    exact h _ (BTreeMap.mem_of_get hmember)
  · intro h field hfield
    exact h field.1 field.2 (BTreeMap.get_of_mem_sorted (BTreeMap.sorted_collect fields) hfield)

theorem forall_item_iff {items : List Literal} {P : Value → Prop} :
    (∀ item ∈ items.map (value to_f64), P item) ↔
      ∀ (i : Nat) item, items[i]? = some item → P (item.value to_f64) := by
  rw [List.forall_mem_map]
  constructor
  · intro h i item hitem
    exact h item (List.mem_of_getElem? hitem)
  · intro h item hitem
    obtain ⟨i, hi⟩ := List.mem_iff_getElem?.mp hitem
    exact h i item hi

/-- The value of a text nests as deep as a path leads into it. -/
def NestsAsPaths (to_f64 : Bool → Nat → BitVec 64) (t : Literal) : Prop :=
  ∀ n, (t.value to_f64).nesting ≤ n ↔ ∀ path t', part path t = some t' → path.length ≤ n

theorem NestsAsPaths.below {t : Literal} (h : NestsAsPaths to_f64 t) (n : Nat) :
    (t.value to_f64).nesting + 1 ≤ n ↔ ∀ path t', part path t = some t' → path.length + 1 ≤ n := by
  cases n with
  | zero => exact iff_of_false (Nat.not_succ_le_zero _) fun hpaths => Nat.not_succ_le_zero 0 (hpaths [] t rfl)
  | succ n =>
    rw [Nat.succ_le_succ_iff, h n]
    exact forall₃_congr fun path t' _ => Nat.succ_le_succ_iff.symm

/-- By induction on the text. -/
theorem nests_as_paths (t : Literal) : NestsAsPaths to_f64 t := by
  have hleaf : ∀ {leaf : Literal}, (∀ step path, part (step :: path) leaf = none) →
      (leaf.value to_f64).nesting = 0 → NestsAsPaths to_f64 leaf := by
    intro leaf hpart hnesting n
    rw [hnesting, forall_part_leaf hpart]
    exact iff_of_true (Nat.zero_le n) (Nat.zero_le n)
  induction t using Literal.ind with
  | null => exact hleaf (part_cons_leaf nofun nofun) rfl
  | bool b => exact hleaf (part_cons_leaf nofun nofun) rfl
  | integer negative magnitude => exact hleaf (part_cons_leaf nofun nofun) rfl
  | real bits => exact hleaf (part_cons_leaf nofun nofun) rfl
  | string s => exact hleaf (part_cons_leaf nofun nofun) rfl
  | array items ih =>
    intro n
    have hself : ([] : List Step).length ≤ n := Nat.zero_le n
    rw [value, value_items_eq, Value.nesting_array_le, forall_item_iff, forall_part_array, and_iff_right hself]
    exact forall₃_congr fun i item hitem => (ih item (List.mem_of_getElem? hitem)).below n
  | object fields ih =>
    intro n
    have hself : ([] : List Step).length ≤ n := Nat.zero_le n
    rw [value, Value.nesting_object_le, forall_member_iff (P := fun v => v.nesting + 1 ≤ n), forall_part_object,
      and_iff_right hself]
    exact forall₃_congr fun key member hmember =>
      (ih _ (BTreeMap.mem_of_mem_collect (BTreeMap.mem_of_get hmember))).below n

theorem nesting_le_iff {t : Literal} {n : Nat} :
    (t.value to_f64).nesting ≤ n ↔ ∀ path t', part path t = some t' → path.length ≤ n :=
  nests_as_paths t n

/-- The numbers of a value are those at some path of its text. -/
theorem forall_numbers_iff {t : Literal} {P : Number → Prop} :
    (∀ x ∈ (t.value to_f64).numbers, P x) ↔
      ∀ path t', part path t = some t' → ∀ x, t'.value to_f64 = .number x → P x := by
  have hleaf : ∀ {leaf : Literal}, (∀ step path, part (step :: path) leaf = none) →
      ((∀ x ∈ (leaf.value to_f64).numbers, P x) ↔ ∀ x, leaf.value to_f64 = .number x → P x) →
      ((∀ x ∈ (leaf.value to_f64).numbers, P x) ↔
        ∀ path t', part path leaf = some t' → ∀ x, t'.value to_f64 = .number x → P x) := by
    intro leaf hpart hnumbers
    rw [hnumbers, forall_part_leaf hpart]
  have hnumber : ∀ x, (∀ y ∈ (Value.number x).numbers, P y) ↔ ∀ y, Value.number x = .number y → P y := by
    intro x
    simp [Value.numbers]
  induction t using Literal.ind with
  | null => exact hleaf (part_cons_leaf (by simp) (by simp)) (by simp [value, Value.numbers])
  | bool b => exact hleaf (part_cons_leaf (by simp) (by simp)) (by simp [value, Value.numbers])
  | integer negative magnitude => exact hleaf (part_cons_leaf (by simp) (by simp)) (hnumber _)
  | real bits => exact hleaf (part_cons_leaf (by simp) (by simp)) (hnumber _)
  | string s => exact hleaf (part_cons_leaf (by simp) (by simp)) (by simp [value, Value.numbers])
  | array items ih =>
    rw [value, value_items_eq, Value.forall_numbers_array, forall_item_iff, forall_part_array,
      and_iff_right (by simp [value])]
    exact forall₃_congr fun i item hitem => ih item (List.mem_of_getElem? hitem)
  | object fields ih =>
    rw [value, Value.forall_numbers_object, forall_member_iff (P := fun v => ∀ x ∈ v.numbers, P x),
      forall_part_object, and_iff_right (by simp [value])]
    exact forall₃_congr fun key member hmember =>
      ih _ (BTreeMap.mem_of_mem_collect (BTreeMap.mem_of_get hmember))

end

end Literal

end serde_json
