import Mathlib.Data.List.Basic

namespace btree

/-- A map, in the order of its keys. -/
abbrev BTreeMap (κ ν : Type) := List (κ × ν)

/-- A set, in the order of its elements. -/
abbrev BTreeSet (κ : Type) := List κ

section

variable {κ ν : Type} [DecidableEq κ]

def BTreeMap.get (map : BTreeMap κ ν) (key : κ) : Option ν :=
  (map.find? fun kv => kv.1 = key).map Prod.snd

def BTreeMap.contains_key (map : BTreeMap κ ν) (key : κ) : Bool := (map.get key).isSome

def BTreeMap.values (map : BTreeMap κ ν) : List ν := map.map Prod.snd

def BTreeMap.remove (key : κ) (map : BTreeMap κ ν) : BTreeMap κ ν := map.filter fun kv => kv.1 ≠ key

variable [LT κ] [DecidableLT κ]

/-- The value of a key that is there is replaced. -/
def BTreeMap.insert (key : κ) (value : ν) : BTreeMap κ ν → BTreeMap κ ν
  | [] => [(key, value)]
  | (k, v) :: rest =>
    if key < k then (key, value) :: (k, v) :: rest
    else if key = k then (key, value) :: rest
    else (k, v) :: BTreeMap.insert key value rest

/-- `entry(key).or_insert(value)`. -/
def BTreeMap.or_insert (key : κ) (value : ν) (map : BTreeMap κ ν) : BTreeMap κ ν :=
  if map.contains_key key then map else map.insert key value

/-- The map a list of pairs collects to; the last pair of a key wins. -/
def BTreeMap.collect (pairs : List (κ × ν)) : BTreeMap κ ν :=
  pairs.foldl (fun map kv => map.insert kv.1 kv.2) []

def BTreeSet.insert (key : κ) : BTreeSet κ → BTreeSet κ
  | [] => [key]
  | k :: rest =>
    if key < k then key :: k :: rest
    else if key = k then k :: rest
    else k :: BTreeSet.insert key rest

def BTreeSet.collect (keys : List κ) : BTreeSet κ :=
  keys.foldl (fun set key => set.insert key) []

@[simp] theorem BTreeSet.mem_insert {set : BTreeSet κ} {key k : κ} :
    k ∈ set.insert key ↔ k = key ∨ k ∈ set := by
  induction set with
  | nil => simp [BTreeSet.insert]
  | cons head rest ih =>
    unfold BTreeSet.insert
    split
    · simp
    split
    · rename_i heq
      simp [heq]
    · rw [List.mem_cons, List.mem_cons, ih]
      tauto

@[simp] theorem BTreeSet.mem_collect {keys : List κ} {k : κ} :
    k ∈ BTreeSet.collect keys ↔ k ∈ keys := by
  have hfold : ∀ set : BTreeSet κ, k ∈ keys.foldl (fun set key => set.insert key) set ↔
      k ∈ set ∨ k ∈ keys := by
    induction keys with
    | nil => simp
    | cons key rest ih =>
      intro set
      rw [List.foldl_cons, ih, BTreeSet.mem_insert, List.mem_cons]
      tauto
  simpa [BTreeSet.collect] using hfold []

theorem BTreeMap.get_insert (map : BTreeMap κ ν) (key k : κ) (value : ν) :
    (map.insert key value).get k = if k = key then some value else map.get k := by
  induction map with
  | nil => by_cases hk : key = k <;> simp [BTreeMap.insert, BTreeMap.get, hk, eq_comm]
  | cons head rest ih =>
    obtain ⟨k', v'⟩ := head
    unfold BTreeMap.insert
    split
    · by_cases hk : key = k <;> simp [BTreeMap.get, hk, eq_comm]
    split
    · rename_i hkey
      subst hkey
      by_cases hk : key = k <;> simp [BTreeMap.get, hk, eq_comm]
    · rename_i hkey
      by_cases hk : k' = k
      · subst hk
        simp [BTreeMap.get, Ne.symm hkey]
      · simp only [BTreeMap.get, List.find?_cons, hk, decide_false] at ih ⊢
        exact ih

theorem BTreeMap.mem_insert {map : BTreeMap κ ν} {key : κ} {value : ν} {kv : κ × ν}
    (h : kv ∈ map.insert key value) : kv = (key, value) ∨ kv ∈ map := by
  induction map with
  | nil => exact .inl (by simpa [BTreeMap.insert] using h)
  | cons head rest ih =>
    obtain ⟨k', v'⟩ := head
    unfold BTreeMap.insert at h
    split at h
    · exact List.mem_cons.mp h
    split at h
    · obtain rfl | hrest := List.mem_cons.mp h
      · exact .inl rfl
      · exact .inr (List.mem_cons_of_mem _ hrest)
    · obtain rfl | hrest := List.mem_cons.mp h
      · exact .inr (List.mem_cons_self ..)
      · obtain heq | hmem := ih hrest
        · exact .inl heq
        · exact .inr (List.mem_cons_of_mem _ hmem)

omit [LT κ] [DecidableLT κ] in
theorem BTreeMap.mem_of_get {map : BTreeMap κ ν} {key : κ} {value : ν} (h : map.get key = some value) :
    (key, value) ∈ map := by
  obtain ⟨⟨k, v⟩, hfind, rfl⟩ := Option.map_eq_some_iff.mp h
  obtain rfl : k = key := by simpa using List.find?_some hfind
  exact List.mem_of_find?_eq_some hfind

omit [LT κ] [DecidableLT κ] in
theorem BTreeMap.get_of_mem {map : BTreeMap κ ν} {kv : κ × ν} (h : kv ∈ map) :
    ∃ value, map.get kv.1 = some value := by
  rw [← Option.isSome_iff_exists, BTreeMap.get, Option.isSome_map, List.find?_isSome]
  exact ⟨kv, h, by simp⟩

omit [LT κ] [DecidableLT κ] in
theorem BTreeMap.contains_key_iff {map : BTreeMap κ ν} {key : κ} :
    map.contains_key key = true ↔ ∃ value, (key, value) ∈ map := by
  rw [BTreeMap.contains_key, Option.isSome_iff_exists]
  constructor
  · rintro ⟨value, hget⟩
    exact ⟨value, BTreeMap.mem_of_get hget⟩
  · rintro ⟨value, hmem⟩
    exact BTreeMap.get_of_mem hmem

omit [LT κ] [DecidableLT κ] in
theorem BTreeMap.get_map {μ : Type} (map : BTreeMap κ ν) (f : ν → μ) (key : κ) :
    BTreeMap.get (map.map fun kv => (kv.1, f kv.2)) key = (map.get key).map f := by
  rw [BTreeMap.get, List.find?_map, BTreeMap.get, Option.map_map, Option.map_map]
  rfl

theorem BTreeMap.insert_map {μ : Type} (map : BTreeMap κ ν) (f : ν → μ) (key : κ) (value : ν) :
    BTreeMap.insert key (f value) (map.map fun kv => (kv.1, f kv.2)) =
      (map.insert key value).map fun kv => (kv.1, f kv.2) := by
  induction map with
  | nil => rfl
  | cons head rest ih =>
    rw [List.map_cons, BTreeMap.insert, BTreeMap.insert]
    split
    · rfl
    split
    · rfl
    · rw [List.map_cons, ih]

/-- Collecting is by the keys alone. -/
theorem BTreeMap.collect_map {μ : Type} (pairs : List (κ × ν)) (f : ν → μ) :
    BTreeMap.collect (pairs.map fun kv => (kv.1, f kv.2)) =
      (BTreeMap.collect pairs).map fun kv => (kv.1, f kv.2) := by
  have hfold : ∀ map : BTreeMap κ ν,
      (pairs.map fun kv => (kv.1, f kv.2)).foldl (fun map kv => BTreeMap.insert kv.1 kv.2 map)
        (map.map fun kv => (kv.1, f kv.2)) =
      (pairs.foldl (fun map kv => map.insert kv.1 kv.2) map).map fun kv => (kv.1, f kv.2) := by
    induction pairs with
    | nil => exact fun map => rfl
    | cons kv pairs ih =>
      intro map
      rw [List.map_cons, List.foldl_cons, List.foldl_cons, ← ih, ← BTreeMap.insert_map]
  exact hfold []

/-- What a map was collected from. -/
theorem BTreeMap.mem_of_mem_collect {pairs : List (κ × ν)} {kv : κ × ν}
    (h : kv ∈ BTreeMap.collect pairs) : kv ∈ pairs := by
  have hfold : ∀ (pairs : List (κ × ν)) (map : BTreeMap κ ν),
      kv ∈ pairs.foldl (fun map kv => map.insert kv.1 kv.2) map → kv ∈ map ∨ kv ∈ pairs := by
    intro pairs
    induction pairs with
    | nil => exact fun map h => .inl h
    | cons pair rest ih =>
      intro map h
      obtain hmap | hrest := ih _ h
      · obtain rfl | hmap := BTreeMap.mem_insert hmap
        · exact .inr (List.mem_cons_self ..)
        · exact .inl hmap
      · exact .inr (List.mem_cons_of_mem _ hrest)
  exact (hfold pairs [] h).resolve_left List.not_mem_nil

/-- Every key of the pairs is there. -/
theorem BTreeMap.get_collect {pairs : List (κ × ν)} {kv : κ × ν} (h : kv ∈ pairs) :
    ∃ value, (BTreeMap.collect pairs).get kv.1 = some value := by
  have hfold : ∀ (pairs : List (κ × ν)) (map : BTreeMap κ ν),
      (map.get kv.1).isSome = true ∨ kv ∈ pairs →
      ((pairs.foldl (fun map kv => map.insert kv.1 kv.2) map).get kv.1).isSome = true := by
    intro pairs
    induction pairs with
    | nil => simp
    | cons pair rest ih =>
      intro map h
      refine ih _ ?_
      rw [BTreeMap.get_insert]
      obtain hmap | hmem := h
      · left
        split
        · rfl
        · exact hmap
      · obtain rfl | hrest := List.mem_cons.mp hmem
        · exact .inl (by simp)
        · exact .inr hrest
  exact Option.isSome_iff_exists.mp (hfold pairs [] (.inr h))

theorem BTreeMap.get_or_insert (map : BTreeMap κ ν) (key k : κ) (value : ν) :
    (map.or_insert key value).get k = (map.get k).or (if key = k then some value else none) := by
  unfold BTreeMap.or_insert BTreeMap.contains_key
  by_cases hk : key = k
  · subst hk
    rw [if_pos rfl]
    cases hget : map.get key with
    | none => simp [BTreeMap.get_insert]
    | some v => simp [hget]
  · rw [if_neg hk, Option.or_none]
    split
    · rfl
    · rw [BTreeMap.get_insert, if_neg (Ne.symm hk)]

/-- The first of the entries of a key is the one that stays. -/
theorem BTreeMap.get_foldl_or_insert {α : Type} (key : α → κ) (value : α → ν) (items : List α)
    (map : BTreeMap κ ν) (k : κ) :
    (items.foldl (fun map item => map.or_insert (key item) (value item)) map).get k =
      (map.get k).or ((items.find? fun item => key item = k).map value) := by
  induction items generalizing map with
  | nil => simp
  | cons item rest ih =>
    rw [List.foldl_cons, ih, BTreeMap.get_or_insert, Option.or_assoc, List.find?_cons]
    by_cases hk : key item = k <;> simp [hk]

end

end btree
