import Api2Mcp.Collections.BTree
import Mathlib.Data.List.Sort

namespace btree

/-- What every set that is built by insertion satisfies. -/
def BTreeSet.Sorted {κ : Type} [LT κ] (set : BTreeSet κ) : Prop := set.Pairwise (· < ·)

/-- What every map that is built by insertion satisfies. -/
def BTreeMap.Sorted {κ ν : Type} [LT κ] (map : BTreeMap κ ν) : Prop :=
  (map.map Prod.fst).Pairwise (· < ·)

section

variable {κ ν μ : Type} [DecidableEq κ] [LT κ] [DecidableLT κ] [IsStrictTotalOrder κ (· < ·)]

omit [DecidableEq κ] [DecidableLT κ] in
theorem BTreeSet.Sorted.apart {set : BTreeSet κ} (h : set.Sorted) : set.Pairwise (· ≠ ·) := by
  refine List.Pairwise.imp ?_ h
  intro k k' hlt
  exact ne_of_irrefl hlt

omit [DecidableEq κ] [DecidableLT κ] in
theorem BTreeMap.Sorted.apart {map : BTreeMap κ ν} (h : map.Sorted) : map.Pairwise fun kv kv' => kv.1 ≠ kv'.1 := by
  refine (List.pairwise_map.mp h).imp ?_
  intro kv kv' hlt
  exact ne_of_irrefl hlt

omit [IsStrictTotalOrder κ (· < ·)] in
/-- Pairs of keys that differ are all kept. -/
theorem BTreeMap.mem_collect {pairs : List (κ × ν)} (hkeys : (pairs.map Prod.fst).Nodup) {kv : κ × ν} :
    kv ∈ BTreeMap.collect pairs ↔ kv ∈ pairs := by
  refine ⟨BTreeMap.mem_of_mem_collect, fun h => ?_⟩
  obtain ⟨value, hvalue⟩ := BTreeMap.get_collect h
  have hmem := BTreeMap.mem_of_get hvalue
  have hsame : (kv.1, value) = kv :=
    List.inj_on_of_nodup_map hkeys (BTreeMap.mem_of_mem_collect hmem) h rfl
  rwa [hsame] at hmem

omit [DecidableEq κ] [DecidableLT κ] in
theorem lt_of_not_lt {a b : κ} (hnot : ¬ a < b) (hne : a ≠ b) : b < a := by
  obtain hlt | heq | hgt := trichotomous_of (· < ·) a b
  · exact absurd hlt hnot
  · exact absurd heq hne
  · exact hgt

theorem BTreeSet.sorted_insert {set : BTreeSet κ} (h : set.Sorted) (key : κ) : (set.insert key).Sorted := by
  induction set with
  | nil => exact List.pairwise_singleton _ _
  | cons head rest ih =>
    obtain ⟨hhead, hrest⟩ := List.pairwise_cons.mp h
    unfold BTreeSet.insert
    split
    · rename_i hlt
      refine List.pairwise_cons.mpr ⟨fun k hk => ?_, h⟩
      obtain rfl | hk := List.mem_cons.mp hk
      · exact hlt
      · exact trans_of (· < ·) hlt (hhead k hk)
    split
    · exact h
    · rename_i hnot hne
      refine List.pairwise_cons.mpr ⟨fun k hk => ?_, ih hrest⟩
      obtain rfl | hk := BTreeSet.mem_insert.mp hk
      · exact lt_of_not_lt hnot hne
      · exact hhead k hk

theorem BTreeSet.sorted_collect (keys : List κ) : (BTreeSet.collect keys).Sorted := by
  have hfold : ∀ set : BTreeSet κ, set.Sorted → (keys.foldl (fun set key => set.insert key) set).Sorted := by
    induction keys with
    | nil => exact fun set h => h
    | cons key rest ih => exact fun set h => ih _ (BTreeSet.sorted_insert h key)
  exact hfold [] .nil

omit [DecidableEq κ] [DecidableLT κ] in
/-- Two sets with the same elements are one. -/
theorem BTreeSet.eq_of_mem_iff {a b : BTreeSet κ} (ha : a.Sorted) (hb : b.Sorted)
    (h : ∀ k, k ∈ a ↔ k ∈ b) : a = b :=
  List.Pairwise.eq_of_mem_iff ha hb h

/-- A set is what its elements collect to. -/
theorem BTreeSet.collect_eq_of_mem_iff {set : BTreeSet κ} (h : set.Sorted) {keys : List κ}
    (hmem : ∀ k, k ∈ keys ↔ k ∈ set) : BTreeSet.collect keys = set :=
  BTreeSet.eq_of_mem_iff (BTreeSet.sorted_collect keys) h fun k => BTreeSet.mem_collect.trans (hmem k)

omit [IsStrictTotalOrder κ (· < ·)] in
theorem BTreeMap.mem_keys_insert {map : BTreeMap κ ν} {key k : κ} {value : ν} :
    k ∈ (map.insert key value).map Prod.fst ↔ k = key ∨ k ∈ map.map Prod.fst := by
  induction map with
  | nil => simp [BTreeMap.insert]
  | cons head rest ih =>
    unfold BTreeMap.insert
    split
    · simp
    split
    · rename_i heq
      simp [heq]
    · rw [List.map_cons, List.mem_cons, ih, List.map_cons, List.mem_cons]
      tauto

theorem BTreeMap.sorted_insert {map : BTreeMap κ ν} (h : map.Sorted) (key : κ) (value : ν) :
    (map.insert key value).Sorted := by
  induction map with
  | nil => exact List.pairwise_singleton _ _
  | cons head rest ih =>
    obtain ⟨hhead, hrest⟩ := List.pairwise_cons.mp h
    unfold BTreeMap.insert
    split
    · rename_i hlt
      refine List.pairwise_cons.mpr ⟨fun k hk => ?_, h⟩
      obtain rfl | hk := List.mem_cons.mp hk
      · exact hlt
      · exact trans_of (· < ·) hlt (hhead k hk)
    split
    · rename_i heq
      subst heq
      exact h
    · rename_i hnot hne
      refine List.pairwise_cons.mpr ⟨fun k hk => ?_, ih hrest⟩
      obtain rfl | hk := BTreeMap.mem_keys_insert.mp hk
      · exact lt_of_not_lt hnot hne
      · exact hhead k hk

theorem BTreeMap.sorted_collect (pairs : List (κ × ν)) : (BTreeMap.collect pairs).Sorted := by
  have hfold : ∀ map : BTreeMap κ ν, map.Sorted →
      (pairs.foldl (fun map kv => map.insert kv.1 kv.2) map).Sorted := by
    induction pairs with
    | nil => exact fun map h => h
    | cons kv rest ih => exact fun map h => ih _ (BTreeMap.sorted_insert h kv.1 kv.2)
  exact hfold [] .nil

omit [DecidableEq κ] [DecidableLT κ] [IsStrictTotalOrder κ (· < ·)] in
theorem BTreeMap.Sorted.tail {head : κ × ν} {rest : BTreeMap κ ν}
    (h : BTreeMap.Sorted (head :: rest)) : BTreeMap.Sorted rest := (List.pairwise_cons.mp h).2

/-- A key above all others goes to the end. -/
theorem BTreeMap.insert_of_lt {map : BTreeMap κ ν} {key : κ} (h : ∀ kv ∈ map, kv.1 < key) (value : ν) :
    map.insert key value = map ++ [(key, value)] := by
  induction map with
  | nil => rfl
  | cons head rest ih =>
    have hlt := h head (List.mem_cons_self ..)
    unfold BTreeMap.insert
    rw [if_neg (asymm_of (· < ·) hlt), if_neg (ne_of_irrefl' hlt), ih fun kv hkv => h kv (List.mem_cons_of_mem _ hkv)]
    rfl

/-- A map is what its entries collect to. -/
theorem BTreeMap.collect_of_sorted {map : BTreeMap κ ν} (h : map.Sorted) : BTreeMap.collect map = map := by
  have hfold : ∀ done rest : BTreeMap κ ν, BTreeMap.Sorted (done ++ rest) →
      rest.foldl (fun map kv => map.insert kv.1 kv.2) done = done ++ rest := by
    intro done rest
    induction rest generalizing done with
    | nil => exact fun _ => (List.append_nil done).symm
    | cons kv rest ih =>
      intro hsorted
      have hbelow : ∀ kv' ∈ done, kv'.1 < kv.1 := by
        intro kv' hkv'
        unfold BTreeMap.Sorted at hsorted
        rw [List.map_append, List.pairwise_append] at hsorted
        exact hsorted.2.2 _ (List.mem_map_of_mem hkv') _ (List.mem_cons_self ..)
      rw [List.foldl_cons, BTreeMap.insert_of_lt hbelow, ih, List.append_assoc]
      · rfl
      · rwa [List.append_assoc]
  exact hfold [] map h

omit [DecidableLT κ] in
/-- A map has at most one entry for a key. -/
theorem BTreeMap.get_of_mem_sorted {map : BTreeMap κ ν} (h : map.Sorted) {kv : κ × ν} (hkv : kv ∈ map) :
    map.get kv.1 = some kv.2 := by
  induction map with
  | nil => cases hkv
  | cons head rest ih =>
    obtain ⟨hhead, hrest⟩ := List.pairwise_cons.mp h
    obtain rfl | hkv := List.mem_cons.mp hkv
    · simp [BTreeMap.get]
    · have hlt := hhead kv.1 (List.mem_map_of_mem hkv)
      have hget := ih hrest hkv
      unfold BTreeMap.get at hget ⊢
      rw [List.find?_cons_of_neg (by simpa using ne_of_irrefl hlt)]
      exact hget

omit [DecidableLT κ] in
/-- What is made of some of the entries, under the same keys. -/
def BTreeMap.filter_map (map : BTreeMap κ ν) (f : ν → Option μ) : BTreeMap κ μ :=
  map.filterMap fun kv => (f kv.2).map fun value => (kv.1, value)

omit [DecidableEq κ] [DecidableLT κ] [IsStrictTotalOrder κ (· < ·)] in
theorem BTreeMap.sorted_filter_map {map : BTreeMap κ ν} (h : map.Sorted) (f : ν → Option μ) :
    (map.filter_map f).Sorted := by
  refine List.pairwise_map.mpr ((List.pairwise_map.mp h).filterMap _ fun kv kv' hlt out hout out' hout' => ?_)
  obtain ⟨_, _, rfl⟩ := Option.map_eq_some_iff.mp hout
  obtain ⟨_, _, rfl⟩ := Option.map_eq_some_iff.mp hout'
  exact hlt

omit [DecidableLT κ] in
theorem BTreeMap.get_filter_map {map : BTreeMap κ ν} (h : map.Sorted) (f : ν → Option μ) (key : κ) :
    (map.filter_map f).get key = (map.get key).bind f := by
  cases hget : map.get key with
  | none =>
    rw [Option.bind_none, ← Option.not_isSome_iff_eq_none, Option.isSome_iff_exists]
    rintro ⟨value, hvalue⟩
    obtain ⟨kv, hkv, hsome⟩ := List.mem_filterMap.mp (BTreeMap.mem_of_get hvalue)
    obtain ⟨_, _, hpair⟩ := Option.map_eq_some_iff.mp hsome
    obtain ⟨value, hfound⟩ := BTreeMap.get_of_mem hkv
    rw [(Prod.mk.inj hpair).1, hget] at hfound
    cases hfound
  | some value =>
    have hkv := BTreeMap.mem_of_get hget
    rw [Option.bind_some]
    cases hf : f value with
    | some out =>
      have hmem : (key, out) ∈ map.filter_map f := List.mem_filterMap.mpr ⟨_, hkv, by rw [hf]; rfl⟩
      exact BTreeMap.get_of_mem_sorted (BTreeMap.sorted_filter_map h f) hmem
    | none =>
      rw [← Option.not_isSome_iff_eq_none, Option.isSome_iff_exists]
      rintro ⟨out, hout⟩
      obtain ⟨kv, hmem, hsome⟩ := List.mem_filterMap.mp (BTreeMap.mem_of_get hout)
      obtain ⟨_, hkept, hpair⟩ := Option.map_eq_some_iff.mp hsome
      have hfound := BTreeMap.get_of_mem_sorted h hmem
      rw [(Prod.mk.inj hpair).1, hget] at hfound
      rw [← Option.some.inj hfound, hf] at hkept
      cases hkept

/-- `BTreeSet::extend`. -/
def BTreeSet.extend (set : BTreeSet κ) (keys : List κ) : BTreeSet κ :=
  keys.foldl (fun set key => set.insert key) set

omit [IsStrictTotalOrder κ (· < ·)] in
@[simp] theorem BTreeSet.mem_extend {set : BTreeSet κ} {keys : List κ} {k : κ} :
    k ∈ set.extend keys ↔ k ∈ set ∨ k ∈ keys := by
  induction keys generalizing set with
  | nil => simp [BTreeSet.extend]
  | cons key rest ih =>
    change k ∈ (set.insert key).extend rest ↔ _
    rw [ih, BTreeSet.mem_insert, List.mem_cons]
    tauto

theorem BTreeSet.sorted_extend {set : BTreeSet κ} (h : set.Sorted) (keys : List κ) : (set.extend keys).Sorted := by
  induction keys generalizing set with
  | nil => exact h
  | cons key rest ih => exact ih (BTreeSet.sorted_insert h key)

omit [DecidableEq κ] [DecidableLT κ] [IsStrictTotalOrder κ (· < ·)] in
/-- The entries of a map that was sorted, under the same keys. -/
theorem BTreeMap.Sorted.map {map : BTreeMap κ ν} (h : map.Sorted) (f : κ × ν → μ) :
    BTreeMap.Sorted (map.map fun kv => (kv.1, f kv)) := by
  refine List.pairwise_map.mpr (List.pairwise_map.mpr ((List.pairwise_map.mp h).imp ?_))
  exact fun hlt => hlt

omit [DecidableLT κ] in
/-- Two maps with the same entries are one. -/
theorem BTreeMap.eq_of_mem_iff {a b : BTreeMap κ ν} (ha : a.Sorted) (hb : b.Sorted)
    (h : ∀ kv, kv ∈ a ↔ kv ∈ b) : a = b := by
  have hnodup : ∀ {map : BTreeMap κ ν}, map.Sorted → map.Nodup := fun hmap =>
    hmap.apart.imp fun hne heq => hne (congrArg Prod.fst heq)
  have hsorted : ∀ {map : BTreeMap κ ν}, map.Sorted → map.Pairwise fun kv kv' => ¬ kv'.1 < kv.1 := fun hmap =>
    (List.pairwise_map.mp hmap).imp fun hlt hgt => asymm_of (· < ·) hlt hgt
  refine List.Perm.eq_of_pairwise (fun kv kv' hkv hkv' hle hge => ?_) (hsorted ha) (hsorted hb)
    ((List.perm_ext_iff_of_nodup (hnodup ha) (hnodup hb)).mpr h)
  have hkey : kv.1 = kv'.1 := by
    by_contra hne
    exact hle (lt_of_not_lt hge hne)
  have hget := BTreeMap.get_of_mem_sorted hb ((h kv).mp hkv)
  rw [hkey, BTreeMap.get_of_mem_sorted hb hkv'] at hget
  exact Prod.ext hkey (Option.some.inj hget).symm

section

variable {τ : Type} [DecidableEq τ] [LT τ] [DecidableLT τ]

/-- What there is for each key, under the key's name. -/
def BTreeMap.pick (name : κ → τ) (f : κ → Option ν) (keys : BTreeSet κ) : BTreeMap τ ν :=
  BTreeMap.collect (keys.filterMap fun key => (f key).map fun value => (name key, value))

omit [DecidableEq κ] [DecidableLT κ] in
theorem BTreeMap.mem_pick {name : κ → τ} (hname : Function.Injective name) {f : κ → Option ν} {keys : BTreeSet κ}
    (hsorted : keys.Sorted) {kv : τ × ν} :
    kv ∈ BTreeMap.pick name f keys ↔ ∃ key ∈ keys, ∃ value, f key = some value ∧ kv = (name key, value) := by
  have hkeys : ((keys.filterMap fun key => (f key).map fun value => (name key, value)).map Prod.fst).Nodup := by
    refine List.pairwise_map.mpr (hsorted.apart.filterMap _ fun key key' hne out hout out' hout' heq => ?_)
    obtain ⟨_, _, rfl⟩ := Option.map_eq_some_iff.mp hout
    obtain ⟨_, _, rfl⟩ := Option.map_eq_some_iff.mp hout'
    exact hne (hname heq)
  rw [BTreeMap.pick, BTreeMap.mem_collect hkeys, List.mem_filterMap]
  simp only [Option.map_eq_some_iff, @eq_comm _ kv]

end

end

end btree
