import Api2Mcp.Runtime.Budget

namespace api2mcp.runtime.budget

open numeric

variable {w : Nat}

/-- The amounts of some items, as a number. -/
def total (items : List (Nat × BitVec w)) : Nat := (items.map (·.2.toNat)).sum

@[simp] theorem total_nil : total ([] : List (Nat × BitVec w)) = 0 := rfl

@[simp] theorem total_cons (item : Nat × BitVec w) (items : List (Nat × BitVec w)) :
    total (item :: items) = item.2.toNat + total items := by
  simp [total]

@[simp] theorem total_append (a b : List (Nat × BitVec w)) : total (a ++ b) = total a + total b := by
  simp [total]

/-- Adding everything up stays within the word, where nothing else stops it. -/
def Room (max : Option (BitVec w)) (used : BitVec w) (ordered : List (Nat × BitVec w)) : Prop :=
  max = none ∨ max = some (.allOnes w) → used.toNat + total ordered < 2 ^ w

/-- A commit is right if it charges a prefix, all of it, and the item it stops
at is over the limit. -/
def ChargesPrefix (max : Option (BitVec w)) (used : BitVec w) (ordered : List (Nat × BitVec w))
    (result : Option Nat × BitVec w) : Prop :=
  ∃ before after, ordered = before ++ after ∧ result.2.toNat = used.toNat + total before ∧
    result.1 = after.head?.map (·.1) ∧
    ∀ item ∈ after.head?, ∃ m ∈ max, m.toNat < used.toNat + total before + item.2.toNat

theorem toNat_lt_allOnes {m : BitVec w} (h : m ≠ .allOnes w) : m.toNat < 2 ^ w - 1 := by
  have hlt := m.isLt
  have hne : m.toNat ≠ (BitVec.allOnes w).toNat := fun heq => h (BitVec.eq_of_toNat_eq heq)
  rw [BitVec.toNat_allOnes] at hne
  omega

/-- The loop charges a prefix too, on top of what it has charged. -/
theorem commit_loop_spec (max used committed : BitVec w) (ordered : List (Nat × BitVec w))
    (hroom : max = .allOnes w → used.toNat + total ordered < 2 ^ w)
    (hcommitted : committed.toNat ≤ used.toNat) :
    ∃ before after, ordered = before ++ after ∧
      (commit_loop max used committed ordered).2.toNat = committed.toNat + total before ∧
      (before ≠ [] → used.toNat + total before ≤ max.toNat) ∧
      (commit_loop max used committed ordered).1 = after.head?.map (·.1) ∧
      ∀ item ∈ after.head?, max.toNat < used.toNat + total before + item.2.toNat := by
  induction ordered generalizing used committed with
  | nil => exact ⟨[], [], rfl, rfl, fun hne => absurd rfl hne, rfl, by simp⟩
  | cons item rest ih =>
    obtain ⟨index, amount⟩ := item
    have hmin := toNat_saturating_add used amount
    have hmax := max.isLt
    unfold commit_loop
    by_cases htrip : max < saturating_add used amount
    · rw [if_pos htrip]
      rw [BitVec.lt_def] at htrip
      refine ⟨[], (index, amount) :: rest, rfl, rfl, fun hne => absurd rfl hne, rfl, ?_⟩
      simp only [List.head?_cons, Option.mem_some_iff, forall_eq', total_nil]
      omega
    · rw [if_neg htrip]
      rw [BitVec.lt_def] at htrip
      have hfits : used.toNat + amount.toNat < 2 ^ w := by
        by_cases hones : max = .allOnes w
        · have := hroom hones
          simp only [total_cons] at this
          omega
        · have := toNat_lt_allOnes hones
          omega
      have hadd : (committed + amount).toNat = committed.toNat + amount.toNat :=
        BitVec.toNat_add_of_lt (by omega)
      obtain ⟨before, after, hsplit, hcharged, hle, htrip_at, hover⟩ :=
        ih (saturating_add used amount) (committed + amount)
          (fun hones => by have := hroom hones; simp only [total_cons] at this; omega) (by omega)
      refine ⟨(index, amount) :: before, after, by rw [hsplit]; rfl, ?_, fun _ => ?_, htrip_at, ?_⟩
      · simp only [total_cons]
        omega
      · simp only [total_cons]
        by_cases hnil : before = []
        · simp only [hnil, total_nil]
          omega
        · have := hle hnil
          omega
      · intro item hitem
        have := hover item hitem
        simp only [total_cons]
        omega

/-- The greatest word is a limit nothing is over. -/
theorem commit_loop_allOnes (used committed : BitVec w) (ordered : List (Nat × BitVec w)) :
    (commit_loop (.allOnes w) used committed ordered).1 = none := by
  induction ordered generalizing used committed with
  | nil => rfl
  | cons item rest ih =>
    obtain ⟨index, amount⟩ := item
    have hle : ¬ BitVec.allOnes w < saturating_add used amount := by
      have := (saturating_add used amount).isLt
      rw [BitVec.lt_def, BitVec.toNat_allOnes]
      omega
    rw [commit_loop, if_neg hle]
    exact ih _ _

theorem toNat_wrapping_sum (used : BitVec w) (ordered : List (Nat × BitVec w)) :
    (used + wrapping_sum (ordered.map (·.2))).toNat = (used.toNat + total ordered) % 2 ^ w := by
  have hfold : ∀ acc : BitVec w, ((ordered.map (·.2)).foldl (· + ·) acc).toNat =
      (acc.toNat + total ordered) % 2 ^ w := by
    induction ordered with
    | nil =>
      intro acc
      simp [Nat.mod_eq_of_lt acc.isLt]
    | cons item rest ih =>
      intro acc
      rw [List.map_cons, List.foldl_cons, ih, BitVec.toNat_add, total_cons, Nat.mod_add_mod,
        Nat.add_assoc]
  rw [BitVec.toNat_add, wrapping_sum, hfold]
  simp

/-- A commit is right exactly when nothing wraps. -/
theorem commit_in_order_iff (max : Option (BitVec w)) (used : BitVec w)
    (ordered : List (Nat × BitVec w)) :
    ChargesPrefix max used ordered (commit_in_order max used ordered) ↔ Room max used ordered := by
  cases max with
  | none =>
    have hused := toNat_wrapping_sum used ordered
    constructor
    · rintro ⟨before, after, rfl, hcharged, _, hover⟩ _
      cases after with
      | nil =>
        rw [List.append_nil, ← hcharged]
        exact (commit_in_order none used _).2.isLt
      | cons item rest =>
        obtain ⟨m, hm, _⟩ := hover item rfl
        cases hm
    · intro hroom
      refine ⟨ordered, [], (List.append_nil _).symm, ?_, rfl, by simp⟩
      rw [commit_in_order, hused, Nat.mod_eq_of_lt (hroom (.inl rfl))]
  | some m =>
    constructor
    · rintro ⟨before, after, rfl, hcharged, htrip, _⟩ hones
      obtain rfl : m = .allOnes w := by simpa using hones
      have hnone : after.head?.map (·.1) = none := by
        rw [← htrip]
        exact commit_loop_allOnes used 0 _
      obtain rfl : after = [] := by simpa using hnone
      rw [List.append_nil, ← hcharged]
      exact (commit_in_order (some (.allOnes w)) used _).2.isLt
    · intro hroom
      obtain ⟨before, after, hsplit, hcharged, hle, htrip, hover⟩ :=
        commit_loop_spec m used 0#w ordered
          (fun hones => hroom (.inr (by rw [hones]))) (by simp)
      have hfits : used.toNat + total before < 2 ^ w := by
        have := m.isLt
        by_cases hnil : before = []
        · simp only [hnil, total_nil, Nat.add_zero]
          exact used.isLt
        · have := hle hnil
          omega
      refine ⟨before, after, hsplit, ?_, htrip, fun item hitem => ⟨m, rfl, hover item hitem⟩⟩
      have hsum : (commit_loop m used 0#w ordered).2.toNat = total before := by
        rw [hcharged]
        simp
      show (used + (commit_loop m used 0#w ordered).2).toNat = _
      rw [BitVec.toNat_add_of_lt (by omega), hsum]

/-- What a commit charges keeps to a limit that was kept to. -/
theorem commit_in_order_le {max used : BitVec w} {ordered : List (Nat × BitVec w)}
    (hroom : Room (some max) used ordered) (hle : used ≤ max) :
    (commit_in_order (some max) used ordered).2 ≤ max := by
  obtain ⟨before, after, _, hcharged, hbound, _, _⟩ :=
    commit_loop_spec max used 0#w ordered
      (fun hones => hroom (.inr (by rw [hones]))) (by simp)
  rw [BitVec.le_def] at hle ⊢
  have hsum : (commit_loop max used 0#w ordered).2.toNat = total before := by
    rw [hcharged]
    simp
  have hfits : used.toNat + total before ≤ max.toNat := by
    by_cases hnil : before = []
    · simpa only [hnil, total_nil, Nat.add_zero] using hle
    · exact hbound hnil
  have hlt := max.isLt
  show (used + (commit_loop max used 0#w ordered).2).toNat ≤ _
  rw [BitVec.toNat_add_of_lt (by omega), hsum]
  exact hfits

/-- The number of leading amounts that fit under the limit. -/
def fitting (limit : Option Nat) : Nat → List Nat → Nat
  | _, [] => 0
  | used, amount :: rest =>
    if limit.any (· < used + amount) then 0 else fitting limit (used + amount) rest + 1

/-- The greatest word is a limit nothing is over. -/
def limit_of (max : Option (BitVec w)) : Option Nat :=
  if max = some (.allOnes w) then none else max.map (·.toNat)

/-- How many of the items a commit charges. -/
def charged (max : Option (BitVec w)) (used : BitVec w) (ordered : List (Nat × BitVec w)) : Nat :=
  fitting (limit_of max) used.toNat (ordered.map (·.2.toNat))

theorem fitting_none (used : Nat) (amounts : List Nat) : fitting none used amounts = amounts.length := by
  induction amounts generalizing used with
  | nil => rfl
  | cons amount rest ih => simp [fitting, ih]

/-- Saturation does not change what is over the limit. -/
theorem trips_iff (max used amount : BitVec w) :
    max < saturating_add used amount ↔ (limit_of (some max)).any (· < used.toNat + amount.toNat) := by
  have hmin := toNat_saturating_add used amount
  have hlt := max.isLt
  rw [BitVec.lt_def]
  by_cases hones : max = .allOnes w
  · subst hones
    simp only [limit_of, if_true, Option.any_none, Bool.false_eq_true, iff_false, BitVec.toNat_allOnes]
    omega
  · have hbelow := toNat_lt_allOnes hones
    simp only [limit_of, Option.some.injEq, hones, if_false, Option.map_some, Option.any_some,
      decide_eq_true_eq]
    omega

theorem commit_loop_eq (max used committed : BitVec w) (ordered : List (Nat × BitVec w)) :
    commit_loop max used committed ordered =
      (((ordered.drop (charged (some max) used ordered)).head?).map (·.1),
        committed + .ofNat w (total (ordered.take (charged (some max) used ordered)))) := by
  induction ordered generalizing used committed with
  | nil => simp [commit_loop, charged, fitting]
  | cons item rest ih =>
    obtain ⟨index, amount⟩ := item
    have htrips := trips_iff max used amount
    unfold commit_loop
    by_cases hover : max < saturating_add used amount
    · have hzero : charged (some max) used ((index, amount) :: rest) = 0 := by
        rw [charged, List.map_cons, fitting, if_pos (htrips.mp hover)]
      rw [if_pos hover, hzero]
      simp
    · have hsame : charged (some max) (saturating_add used amount) rest =
          fitting (limit_of (some max)) (used.toNat + amount.toNat) (rest.map (·.2.toNat)) := by
        by_cases hones : max = .allOnes w
        · rw [charged, hones, limit_of, if_pos rfl, fitting_none, fitting_none]
        · have hmin := toNat_saturating_add used amount
          have hbelow := toNat_lt_allOnes hones
          rw [BitVec.lt_def] at hover
          rw [charged]
          congr 1
          omega
      have hsucc : charged (some max) used ((index, amount) :: rest) =
          charged (some max) (saturating_add used amount) rest + 1 := by
        rw [hsame, charged, List.map_cons, fitting, if_neg (mt htrips.mpr hover)]
      rw [if_neg hover, ih, hsucc, List.drop_succ_cons, List.take_succ_cons, total_cons,
        BitVec.ofNat_add, BitVec.ofNat_toNat, BitVec.setWidth_eq, BitVec.add_assoc]

/-- What a commit does, whether anything wraps or not. -/
theorem commit_in_order_eq (max : Option (BitVec w)) (used : BitVec w)
    (ordered : List (Nat × BitVec w)) :
    commit_in_order max used ordered =
      (((ordered.drop (charged max used ordered)).head?).map (·.1),
        used + .ofNat w (total (ordered.take (charged max used ordered)))) := by
  cases max with
  | none =>
    have hall : charged none used ordered = ordered.length := by
      rw [charged, limit_of, if_neg (by simp), Option.map_none, fitting_none, List.length_map]
    have hsum : wrapping_sum (ordered.map (·.2)) = BitVec.ofNat w (total ordered) := by
      have hwraps := toNat_wrapping_sum (0#w) ordered
      refine BitVec.eq_of_toNat_eq ?_
      simpa using hwraps
    rw [hall, List.drop_length, List.take_length, commit_in_order, hsum]
    rfl
  | some m =>
    show ((commit_loop m used 0#w ordered).1, used + (commit_loop m used 0#w ordered).2) = _
    rw [commit_loop_eq, BitVec.zero_add]

end api2mcp.runtime.budget
