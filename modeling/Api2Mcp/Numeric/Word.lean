import Mathlib.Data.BitVec

namespace numeric

variable {w : Nat}

/-- The sum, if it fits the word. -/
def checked_add (a b : BitVec w) : Option (BitVec w) :=
  if a.toNat + b.toNat < 2 ^ w then some (a + b) else none

/-- The sum, or the greatest word. -/
def saturating_add (a b : BitVec w) : BitVec w := (checked_add a b).getD (.allOnes w)

/-- The difference, or zero. -/
def saturating_sub (a b : BitVec w) : BitVec w := if b ≤ a then a - b else 0#w

/-- Addition that wraps is off by more than it may be. -/
theorem toNat_add_eq_iff {a b : BitVec w} :
    (a + b).toNat = a.toNat + b.toNat ↔ a.toNat + b.toNat < 2 ^ w := by
  refine ⟨fun h => ?_, BitVec.toNat_add_of_lt⟩
  rw [← h]
  exact (a + b).isLt

theorem checked_add_eq_some {a b c : BitVec w} :
    checked_add a b = some c ↔ a.toNat + b.toNat = c.toNat := by
  unfold checked_add
  split
  · rename_i hfits
    rw [Option.some.injEq, ← BitVec.toNat_inj, BitVec.toNat_add_of_lt hfits]
  · rename_i hover
    refine iff_of_false (by simp) fun h => hover ?_
    rw [h]
    exact c.isLt

theorem checked_add_eq_none {a b : BitVec w} :
    checked_add a b = none ↔ 2 ^ w ≤ a.toNat + b.toNat := by
  unfold checked_add
  split <;> simp_all

theorem toNat_saturating_add (a b : BitVec w) :
    (saturating_add a b).toNat = min (a.toNat + b.toNat) (2 ^ w - 1) := by
  unfold saturating_add
  cases h : checked_add a b with
  | some c =>
    have hc := checked_add_eq_some.mp h
    have hlt := c.isLt
    simp only [Option.getD_some]
    omega
  | none =>
    have hover := checked_add_eq_none.mp h
    simp only [Option.getD_none, BitVec.toNat_allOnes]
    omega

end numeric
