import Mathlib.Algebra.Order.Field.Basic
import Mathlib.Algebra.Order.Ring.Cast
import Mathlib.Data.Rat.Cast.Order
import Mathlib.Tactic.Positivity

namespace binary64

def exponent (bits : BitVec 64) : Nat := (bits >>> 52).toNat % 2048

def fraction (bits : BitVec 64) : Nat := bits.toNat % 2 ^ 52

/-- The integer that the double is a power of two times. -/
def significand (bits : BitVec 64) : Nat :=
  if exponent bits = 0 then fraction bits else fraction bits + 2 ^ 52

def shift (bits : BitVec 64) : Int := (if exponent bits = 0 then 1 else exponent bits) - 1075

def magnitude (bits : BitVec 64) : ℚ := significand bits * (2 : ℚ) ^ shift bits

/-- The value of a finite double. -/
def value (bits : BitVec 64) : Option ℚ :=
  if exponent bits = 2047 then none
  else some (if bits.msb then -magnitude bits else magnitude bits)

/-- A multiple of a power of two, where it is a natural number. -/
def scale (m : Nat) (shift : Int) : Option Nat :=
  if 0 ≤ shift then some (m * 2 ^ shift.toNat)
  else if m % 2 ^ (-shift).toNat = 0 then some (m / 2 ^ (-shift).toNat)
  else none

theorem scale_iff {m n : Nat} {shift : Int} :
    scale m shift = some n ↔ (m : ℚ) * (2 : ℚ) ^ shift = n := by
  unfold scale
  obtain hshift | hshift := le_or_gt 0 shift
  · obtain ⟨k, rfl⟩ := Int.eq_ofNat_of_zero_le hshift
    rw [if_pos hshift, Option.some.injEq, Int.toNat_natCast, zpow_natCast]
    exact_mod_cast Iff.rfl
  · rw [if_neg (not_le.mpr hshift)]
    obtain ⟨k, hk⟩ := Int.eq_ofNat_of_zero_le (Int.neg_nonneg.mpr hshift.le)
    have hpow : (0 : ℚ) < 2 ^ k := by positivity
    have hvalue : (m : ℚ) * (2 : ℚ) ^ shift = n ↔ m = n * 2 ^ k := by
      rw [← neg_neg shift, hk, zpow_neg, zpow_natCast, ← div_eq_mul_inv, div_eq_iff hpow.ne']
      exact_mod_cast Iff.rfl
    rw [hvalue, hk, Int.toNat_natCast]
    have hpos : 0 < 2 ^ k := Nat.two_pow_pos k
    constructor
    · intro h
      split at h
      · rename_i hdvd
        rw [← Option.some.inj h, Nat.div_mul_cancel (Nat.dvd_of_mod_eq_zero hdvd)]
      · cases h
    · rintro rfl
      rw [Nat.mul_mod_left, if_pos rfl, Nat.mul_div_cancel n hpos]

/-- The integer that the double is, where it is one. -/
def whole (bits : BitVec 64) : Option Int :=
  if exponent bits = 2047 then none
  else (scale (significand bits) (shift bits)).map fun m : Nat => if bits.msb then -(m : Int) else (m : Int)

theorem magnitude_nonneg (bits : BitVec 64) : 0 ≤ magnitude bits :=
  mul_nonneg (Nat.cast_nonneg _) (zpow_nonneg zero_le_two _)

theorem whole_iff {bits : BitVec 64} {n : Int} : whole bits = some n ↔ value bits = some (n : ℚ) := by
  unfold whole value
  split
  · simp
  have hscale : ∀ m : Nat, scale (significand bits) (shift bits) = some m ↔ magnitude bits = m :=
    fun m => scale_iff
  have hnonneg := magnitude_nonneg bits
  rw [Option.map_eq_some_iff, Option.some.injEq]
  split
  · constructor
    · rintro ⟨m, hm, rfl⟩
      rw [(hscale m).mp hm, Int.cast_neg, Int.cast_natCast]
    · intro h
      have hneg : magnitude bits = ((-n : Int) : ℚ) := by
        rw [Int.cast_neg, ← h, neg_neg]
      have hle : 0 ≤ -n := by
        rw [hneg] at hnonneg
        exact_mod_cast hnonneg
      obtain ⟨m, hm⟩ := Int.eq_ofNat_of_zero_le hle
      refine ⟨m, (hscale m).mpr ?_, by omega⟩
      rw [hneg, hm, Int.cast_natCast]
  · constructor
    · rintro ⟨m, hm, rfl⟩
      rw [(hscale m).mp hm, Int.cast_natCast]
    · intro h
      have hle : 0 ≤ n := by
        rw [h] at hnonneg
        exact_mod_cast hnonneg
      obtain ⟨m, rfl⟩ := Int.eq_ofNat_of_zero_le hle
      exact ⟨m, (hscale m).mpr (by rw [h, Int.cast_natCast]), rfl⟩

end binary64
