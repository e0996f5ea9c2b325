import Mathlib.Data.Int.Order.Basic

namespace calendar

/-- Nanoseconds in a second. -/
def SECOND : Int := 1000000000

def SECS_PER_DAY : Int := 86400

/-- `i64::MAX`. -/
def I64_MAX : Int := 9223372036854775807

/-- `i64::MAX` milliseconds, in nanoseconds. -/
def MAX_DELTA : Int := I64_MAX * 1000000

/-- -262143-01-01T00:00:00Z, in nanoseconds since the epoch. -/
def MIN_UTC : Int := -8334601228800 * SECOND

/-- +262142-12-31T23:59:59.999999999Z. -/
def MAX_UTC : Int := 8210266876800 * SECOND - 1

def InDelta (nanos : Int) : Prop := -MAX_DELTA ≤ nanos ∧ nanos ≤ MAX_DELTA

def InUtc (nanos : Int) : Prop := MIN_UTC ≤ nanos ∧ nanos ≤ MAX_UTC

instance (nanos : Int) : Decidable (InDelta nanos) := inferInstanceAs (Decidable (_ ∧ _))

instance (nanos : Int) : Decidable (InUtc nanos) := inferInstanceAs (Decidable (_ ∧ _))

/-- A signed duration, in nanoseconds. -/
structure TimeDelta where
  nanos : Int
  bounded : InDelta nanos

/-- `DateTime<Utc>`, in nanoseconds since the epoch. -/
structure Utc where
  nanos : Int
  bounded : InUtc nanos

theorem inUtc_zero : InUtc 0 := by decide

/-- `i64::checked_mul`. -/
def checked_mul (a b : Int) : Option Int := if -I64_MAX - 1 ≤ a * b ∧ a * b ≤ I64_MAX then some (a * b) else none

namespace TimeDelta

def new (secs : Int) (nanos : Nat) : Option TimeDelta :=
  if h : InDelta (secs * SECOND + nanos) then some ⟨_, h⟩ else none

def try_seconds (secs : Int) : Option TimeDelta := new secs 0

def try_days (days : Int) : Option TimeDelta := (checked_mul days SECS_PER_DAY).bind try_seconds

/-- `TimeDelta::from_std`. -/
def from_std (secs : BitVec 64) (nanos : Nat) : Option TimeDelta := new secs.toNat nanos

theorem new_of_inDelta {secs : Int} {nanos : Nat} (h : InDelta (secs * SECOND + nanos)) :
    new secs nanos = some ⟨secs * SECOND + nanos, h⟩ := dif_pos h

theorem new_eq_none {secs : Int} {nanos : Nat} (h : ¬ InDelta (secs * SECOND + nanos)) :
    new secs nanos = none := dif_neg h

theorem new_secs {secs : Int} (h : InDelta (secs * SECOND)) :
    ∃ delta, new secs 0 = some delta ∧ delta.nanos = secs * SECOND := by
  have hdelta : InDelta (secs * SECOND + (0 : Nat)) := by rwa [Int.natCast_zero, Int.add_zero]
  exact ⟨_, new_of_inDelta hdelta, Int.add_zero _⟩

theorem new_secs_eq_none {secs : Int} (h : ¬ InDelta (secs * SECOND)) : new secs 0 = none := by
  refine new_eq_none ?_
  rwa [Int.natCast_zero, Int.add_zero]

/-- The multiplication leaves its range only where the duration does. -/
theorem try_days_eq (days : Int) : try_days days = new (days * SECS_PER_DAY) 0 := by
  unfold try_days checked_mul
  split
  · rfl
  · rename_i hrange
    refine (new_eq_none fun hdelta => hrange ?_).symm
    unfold InDelta MAX_DELTA SECOND I64_MAX at hdelta
    unfold I64_MAX
    omega

end TimeDelta

namespace Utc

def of_nanos (nanos : Int) : Option Utc := if h : InUtc nanos then some ⟨nanos, h⟩ else none

def checked_add_signed (t : Utc) (delta : TimeDelta) : Option Utc := of_nanos (t.nanos + delta.nanos)

def checked_sub_signed (t : Utc) (delta : TimeDelta) : Option Utc := of_nanos (t.nanos - delta.nanos)

theorem of_nanos_eq_some {nanos : Int} {t : Utc} (h : of_nanos nanos = some t) : t.nanos = nanos := by
  unfold of_nanos at h
  split at h
  · exact congrArg Utc.nanos (Option.some.inj h).symm
  · cases h

/-- An instant is there exactly within the range. -/
theorem of_nanos_isSome {nanos : Int} : (of_nanos nanos).isSome ↔ InUtc nanos := by
  unfold of_nanos
  split
  · rename_i h
    exact iff_of_true rfl h
  · rename_i h
    exact iff_of_false Bool.false_ne_true h

end Utc

end calendar
