import Api2Mcp.Json.Pointer
import Api2Mcp.Numeric.Binary64
import Mathlib.Algebra.Group.Int.Defs
import Mathlib.Algebra.Group.Nat.Defs

namespace serde_json

/-- What the crates compute on numbers and pointers: the text of a double, and
the value with another one put in at a pointer. -/
structure ValueCrate where
  f64_to_string : BitVec 64 → String
  assign : jsonptr.PointerBuf → Value → Value → Except String Value

instance : Inhabited ValueCrate := ⟨⟨fun _ => "", fun _ _ _ => .error ""⟩⟩

namespace Number

/-- `impl Display for Number`. -/
def to_string (crate : ValueCrate) : Number → String
  | .PosInt n => Nat.repr n.toNat
  | .NegInt n => toString n.toInt
  | .Float bits => crate.f64_to_string bits

def of_i64 (n : Int) : Number := if n < 0 then .NegInt (.ofInt 64 n) else .PosInt (.ofInt 64 n)

/-- The value of a double, where it is a whole number. -/
def whole (bits : BitVec 64) : Option Int :=
  let exponent := (bits >>> 52).toNat % 2048
  let fraction := bits.toNat % 2 ^ 52
  let mantissa := if exponent = 0 then fraction else fraction + 2 ^ 52
  let shift : Int := (if exponent = 0 then 1 else exponent) - 1075
  let magnitude : Option Nat :=
    if exponent = 2047 then none
    else if 0 ≤ shift then some (mantissa * 2 ^ shift.toNat)
    else if mantissa % 2 ^ (-shift).toNat = 0 then some (mantissa / 2 ^ (-shift).toNat)
    else none
  magnitude.map fun m => if bits.msb then -(m : Int) else m

/-- `impl PartialEq for Number`: doubles are compared as numbers. -/
def eq : Number → Number → Bool
  | .PosInt a, .PosInt b => a = b
  | .NegInt a, .NegInt b => a = b
  | .Float a, .Float b => a = b || (a <<< 1 = 0 && b <<< 1 = 0)
  | _, _ => false

end Number

mutual

/-- `impl PartialEq for Value`. -/
def Value.eq : Value → Value → Bool
  | .null, .null => true
  | .bool a, .bool b => a = b
  | .number a, .number b => a.eq b
  | .string a, .string b => a = b
  | .array a, .array b => Value.eqItems a b
  | .object a, .object b => Value.eqFields a b
  | _, _ => false

def Value.eqItems : List Value → List Value → Bool
  | [], [] => true
  | a :: as, b :: bs => a.eq b && Value.eqItems as bs
  | _, _ => false

def Value.eqFields : List (String × Value) → List (String × Value) → Bool
  | [], [] => true
  | (k, a) :: as, (l, b) :: bs => k = l && a.eq b && Value.eqFields as bs
  | _, _ => false

end

end serde_json

namespace serde_json

namespace Number

/-- The number that is meant; an infinity and a NaN, which are in no JSON text,
are none. -/
def value : Number → Option ℚ
  | .PosInt n => some (n.toNat : ℚ)
  | .NegInt n => some (n.toInt : ℚ)
  | .Float bits => binary64.value bits

/-- The integer that the number is, where it is one, in whatever form. -/
def integer : Number → Option Int
  | .PosInt n => some n.toNat
  | .NegInt n => some n.toInt
  | .Float bits => whole bits

theorem whole_eq (bits : BitVec 64) : whole bits = binary64.whole bits := by
  unfold whole binary64.whole binary64.scale binary64.significand binary64.shift binary64.exponent
    binary64.fraction
  dsimp only
  generalize (bits >>> 52).toNat % 2048 = exponent
  generalize (if exponent = 0 then bits.toNat % 2 ^ 52 else bits.toNat % 2 ^ 52 + 2 ^ 52) = m
  generalize ((if exponent = 0 then 1 else exponent : Nat) : Int) - 1075 = shift
  by_cases hspecial : exponent = 2047
  · rw [if_pos hspecial, if_pos hspecial]
    rfl
  rw [if_neg hspecial, if_neg hspecial]
  by_cases hshift : 0 ≤ shift
  · rw [if_pos hshift]
    rfl
  rw [if_neg hshift]
  by_cases hdvd : m % 2 ^ (-shift).toNat = 0
  · rw [if_pos hdvd]
    rfl
  · rw [if_neg hdvd]
    rfl

theorem integer_iff {x : Number} {n : Int} : x.integer = some n ↔ x.value = some (n : ℚ) := by
  cases x with
  | PosInt a =>
    rw [integer, value, Option.some.injEq, Option.some.injEq]
    exact_mod_cast Iff.rfl
  | NegInt a =>
    rw [integer, value, Option.some.injEq, Option.some.injEq]
    exact_mod_cast Iff.rfl
  | Float bits => rw [integer, value, whole_eq, binary64.whole_iff]

/-- A number in the form that is kept for integers. -/
def is_integer : Number → Bool
  | .Float _ => false
  | _ => true

theorem integer_of_i64 {n : Int} (hlow : -2 ^ 63 ≤ n) (hhigh : n < 2 ^ 63) :
    (of_i64 n).integer = some n := by
  unfold of_i64
  split
  · rw [integer, BitVec.toInt_ofInt, Int.bmod_eq_of_le]
    · omega
    · omega
  · rw [integer, Option.some.injEq, BitVec.toNat_ofInt]
    omega

theorem is_integer_of_i64 (n : Int) : (of_i64 n).is_integer = true := by
  unfold of_i64
  split <;> rfl

end Number

end serde_json
