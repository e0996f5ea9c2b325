import Api2Mcp.Json.Number
import Api2Mcp.Project.Apply

namespace api2mcp.project

open serde_json
open api2mcp.model api2mcp.schema

/-- One check of the digits, written in two ways. -/
theorem refused (digits : List Char) (n : Int) :
    (if !digits.isEmpty && digits.all Char.isDigit then
      if -2 ^ 63 ≤ n && n < 2 ^ 63 then .ok (.number (.of_i64 n)) else .error "string"
    else .error "string" : Except String Value) =
      match (if digits.isEmpty || !digits.all Char.isDigit then none
        else if -2 ^ 63 ≤ n && n < 2 ^ 63 then some n else none) with
      | some n => .ok (.number (.of_i64 n))
      | none => .error "string" := by
  have hrefused : (digits.isEmpty || !digits.all Char.isDigit) =
      !(!digits.isEmpty && digits.all Char.isDigit) := by
    rw [Bool.not_and, Bool.not_not]
  rw [hrefused]
  cases !digits.isEmpty && digits.all Char.isDigit with
  | false => rfl
  | true =>
    simp only [Bool.not_true, Bool.false_eq_true, if_false, if_true]
    split
    · rfl
    · rfl

/-- The digits, as a magnitude. -/
def magnitude (digits : List Char) : Int :=
  digits.foldl (fun n c => n * 10 + (c.toNat - '0'.toNat)) 0

theorem parse_minus {s : String} {digits : List Char} (h : s.toList = '-' :: digits) :
    parse_digit_string s =
      if digits.isEmpty || !digits.all Char.isDigit then none
      else if -2 ^ 63 ≤ -magnitude digits && -magnitude digits < 2 ^ 63 then some (-magnitude digits)
      else none := by
  unfold parse_digit_string
  rw [h]
  rfl

theorem parse_plain {s : String} (h : ∀ digits, s.toList = '-' :: digits → False) :
    parse_digit_string s =
      if s.toList.isEmpty || !s.toList.all Char.isDigit then none
      else if -2 ^ 63 ≤ magnitude s.toList && magnitude s.toList < 2 ^ 63 then some (magnitude s.toList)
      else none := by
  unfold parse_digit_string
  split
  rename_i hparts
  split at hparts
  · rename_i digits hs
    exact (h digits hs).elim
  · obtain ⟨rfl, rfl⟩ := Prod.mk.inj hparts
    rfl

theorem coerce_integer_eq (value : Value) : coerce_integer value = schema.coerce_integer value := by
  cases value with
  | number x => cases x <;> rfl
  | string s =>
    unfold coerce_integer
    dsimp only
    split
    · rename_i digits hs
      rw [schema.coerce_integer, parse_minus hs]
      exact refused digits _
    · rename_i hs
      rw [schema.coerce_integer, parse_plain hs]
      exact refused s.toList _
  | _ => rfl

/-- The two coercers are one function. -/
theorem coerce_value_eq (ty : ParamType) (value : Value) : coerce_value ty value = schema.coerce ty value := by
  cases ty with
  | Integer =>
    have hinteger := coerce_integer_eq value
    cases value <;> exact hinteger
  | _ => cases value <;> rfl

/-- What the coercer takes of a number is that number, as an integer. -/
def Exact (coercer : Value → Except String Value) (x : Number) : Prop :=
  ∀ r, coercer (.number x) = .ok r → ∃ n : Number, r = .number n ∧ n.is_integer = true ∧ n.value = x.value

theorem value_eq_of_integer {x y : Number} {n : Int} (hx : x.integer = some n) (hy : y.integer = some n) :
    x.value = y.value := by
  rw [Number.integer_iff.mp hx, Number.integer_iff.mp hy]

/-- A double is taken where it is a whole number in the range, and the upper
bound of the range counts as the integer below it. -/
theorem coerce_integer_float {bits : BitVec 64} {r : Value} :
    schema.coerce_integer (.number (.Float bits)) = .ok r ↔
      ∃ n, Number.whole bits = some n ∧ -2 ^ 63 ≤ n ∧ n ≤ 2 ^ 63 ∧
        r = .number (.of_i64 (min n (2 ^ 63 - 1))) := by
  unfold schema.coerce_integer
  dsimp only
  cases hwhole : Number.whole bits with
  | none => simp
  | some n =>
    simp only [Bool.and_eq_true, decide_eq_true_eq, Option.some.injEq, exists_eq_left']
    constructor
    · intro h
      split at h
      · rename_i hrange
        exact ⟨hrange.1, hrange.2, (Except.ok.inj h).symm⟩
      · cases h
    · rintro ⟨hlow, hhigh, rfl⟩
      rw [if_pos ⟨hlow, hhigh⟩]

theorem exact_coerce_integer_iff (x : Number) :
    Exact (schema.coerce .Integer) x ↔ ¬ ((∃ bits, x = .Float bits) ∧ x.value = some (2 ^ 63)) := by
  cases x with
  | Float bits =>
    have hvalue : (Number.Float bits).value = some (2 ^ 63) ↔ Number.whole bits = some (2 ^ 63) := by
      have h := @Number.integer_iff (.Float bits) (2 ^ 63)
      rw [Number.integer] at h
      rw [h]
      norm_num
    constructor
    · rintro hexact ⟨-, htop⟩
      have hwhole := hvalue.mp htop
      obtain ⟨n, hn, -, heq⟩ := hexact _
        (coerce_integer_float.mpr ⟨2 ^ 63, hwhole, by decide, le_refl _, rfl⟩)
      obtain rfl := Value.number.inj hn
      have hbelow : (Number.of_i64 (min (2 ^ 63) (2 ^ 63 - 1))).integer = some (2 ^ 63 - 1) :=
        Number.integer_of_i64 (by decide) (by decide)
      rw [htop, Number.integer_iff.mp hbelow] at heq
      norm_num at heq
    · intro hnot r hr
      obtain ⟨n, hwhole, hlow, hhigh, rfl⟩ := coerce_integer_float.mp hr
      have hne : n ≠ 2 ^ 63 := by
        rintro rfl
        exact hnot ⟨⟨bits, rfl⟩, hvalue.mpr hwhole⟩
      have hlt : n < 2 ^ 63 := lt_of_le_of_ne hhigh hne
      have hmin : min n (2 ^ 63 - 1) = n := min_eq_left (Int.le_sub_one_of_lt hlt)
      refine ⟨_, rfl, Number.is_integer_of_i64 _, ?_⟩
      rw [hmin]
      exact value_eq_of_integer (Number.integer_of_i64 hlow hlt) hwhole
  | PosInt a =>
    refine iff_of_true (fun r hr => ?_) (by simp)
    obtain rfl := Except.ok.inj hr
    exact ⟨_, rfl, rfl, rfl⟩
  | NegInt a =>
    refine iff_of_true (fun r hr => ?_) (by simp)
    obtain rfl := Except.ok.inj hr
    exact ⟨_, rfl, rfl, rfl⟩

/-- A number is coerced to the integer it is, by both coercers alike, unless it
is the double `2 ^ 63`. -/
theorem coerce_integer_exact_iff (x : Number) :
    (Exact (schema.coerce .Integer) x ∧ Exact (coerce_value .Integer) x ∧
        schema.coerce .Integer (.number x) = coerce_value .Integer (.number x)) ↔
      ¬ ((∃ bits, x = .Float bits) ∧ x.value = some (2 ^ 63)) := by
  have hsame : coerce_value .Integer = schema.coerce .Integer := funext (coerce_value_eq .Integer)
  rw [hsame, exact_coerce_integer_iff]
  tauto

/-- `9223372036854775808.0` becomes `9223372036854775807`. -/
theorem coerce_two_pow_63 :
    ¬ ∀ x : Number, Exact (schema.coerce .Integer) x ∧ Exact (coerce_value .Integer) x ∧
      schema.coerce .Integer (.number x) = coerce_value .Integer (.number x) := by
  intro h
  obtain ⟨hexact, -⟩ := h (.Float 0x43e0000000000000)
  have hwhole : Number.whole 0x43e0000000000000 = some (2 ^ 63) := by decide
  refine (exact_coerce_integer_iff _).mp hexact ⟨⟨_, rfl⟩, ?_⟩
  have hvalue := (@Number.integer_iff (.Float 0x43e0000000000000) (2 ^ 63)).mp hwhole
  rw [hvalue]
  norm_num

end api2mcp.project
