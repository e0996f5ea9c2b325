import Api2Mcp.Json.Literal
import Api2Mcp.Script.Bindings

namespace serde_json

/-- Why a text is no JSON, and where. -/
structure Error where
  line : Nat
  column : Nat
  message : String

/-- How the crate reads a text, and the double it takes an integer for that is
out of range. -/
structure TextCrate where
  read : String → Except Error Literal
  to_f64 : Bool → Nat → BitVec 64

def from_str (crate : TextCrate) (s : String) : Except Error Value :=
  Literal.value crate.to_f64 <$> crate.read s

end serde_json

namespace api2mcp.script

open btree serde_json
open marshal

def json_parse (crate : TextCrate) (s : String) : Except EvalAltResult marshal.Dynamic := do
  let value ← (from_str crate s).mapError fun e =>
    runtime_err ("json_parse: invalid JSON at line " ++ Nat.repr e.line ++ " column " ++
      Nat.repr e.column ++ ": " ++ e.message)
  (to_dynamic value).mapError fun e => runtime_err ("json_parse: " ++ e.to_string)

namespace marshal.Dynamic

/-- The part of a value at a path. -/
def part : List Step → Dynamic → Option Dynamic
  | [], d => some d
  | .item i :: path, .array items => items[i]?.bind (part path)
  | .member key :: path, .map fields => (BTreeMap.get fields key).bind (part path)
  | _ :: _, _ => none

/-- The integer that a value is, as an integer or as a double. -/
def integer : Dynamic → Option Int
  | .int i => some i.toInt
  | .float bits => binary64.whole bits
  | _ => none

end marshal.Dynamic

/-- Wherever the text has an integer, the value has exactly that integer. -/
def Exact (t : Literal) (d : marshal.Dynamic) : Prop :=
  ∀ path negative magnitude, t.part path = some (.integer negative magnitude) →
    (d.part path).bind Dynamic.integer = some (Literal.signed negative magnitude)

/-- The text nests too deep, or has an integer between those of `i64` and those
out of range. -/
def Refused (t : Literal) : Prop :=
  (∃ path t', t.part path = some t' ∧ 64 < path.length) ∨
    ∃ path magnitude, t.part path = some (.integer false magnitude) ∧ 2 ^ 63 ≤ magnitude ∧ magnitude < 2 ^ 64

section

variable {to_f64 : Bool → Nat → BitVec 64}

/-- The engine's value has at a path what the text has there. -/
theorem part_dynamic_of (path : List Step) (t : Literal) :
    (dynamic_of (t.value to_f64)).part path = (t.part path).map fun t' => dynamic_of (t'.value to_f64) := by
  induction path generalizing t with
  | nil => cases t <;> rfl
  | cons step path ih =>
    cases t with
    | array items =>
      cases step with
      | item i =>
        rw [Literal.value, dynamic_of, dynamic_items_eq, Literal.value_items_eq, Dynamic.part, Literal.part,
          List.getElem?_map, List.getElem?_map]
        cases items[i]? with
        | none => rfl
        | some item => exact ih item
      | member key => rfl
    | object fields =>
      cases step with
      | item i => rfl
      | member key =>
        have hkeys : (BTreeMap.collect (Literal.value_fields to_f64 fields)).Pairwise fun a b => a.1 < b.1 :=
          List.pairwise_map.mp (BTreeMap.sorted_collect _)
        rw [Literal.value, dynamic_of, sorted_dynamic_fields hkeys, dynamic_fields_eq,
          Literal.collect_value_fields, Dynamic.part, Literal.part, BTreeMap.get_map, BTreeMap.get_map]
        cases BTreeMap.get (BTreeMap.collect fields) key with
        | none => rfl
        | some member => exact ih member
    | integer negative magnitude =>
      rw [Literal.value]
      cases Literal.number to_f64 negative magnitude <;> cases step <;> rfl
    | _ => cases step <;> rfl

theorem above_i64_number {negative : Bool} {magnitude : Nat} :
    AboveI64 (Literal.number to_f64 negative magnitude) ↔
      negative = false ∧ 2 ^ 63 ≤ magnitude ∧ magnitude < 2 ^ 64 := by
  unfold Literal.number
  by_cases hrange : Literal.OutOfRange negative magnitude
  · rw [if_pos hrange]
    refine iff_of_false id ?_
    rintro ⟨rfl, -, hlt⟩
    exact Nat.not_lt.mpr (Literal.out_of_range_positive.mp hrange) hlt
  rw [if_neg hrange]
  cases negative with
  | true => exact iff_of_false id nofun
  | false =>
    have hlt : magnitude < 2 ^ 64 := Nat.lt_of_not_le fun hlarge => hrange (Literal.out_of_range_positive.mpr hlarge)
    rw [if_neg Bool.false_ne_true, AboveI64, BitVec.toNat_ofNat, Nat.mod_eq_of_lt hlt, and_iff_right rfl,
      and_iff_left hlt]

/-- A text is converted exactly if it is not refused. -/
theorem to_dynamic_value_iff {t : Literal} {d : marshal.Dynamic} :
    to_dynamic (t.value to_f64) = .ok d ↔ ¬ Refused t ∧ d = dynamic_of (t.value to_f64) := by
  have hdepth : (t.value to_f64).nesting ≤ MAX_DEPTH ↔ ¬ ∃ path t', t.part path = some t' ∧ 64 < path.length := by
    rw [Literal.nesting_le_iff]
    push Not
    rfl
  have hnumbers : Representable (t.value to_f64) ↔
      ¬ ∃ path magnitude, t.part path = some (.integer false magnitude) ∧ 2 ^ 63 ≤ magnitude ∧ magnitude < 2 ^ 64 := by
    rw [Representable, Literal.forall_numbers_iff]
    constructor
    · rintro h ⟨path, magnitude, hpart, habove⟩
      exact h path _ hpart _ rfl (above_i64_number.mpr ⟨rfl, habove⟩)
    · intro h path t' hpart x hx habove
      cases t' with
      | integer negative magnitude =>
        obtain rfl := Value.number.inj hx
        obtain ⟨rfl, hrange⟩ := above_i64_number.mp habove
        exact h ⟨path, magnitude, hpart, hrange⟩
      | real bits =>
        obtain rfl := Value.number.inj hx
        exact habove
      | _ => cases hx
  rw [to_dynamic_iff, hdepth, hnumbers, ← not_or]
  rfl

theorem not_above_of_not_refused {t : Literal} {path : List Step} {negative : Bool} {magnitude : Nat}
    (hrefused : ¬ Refused t) (hpart : t.part path = some (.integer negative magnitude)) :
    ¬ AboveI64 (Literal.number to_f64 negative magnitude) := by
  rw [above_i64_number]
  rintro ⟨rfl, hrange⟩
  exact hrefused (.inr ⟨path, magnitude, hpart, hrange⟩)

/-- What the engine has for an integer is that integer in `i64`, or the double
it was taken for. -/
theorem integer_dynamic_of_iff {negative : Bool} {magnitude : Nat}
    (hbelow : ¬ AboveI64 (Literal.number to_f64 negative magnitude)) :
    (dynamic_of ((Literal.integer negative magnitude).value to_f64)).integer = some (Literal.signed negative magnitude) ↔
      (Literal.OutOfRange negative magnitude →
        binary64.whole (to_f64 negative magnitude) = some (Literal.signed negative magnitude)) := by
  rw [above_i64_number] at hbelow
  rw [Literal.value, Literal.number]
  by_cases hrange : Literal.OutOfRange negative magnitude
  · rw [if_pos hrange, dynamic_of, Dynamic.integer, forall_prop_of_true hrange]
  · rw [if_neg hrange]
    refine iff_of_true ?_ fun hout => absurd hout hrange
    unfold Literal.signed
    cases negative with
    | true =>
      rw [Literal.out_of_range_negative] at hrange
      rw [if_pos rfl, if_pos rfl, dynamic_of, Dynamic.integer, BitVec.toInt_ofInt, Int.bmod_eq_of_le]
      all_goals omega
    | false =>
      rw [Literal.out_of_range_positive] at hrange
      have hlow : magnitude < 2 ^ 63 := by
        by_contra hhigh
        exact hbelow ⟨rfl, Nat.le_of_not_lt hhigh, Nat.lt_of_not_le hrange⟩
      have hnat : (BitVec.ofNat 64 magnitude).toNat = magnitude := by
        rw [BitVec.toNat_ofNat, Nat.mod_eq_of_lt (by omega)]
      rw [if_neg Bool.false_ne_true, if_neg Bool.false_ne_true, dynamic_of, Dynamic.integer,
        BitVec.toInt_eq_toNat_of_lt (by omega), hnat]

end

theorem json_parse_ok_iff {crate : TextCrate} {s : String} {d : marshal.Dynamic} :
    json_parse crate s = .ok d ↔
      ∃ t, crate.read s = .ok t ∧ ¬ Refused t ∧ d = dynamic_of (t.value crate.to_f64) := by
  unfold json_parse from_str
  simp only [except.bind_eq_ok, except.mapError_eq_ok, except.map_eq_ok]
  constructor
  · rintro ⟨_, ⟨t, hread, rfl⟩, hd⟩
    exact ⟨t, hread, to_dynamic_value_iff.mp hd⟩
  · rintro ⟨t, hread, hd⟩
    exact ⟨_, ⟨t, hread, rfl⟩, to_dynamic_value_iff.mpr hd⟩

/-- `json_parse` throws, or keeps every integer literal exactly, for just those
texts where each one out of range is taken for a double of its value. -/
theorem json_parse_exact_iff (crate : TextCrate) (s : String) :
    (∀ d, json_parse crate s = .ok d → ∃ t, crate.read s = .ok t ∧ Exact t d) ↔
      ∀ t, crate.read s = .ok t → Refused t ∨
        ∀ path negative magnitude, t.part path = some (.integer negative magnitude) →
          Literal.OutOfRange negative magnitude →
            binary64.whole (crate.to_f64 negative magnitude) = some (Literal.signed negative magnitude) := by
  constructor
  · intro h t hread
    by_cases hrefused : Refused t
    · exact .inl hrefused
    right
    intro path negative magnitude hpart hrange
    obtain ⟨t', hread', hexact⟩ := h _ (json_parse_ok_iff.mpr ⟨t, hread, hrefused, rfl⟩)
    obtain rfl := Except.ok.inj (hread.symm.trans hread')
    have hinteger := hexact path negative magnitude hpart
    rw [part_dynamic_of, hpart, Option.map_some, Option.bind_some,
      integer_dynamic_of_iff (not_above_of_not_refused hrefused hpart)] at hinteger
    exact hinteger hrange
  · intro h d hd
    obtain ⟨t, hread, hrefused, rfl⟩ := json_parse_ok_iff.mp hd
    refine ⟨t, hread, fun path negative magnitude hpart => ?_⟩
    have hwhole := (h t hread).resolve_left hrefused path negative magnitude hpart
    rw [part_dynamic_of, hpart, Option.map_some, Option.bind_some,
      integer_dynamic_of_iff (not_above_of_not_refused hrefused hpart)]
    exact hwhole

/-- How the crate reads the integer after 2 ^ 64: as the double 2 ^ 64. -/
def rounding_crate : TextCrate where
  read s :=
    if s = "18446744073709551617" then .ok (.integer false 18446744073709551617)
    else .error ⟨1, 1, "expected value"⟩
  to_f64 _ _ := 0x43f0000000000000#64

/-- An integer above `u64::MAX` is rounded, and nothing is thrown. -/
theorem json_parse_rounds :
    ¬ ∀ (crate : TextCrate) (s : String) (d : marshal.Dynamic), json_parse crate s = .ok d →
      ∃ t, crate.read s = .ok t ∧ Exact t d := by
  intro h
  let t : Literal := .integer false 18446744073709551617
  have hread : rounding_crate.read "18446744073709551617" = .ok t := by simp [rounding_crate, t]
  have hself : t.part [] = some t := rfl
  have hleaf : ∀ step path, Literal.part (step :: path) (.integer false 18446744073709551617) = none :=
    Literal.part_cons_leaf nofun nofun
  have honly : ∀ path t', t.part path = some t' → path = [] ∧ t' = t :=
    (Literal.forall_part_leaf hleaf).mpr ⟨rfl, rfl⟩
  have hrefused : ¬ Refused t := by
    rintro (⟨path, t', hpart, hlong⟩ | ⟨path, magnitude, hpart, -, hsmall⟩)
    · rw [(honly path t' hpart).1] at hlong
      cases hlong
    · obtain ⟨-, rfl⟩ := Literal.integer.inj (honly path _ hpart).2
      exact absurd hsmall (by decide)
  obtain ⟨t', hread', hexact⟩ := h rounding_crate _ _ (json_parse_ok_iff.mpr ⟨t, hread, hrefused, rfl⟩)
  obtain rfl : t = t' := Except.ok.inj (hread.symm.trans hread')
  have hrange : Literal.OutOfRange false 18446744073709551617 := Literal.out_of_range_positive.mpr (by decide)
  have hbelow : ¬ AboveI64 (Literal.number rounding_crate.to_f64 false 18446744073709551617) :=
    not_above_of_not_refused hrefused hself
  have hwhole : binary64.whole 0x43f0000000000000#64 = some 18446744073709551617 :=
    (integer_dynamic_of_iff hbelow).mp (hexact [] _ _ hself) hrange
  have hdouble : binary64.whole 0x43f0000000000000#64 = some 18446744073709551616 := by decide
  rw [hdouble] at hwhole
  exact absurd (Option.some.inj hwhole) (by decide)

end api2mcp.script
