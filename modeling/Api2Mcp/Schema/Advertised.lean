import Api2Mcp.Json.Schema
import Api2Mcp.Project.Coerce
import Api2Mcp.Schema.Bound

namespace api2mcp.schema

open btree json_schema serde_json
open api2mcp.model

theorem satisfies_insert_some {key : String} {value : Option Value} {obj : Map}
    (h : Map.get key obj = none) (v : Value) :
    satisfies_all (insert_some key value obj) v =
      ((value.all fun schema => keyword key schema v) && satisfies_all obj v) := by
  cases value with
  | none => rfl
  | some schema => exact satisfies_all_insert h schema v

theorem get_insert_some (key k : String) (value : Option Value) (obj : Map) :
    Map.get k (insert_some key value obj) = if k = key then value.or (Map.get k obj) else Map.get k obj := by
  cases value with
  | none => simp [insert_some]
  | some value =>
    rw [insert_some, Map.get_insert]
    rfl

theorem get_insert_type {k : String} (htype : k ≠ "type") (hitems : k ≠ "items") (ty : ParamType) :
    Map.get k (insert_type ty []) = none := by
  unfold insert_type
  dsimp only
  split
  · rw [Map.get_insert, if_neg hitems, Map.get_insert, if_neg htype]
    rfl
  · rw [Map.get_insert, if_neg htype]
    rfl

theorem satisfies_insert_type (ty : ParamType) (v : Value) :
    satisfies_all (insert_type ty []) v = true ↔ has_type (json_schema_type_name ty) v = true ∧
      (ty = .StringArray → ∀ items, v = .array items → items.all is_string = true) := by
  have htype : ∀ name, keyword "type" (.string name) v = has_type name v := by
    intro name
    simp [keyword, satisfies_all, type_keyword]
  have hstring : ∀ item, satisfies (.json [("type", .string "string")]) item = is_string item := by
    intro item
    rw [Value.json_of_sorted (List.pairwise_singleton _ _), satisfies]
    cases item <;> simp [satisfies_all, type_keyword, has_type, is_string]
  have hitems : keyword "items" (.json [("type", .string "string")]) v = true ↔
      ∀ items, v = .array items → items.all is_string = true := by
    cases v with
    | array items =>
      have hitem : satisfies (.json [("type", .string "string")]) = is_string := funext hstring
      simp [keyword, satisfies_all, items_keyword, hitem]
    | _ => simp [keyword, satisfies_all, items_keyword]
  unfold insert_type
  dsimp only
  split
  · rename_i harray
    rw [satisfies_all_insert (by rfl), satisfies_all_insert rfl, htype, Bool.and_eq_true, Bool.and_eq_true,
      hitems]
    simp only [satisfies_all, and_true, harray, true_implies]
    exact and_comm
  · rename_i hother
    rw [satisfies_all_insert rfl, htype, Bool.and_eq_true]
    simp [satisfies_all, hother]

/-- What the schema of one param asks of its value. -/
theorem satisfies_property_iff {p : Param} {v : Value} :
    satisfies (property_schema p) v = true ↔
      has_type (json_schema_type_name p.ty) v = true ∧
        (p.ty = .StringArray → ∀ items, v = .array items → items.all is_string = true) ∧
        ∀ allowed ∈ p.enum_values, allowed.any (same v) = true := by
  have hdescription : ∀ schema, keyword "description" schema v = true := fun schema => by
    simp [keyword, satisfies_all]
  have hdefault : ∀ schema, keyword "default" schema v = true := fun schema => by
    simp [keyword, satisfies_all]
  have henum : ∀ allowed, keyword "enum" (.array allowed) v = allowed.any (same v) := fun allowed => by
    simp [keyword, satisfies_all, enum_keyword]
  have h0 : ∀ k, k ≠ "type" → k ≠ "items" → Map.get k (insert_type p.ty []) = none := fun k h h' =>
    get_insert_type h h' p.ty
  rw [property_schema, satisfies, satisfies_insert_some, satisfies_insert_some, satisfies_insert_some,
    Bool.and_eq_true, Bool.and_eq_true, Bool.and_eq_true, satisfies_insert_type]
  · simp only [hdescription, hdefault, Option.all_true, true_and]
    have hkeyword : ((p.enum_values.map Value.array).all fun schema => keyword "enum" schema v) = true ↔
        ∀ allowed ∈ p.enum_values, allowed.any (same v) = true := by
      cases p.enum_values with
      | none => simp
      | some allowed => simp [henum]
    rw [hkeyword]
    tauto
  · exact h0 _ (by decide) (by decide)
  · rw [get_insert_some, if_neg (by decide)]
    exact h0 _ (by decide) (by decide)
  · rw [get_insert_some, if_neg (by decide), get_insert_some, if_neg (by decide)]
    exact h0 _ (by decide) (by decide)

section

variable {params visible : List Param} {obj : Map} {p : Param}

/-- The members of `properties`, put in one after the other. -/
def properties (visible : List Param) (out : Map) : Map :=
  visible.foldl (fun out p => Map.insert p.name (property_schema p) out) out

theorem mem_properties {out : Map} {field : String × Value} (h : field ∈ properties visible out) :
    (∃ p ∈ visible, field = (p.name, property_schema p)) ∨ field ∈ out := by
  induction visible generalizing out with
  | nil => exact .inr h
  | cons p visible ih =>
    obtain ⟨q, hq, hfield⟩ | hmem := ih h
    · exact .inl ⟨q, List.mem_cons_of_mem _ hq, hfield⟩
    · obtain rfl | hout := Map.mem_insert hmem
      · exact .inl ⟨p, List.mem_cons_self .., rfl⟩
      · exact .inr hout

theorem get_properties_other {out : Map} {name : String} (h : name ∉ visible.map (·.name)) :
    Map.get name (properties visible out) = Map.get name out := by
  induction visible generalizing out with
  | nil => rfl
  | cons p visible ih =>
    rw [List.map_cons, List.mem_cons, not_or] at h
    rw [properties, List.foldl_cons]
    refine (ih h.2).trans ?_
    rw [Map.get_insert, if_neg h.1]

theorem get_properties {out : Map} (hdistinct : Distinct visible) (hp : p ∈ visible) :
    Map.get p.name (properties visible out) = some (property_schema p) := by
  induction visible generalizing out with
  | nil => cases hp
  | cons q visible ih =>
    obtain ⟨hfirst, hrest⟩ := List.nodup_cons.mp hdistinct
    rw [properties, List.foldl_cons]
    obtain rfl | hp := List.mem_cons.mp hp
    · refine (get_properties_other hfirst).trans ?_
      rw [Map.get_insert, if_pos rfl]
    · exact ih hrest hp

/-- The params that the schema shows. -/
def shown (params : List Param) : List Param :=
  (params.filter Param.is_model_visible).insertionSort fun a b => a.position ≤ b.position

theorem mem_shown : p ∈ shown params ↔ p ∈ params ∧ p.fixed = none := by
  rw [shown, (List.perm_insertionSort _ _).mem_iff, List.mem_filter, Param.is_model_visible,
    Option.isNone_iff_eq_none]

theorem distinct_shown (h : Distinct params) : Distinct (shown params) := by
  have hfilter : Distinct (params.filter Param.is_model_visible) := h.sublist (List.filter_sublist.map _)
  exact ((List.perm_insertionSort _ _).map _).nodup_iff.mpr hfilter

theorem input_schema_eq (params : List Param) :
    input_schema params = .object [
      ("properties", .object (properties (shown params) [])),
      ("required", .array (((shown params).filter (·.required)).map fun p => Value.string p.name)),
      ("type", .string "object")] := by
  have hfirst : "properties" < "type" := by decide
  have hbetween : ¬ "required" < "properties" := by decide
  have hlast : "required" < "type" := by decide
  rw [input_schema, Value.json]
  simp [Map.insert, hfirst, hbetween, hlast, shown, properties]

/-- What the schema of the params asks of an object. -/
theorem satisfies_input_schema_iff (hdistinct : Distinct params) :
    satisfies (input_schema params) (.object obj) = true ↔
      (∀ p ∈ params, p.fixed = none → ∀ v, Map.get p.name obj = some v →
        satisfies (property_schema p) v = true) ∧
      ∀ p ∈ params, p.fixed = none → p.required = true → (Map.get p.name obj).isSome := by
  have hproperties : satisfies_properties (properties (shown params) []) obj = true ↔
      ∀ p ∈ params, p.fixed = none → ∀ v, Map.get p.name obj = some v →
        satisfies (property_schema p) v = true := by
    rw [satisfies_properties_iff]
    constructor
    · intro h p hp hfixed
      have hget : Map.get p.name (properties (shown params) []) = some (property_schema p) :=
        get_properties (distinct_shown hdistinct) (mem_shown.mpr ⟨hp, hfixed⟩)
      exact h _ (Map.mem_of_get hget)
    · intro h field hfield
      obtain ⟨p, hp, rfl⟩ | hnil := mem_properties hfield
      · obtain ⟨hmem, hfixed⟩ := mem_shown.mp hp
        exact h p hmem hfixed
      · cases hnil
  have hrequired : required_keyword
        (.array (((shown params).filter (·.required)).map fun p => Value.string p.name)) (.object obj) = true ↔
      ∀ p ∈ params, p.fixed = none → p.required = true → (Map.get p.name obj).isSome := by
    simp only [required_keyword, List.all_map, List.all_eq_true, List.mem_filter, mem_shown,
      Function.comp_apply, Value.as_str, Option.all_some]
    constructor
    · intro h p hp hfixed hreq
      exact h p ⟨⟨hp, hfixed⟩, hreq⟩
    · rintro h p ⟨⟨hp, hfixed⟩, hreq⟩
      exact h p hp hfixed hreq
  rw [input_schema_eq, satisfies, satisfies_all_cons, satisfies_all_cons, satisfies_all_cons,
    Bool.and_eq_true, Bool.and_eq_true, Bool.and_eq_true]
  have hfirst : keyword "properties" (.object (properties (shown params) [])) (.object obj) =
      satisfies_properties (properties (shown params) []) obj := by
    simp [keyword, satisfies_all, properties_keyword]
  have hsecond : ∀ names, keyword "required" names (.object obj) = required_keyword names (.object obj) := by
    intro names
    simp [keyword, satisfies_all]
  have hthird : keyword "type" (.string "object") (.object obj) = true := by
    simp [keyword, satisfies_all, type_keyword, has_type]
  rw [hfirst, hsecond, hproperties, hrequired, satisfies_all]
  simp [hthird]

/-- A whole number that is written with a fraction or an exponent is one that
the range check of the coercion lets through. -/
def InRange (v : Value) : Prop :=
  ∀ bits n, v = .number (.Float bits) → Number.whole bits = some n → -2 ^ 63 ≤ n ∧ n ≤ 2 ^ 63

/-- A value of the advertised type is coerced, unless it is an integer out of
range. -/
theorem coerces_iff {ty : ParamType} {v : Value} (htype : has_type (json_schema_type_name ty) v = true)
    (hitems : ty = .StringArray → ∀ items, v = .array items → items.all is_string = true) :
    (∃ coerced, coerce ty v = .ok coerced) ↔ (ty = .Integer → InRange v) := by
  cases ty with
  | Integer =>
    cases v with
    | number x =>
      cases x with
      | Float bits =>
        have hinteger : (Number.Float bits).integer.isSome = true := by
          simpa [has_type, json_schema_type_name] using htype
        obtain ⟨n, hn⟩ := Option.isSome_iff_exists.mp hinteger
        constructor
        · rintro ⟨coerced, hcoerced⟩ - bits' n' hbits hwhole
          obtain rfl := Number.Float.inj (Value.number.inj hbits)
          obtain ⟨m, hm, hlow, hhigh, -⟩ := project.coerce_integer_float.mp hcoerced
          rw [hwhole] at hm
          obtain rfl := Option.some.inj hm
          exact ⟨hlow, hhigh⟩
        · intro hrange
          obtain ⟨hlow, hhigh⟩ := hrange rfl bits n rfl hn
          exact ⟨_, project.coerce_integer_float.mpr ⟨n, hn, hlow, hhigh, rfl⟩⟩
      | PosInt a => exact iff_of_true ⟨_, rfl⟩ fun _ bits n hbits => by cases hbits
      | NegInt a => exact iff_of_true ⟨_, rfl⟩ fun _ bits n hbits => by cases hbits
    | _ => simp [has_type, json_schema_type_name] at htype
  | StringArray =>
    cases v with
    | array items => exact iff_of_true ⟨_, if_pos (hitems rfl items rfl)⟩ fun h => by cases h
    | _ => simp [has_type, json_schema_type_name] at htype
  | String =>
    cases v with
    | string s => exact iff_of_true ⟨_, rfl⟩ fun h => by cases h
    | _ => simp [has_type, json_schema_type_name] at htype
  | Number =>
    cases v with
    | number x => exact iff_of_true ⟨_, rfl⟩ fun h => by cases h
    | _ => simp [has_type, json_schema_type_name] at htype
  | Boolean =>
    cases v with
    | bool b => exact iff_of_true ⟨_, rfl⟩ fun h => by cases h
    | _ => simp [has_type, json_schema_type_name] at htype

/-- An object that satisfies the advertised schema is accepted exactly when all
its keys are params', its integers are in range, and each value that an enum
limits is one of the enum as it is kept after its coercion. -/
theorem accepts_satisfying_iff (hdistinct : Distinct params)
    (hschema : satisfies (input_schema params) (.object obj) = true) :
    (∃ bound, bind_args params (.object obj) = .ok bound) ↔
      (∀ field ∈ obj, ∃ p ∈ params, p.name = field.1) ∧
      (∀ p ∈ params, p.fixed = none → p.ty = .Integer → ∀ v, Map.get p.name obj = some v → InRange v) ∧
      ∀ p ∈ params, p.fixed = none → ∀ v coerced, Map.get p.name obj = some v →
        coerce p.ty v = .ok coerced → InEnum p coerced := by
  obtain ⟨hproperties, hrequired⟩ := (satisfies_input_schema_iff hdistinct).mp hschema
  rw [(bind_args_spec hdistinct obj).1]
  refine and_congr_right fun _ => ?_
  have hcoerces : ∀ p ∈ params, p.fixed = none → ∀ v, Map.get p.name obj = some v →
      ((∃ coerced, coerce p.ty v = .ok coerced) ↔ (p.ty = .Integer → InRange v)) := by
    intro p hp hfixed v hv
    obtain ⟨htype, hitems, -⟩ := satisfies_property_iff.mp (hproperties p hp hfixed v hv)
    exact coerces_iff htype hitems
  constructor
  · rintro ⟨-, htakes⟩
    refine ⟨fun p hp hfixed hty v hv => ?_, fun p hp hfixed v coerced hv hcoerced => ?_⟩
    · obtain ⟨coerced, hcoerced, -⟩ := htakes p hp hfixed v hv
      exact (hcoerces p hp hfixed v hv).mp ⟨coerced, hcoerced⟩ hty
    · obtain ⟨coerced', hcoerced', henum⟩ := htakes p hp hfixed v hv
      rw [hcoerced] at hcoerced'
      obtain rfl := Except.ok.inj hcoerced'
      exact henum
  · rintro ⟨hrange, henum⟩
    refine ⟨fun p hp hreq hfixed _ => hrequired p hp hfixed hreq, fun p hp hfixed v hv => ?_⟩
    obtain ⟨coerced, hcoerced⟩ := (hcoerces p hp hfixed v hv).mpr fun hty => hrange p hp hfixed hty v hv
    exact ⟨coerced, hcoerced, henum p hp hfixed v coerced hv hcoerced⟩

end

/-- An object that satisfies the schema of the params is accepted. -/
def Agrees (params : List Param) (obj : Map) : Prop :=
  satisfies (input_schema params) (.object obj) = true →
    ∃ bound, bind_args params (.object obj) = .ok bound

/-- A param that the caller may set to a number. -/
def count_param (ty : ParamType) (enum_values : Option (List Value)) : Param where
  name := "count"
  location := .Query
  ty
  required := false
  default := none
  fixed := none
  enum_values
  description := none
  position := 0

theorem satisfies_single {p : Param} {v : Value} (h : satisfies (property_schema p) v = true) :
    satisfies (input_schema [p]) (.object [(p.name, v)]) = true := by
  have hdistinct : Distinct [p] := List.nodup_singleton _
  have hget : Map.get p.name [(p.name, v)] = some v := if_pos rfl
  rw [satisfies_input_schema_iff hdistinct]
  constructor
  · intro q hq _ w hw
    obtain rfl := List.mem_singleton.mp hq
    rw [hget] at hw
    rwa [← Option.some.inj hw]
  · intro q hq _ _
    obtain rfl := List.mem_singleton.mp hq
    rw [hget]
    rfl

theorem satisfies_count {ty : ParamType} {v : Value} (htype : has_type (json_schema_type_name ty) v = true)
    (hty : ty ≠ .StringArray) : satisfies (property_schema (count_param ty none)) v = true :=
  satisfies_property_iff.mpr ⟨htype, fun harray => absurd harray hty, fun allowed hallowed => by cases hallowed⟩

theorem accepts_satisfying_iff_count :
    ∃ bound, bind_args [count_param .Integer none] (.object [("count", .of_nat 3)]) = .ok bound := by
  have hdistinct : Distinct [count_param .Integer none] := List.nodup_singleton _
  have hschema : satisfies (input_schema [count_param .Integer none]) (.object [("count", .of_nat 3)]) = true :=
    satisfies_single (satisfies_count rfl (by decide))
  refine (accepts_satisfying_iff hdistinct hschema).mpr ⟨by simp [count_param], ?_, ?_⟩
  · intro p hp _ _ v hv bits n hbits
    obtain rfl := List.mem_singleton.mp hp
    obtain rfl := Option.some.inj hv
    cases hbits
  · intro p hp _ v coerced _ _ allowed hallowed
    obtain rfl := List.mem_singleton.mp hp
    cases hallowed

/-- The schema lets through a key that is no param's, the double `2 ^ 64` for an
integer, `1.0` for an enum of `1`, and what the last of two params of one name
asks for. -/
theorem input_schema_lets_through :
    ¬ Agrees [] [("extra", .null)] ∧
      ¬ Agrees [count_param .Integer none] [("count", .number (.Float 0x43f0000000000000))] ∧
      ¬ Agrees [count_param .Number (some [.of_nat 1])] [("count", .number (.Float 0x3ff0000000000000))] ∧
      ¬ Agrees [count_param .String none, count_param .Integer none] [("count", .of_nat 1)] := by
  refine ⟨fun h => ?_, fun h => ?_, fun h => ?_, fun h => ?_⟩
  · have hdistinct : Distinct [] := List.nodup_nil
    obtain ⟨bound, hbound⟩ := h ((satisfies_input_schema_iff hdistinct).mpr (by simp))
    cases hbound
  · have hwhole : Number.whole 0x43f0000000000000 = some (2 ^ 64) := by decide
    have htype : has_type "integer" (.number (.Float 0x43f0000000000000)) = true := by
      simp only [has_type, Number.integer, hwhole]
      rfl
    have hbind : bind_args [count_param .Integer none]
        (.object [("count", .number (.Float 0x43f0000000000000))]) =
          .error (.WrongType "count" "integer" "number") := rfl
    obtain ⟨bound, hbound⟩ := h (satisfies_single (satisfies_count htype (by decide)))
    rw [hbind] at hbound
    cases hbound
  · have hbind : bind_args [count_param .Number (some [.of_nat 1])]
        (.object [("count", .number (.Float 0x3ff0000000000000))]) = .error (.NotInEnum "count") := rfl
    have hvalue : (Number.Float 0x3ff0000000000000).value = (Number.PosInt (.ofNat 64 1)).value := by
      have hwhole : Number.whole 0x3ff0000000000000 = some 1 := by decide
      exact project.value_eq_of_integer hwhole (by decide)
    have hsame : same (.number (.Float 0x3ff0000000000000)) (.of_nat 1) = true := by
      rw [Value.of_nat, same]
      exact decide_eq_true hvalue
    have hproperty : satisfies (property_schema (count_param .Number (some [.of_nat 1])))
        (.number (.Float 0x3ff0000000000000)) = true := by
      refine satisfies_property_iff.mpr ⟨rfl, by rintro ⟨⟩, fun allowed hallowed => ?_⟩
      obtain rfl := Option.some.inj hallowed
      rw [List.any_cons, hsame, Bool.true_or]
    obtain ⟨bound, hbound⟩ := h (satisfies_single hproperty)
    rw [hbind] at hbound
    cases hbound
  · have hbind : bind_args [count_param .String none, count_param .Integer none]
        (.object [("count", .of_nat 1)]) = .error (.WrongType "count" "string" "number") := rfl
    have hproperty : satisfies (property_schema (count_param .Integer none)) (.of_nat 1) = true :=
      satisfies_count rfl (by decide)
    have hschema : input_schema [count_param .String none, count_param .Integer none] =
        input_schema [count_param .Integer none] := rfl
    obtain ⟨bound, hbound⟩ := h (by
      rw [hschema]
      exact satisfies_single hproperty)
    rw [hbind] at hbound
    cases hbound

end api2mcp.schema
