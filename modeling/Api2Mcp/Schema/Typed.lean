import Api2Mcp.Http.Bind
import Api2Mcp.Pack.Validate
import Api2Mcp.Schema.Validate
import Api2Mcp.Store.Definitions

namespace api2mcp.schema

open btree serde_json
open api2mcp.http api2mcp.model

/-- A value of a param's type, as `coerce` leaves one. -/
def OfType : ParamType → Value → Prop
  | .String, .string _ => True
  | .Integer, .number (.PosInt _) => True
  | .Integer, .number (.NegInt _) => True
  | .Number, .number _ => True
  | .Boolean, .bool _ => True
  | .StringArray, .array items => items.all is_string = true
  | _, _ => False

def InEnum (p : Param) (v : Value) : Prop := ∀ allowed ∈ p.enum_values, allowed.any v.eq = true

/-- What a param's declaration asks of its value. -/
def Admits (p : Param) (v : Value) : Prop := OfType p.ty v ∧ InEnum p v

/-- The value that the definer gave a param, for every call or for a call that
leaves it out. -/
def given (p : Param) : Option Value := p.fixed.or p.default

/-- The caller's value is the one that is bound. -/
def Supplied (args : Value) (p : Param) : Prop := p.fixed = none ∧ (args.get p.name).isSome

/-- The params of a stored definition have names of their own. -/
def Distinct (params : List Param) : Prop := (params.map (·.name)).Nodup

/-- Every value that is bound is one that its param asks for, and none that the
definer gave is of a shape that the param's place cannot carry. -/
def BindsTyped (values : ValueCrate) (params : List Param) : Prop :=
  ∀ args bound, bind_args params args = .ok bound → ∀ name v, BTreeMap.get bound name = some v →
    ∃ p ∈ params, p.name = name ∧ Admits p v ∧ (¬ Supplied args p →
      ∀ parts name shape, bind_one values p v parts ≠ .error (.UnsupportedValueShape name shape))

/-- Some argument object gets past the param. -/
def Answerable (p : Param) : Prop := (given p).isSome ∨ p.required = false ∨ ∃ v, Admits p v

/-- A place that holds one string takes no array. -/
def SlotTakes (p : Param) : Prop :=
  p.location = .Path ∨ (p.location = .Header ∧ is_header_param_name_allowed p.name = true) → p.ty ≠ .StringArray

theorem coerce_integer_ofType {value coerced : Value} (h : coerce_integer value = .ok coerced) :
    OfType .Integer coerced := by
  have hof : ∀ n : Int, OfType .Integer (.number (.of_i64 n)) := by
    intro n
    unfold Number.of_i64
    split <;> trivial
  unfold coerce_integer at h
  split at h
  · split at h
    · split at h
      · obtain rfl := Except.ok.inj h
        exact hof _
      · cases h
    · cases h
  · rename_i n hfloat
    obtain rfl := Except.ok.inj h
    cases n with
    | Float bits => exact absurd rfl (hfloat bits)
    | PosInt n => trivial
    | NegInt n => trivial
  · split at h
    · obtain rfl := Except.ok.inj h
      exact hof _
    · cases h
  · cases h

theorem coerce_ofType {ty : ParamType} {value coerced : Value} (h : coerce ty value = .ok coerced) :
    OfType ty coerced := by
  cases ty with
  | Integer =>
    have hinteger : coerce_integer value = .ok coerced := by
      cases value <;> exact h
    exact coerce_integer_ofType hinteger
  | StringArray =>
    cases value with
    | array items =>
      unfold coerce at h
      dsimp only at h
      split at h
      · rename_i hall
        obtain rfl := Except.ok.inj h
        exact hall
      · cases h
    | _ => cases h
  | String =>
    cases value with
    | string s =>
      obtain rfl := Except.ok.inj h
      trivial
    | _ => cases h
  | Number =>
    cases value with
    | number n =>
      obtain rfl := Except.ok.inj h
      trivial
    | _ => cases h
  | Boolean =>
    cases value with
    | bool b =>
      obtain rfl := Except.ok.inj h
      trivial
    | _ => cases h

theorem coerce_of_ofType {ty : ParamType} {v : Value} (h : OfType ty v) : coerce ty v = .ok v := by
  cases ty with
  | Integer =>
    cases v with
    | number n =>
      cases n with
      | Float bits => exact h.elim
      | PosInt n => rfl
      | NegInt n => rfl
    | _ => exact h.elim
  | StringArray =>
    cases v with
    | array items => exact if_pos h
    | _ => exact h.elim
  | String =>
    cases v with
    | string s => rfl
    | _ => exact h.elim
  | Number =>
    cases v with
    | number n => rfl
    | _ => exact h.elim
  | Boolean =>
    cases v with
    | bool b => rfl
    | _ => exact h.elim

/-- What is bound of one param. -/
def bound_value (obj : Map) (p : Param) : Except ValidationError (Option Value) :=
  match p.fixed with
  | some fixed => .ok (some fixed)
  | none =>
    match Map.get p.name obj with
    | some value =>
      match coerce p.ty value with
      | .error got => .error (.WrongType p.name (json_schema_type_name p.ty) got)
      | .ok coerced =>
        if p.enum_values.any fun allowed => !allowed.any coerced.eq then .error (.NotInEnum p.name)
        else .ok (some coerced)
    | none =>
      match p.default with
      | some default => .ok (some default)
      | none => if p.required then .error (.MissingRequired p.name) else .ok none

def put (name : String) (bound : BTreeMap String Value) : Option Value → BTreeMap String Value
  | some v => bound.insert name v
  | none => bound

theorem bind_param_eq (obj : Map) (bound : BTreeMap String Value) (p : Param) :
    bind_param obj bound p = (bound_value obj p).map (put p.name bound) := by
  unfold bind_param bound_value
  cases p.fixed with
  | some fixed => rfl
  | none =>
    cases Map.get p.name obj with
    | some value =>
      dsimp only
      cases coerce p.ty value with
      | error got => rfl
      | ok coerced =>
        dsimp only
        split <;> rfl
    | none =>
      cases p.default with
      | some default => rfl
      | none =>
        dsimp only
        split <;> rfl

theorem get_put (name k : String) (bound : BTreeMap String Value) (o : Option Value) :
    BTreeMap.get (put name bound o) k = if k = name then o.or (bound.get k) else bound.get k := by
  cases o with
  | none =>
    rw [put, Option.none_or, ite_self]
  | some v =>
    rw [put, BTreeMap.get_insert]
    split <;> rfl

section

variable {obj : Map} {params : List Param} {p : Param}

/-- The loop of `bind_args` binds each param's own value. -/
theorem bind_params_get {before bound : BTreeMap String Value} (hdistinct : Distinct params)
    (hfresh : ∀ p ∈ params, before.get p.name = none) (h : params.foldlM (bind_param obj) before = .ok bound) :
    (∀ p ∈ params, bound_value obj p = .ok (bound.get p.name)) ∧
      ∀ name ∉ params.map (·.name), bound.get name = before.get name := by
  induction params generalizing before with
  | nil =>
    obtain rfl := Except.ok.inj h
    exact ⟨fun p hp => (List.not_mem_nil hp).elim, fun _ _ => rfl⟩
  | cons p params ih =>
    obtain ⟨hfirst, hrest⟩ := List.nodup_cons.mp hdistinct
    obtain ⟨hp, hparams⟩ := List.forall_mem_cons.mp hfresh
    rw [List.foldlM_cons, bind_param_eq] at h
    cases hvalue : bound_value obj p with
    | error e =>
      rw [hvalue] at h
      cases h
    | ok o =>
      rw [hvalue] at h
      have hmid : ∀ q ∈ params, BTreeMap.get (put p.name before o) q.name = none := by
        intro q hq
        have hne : q.name ≠ p.name := fun heq => hfirst (List.mem_map.mpr ⟨q, hq, heq⟩)
        rw [get_put, if_neg hne]
        exact hparams q hq
      obtain ⟨hvalues, hothers⟩ := ih hrest hmid h
      refine ⟨List.forall_mem_cons.mpr ⟨?_, hvalues⟩, fun name hname => ?_⟩
      · rw [hvalue, hothers _ hfirst, get_put, if_pos rfl, hp, Option.or_none]
      · rw [List.map_cons, List.mem_cons, not_or] at hname
        rw [hothers _ hname.2, get_put, if_neg hname.1]

theorem bind_params_ok (h : ∀ p ∈ params, ∃ o, bound_value obj p = .ok o) (before : BTreeMap String Value) :
    ∃ bound, params.foldlM (bind_param obj) before = .ok bound := by
  induction params generalizing before with
  | nil => exact ⟨before, rfl⟩
  | cons p params ih =>
    obtain ⟨⟨o, ho⟩, hparams⟩ := List.forall_mem_cons.mp h
    obtain ⟨bound, hbound⟩ := ih hparams (put p.name before o)
    refine ⟨bound, ?_⟩
    rw [List.foldlM_cons, bind_param_eq, ho]
    exact hbound

/-- A param whose value is bound asks for it, if the definer's own value is one
it asks for. -/
theorem bound_value_admits {v : Value} (h : bound_value obj p = .ok (some v)) :
    given p = some v ∧ ¬ Supplied (.object obj) p ∨ Admits p v ∧ Supplied (.object obj) p := by
  unfold bound_value at h
  cases hfixed : p.fixed with
  | some fixed =>
    rw [hfixed] at h
    refine .inl ⟨?_, fun hsupplied => ?_⟩
    · rw [given, hfixed, Option.some_or]
      exact Except.ok.inj h
    · have hnone := hsupplied.1
      rw [hfixed] at hnone
      cases hnone
  | none =>
    rw [hfixed] at h
    cases hget : Map.get p.name obj with
    | some value =>
      rw [hget] at h
      dsimp only at h
      cases hcoerce : coerce p.ty value with
      | error got =>
        rw [hcoerce] at h
        cases h
      | ok coerced =>
        rw [hcoerce] at h
        dsimp only at h
        split at h
        · cases h
        · rename_i hallowed
          obtain rfl := Option.some.inj (Except.ok.inj h)
          refine .inr ⟨⟨coerce_ofType hcoerce, fun allowed hmem => ?_⟩, hfixed, ?_⟩
          · rw [Option.mem_def.mp hmem] at hallowed
            simpa using hallowed
          · rw [Value.get, hget, Option.isSome_some]
    | none =>
      rw [hget] at h
      dsimp only at h
      refine .inl ⟨?_, fun hsupplied => ?_⟩
      · rw [given, hfixed, Option.none_or]
        cases hdefault : p.default with
        | some default =>
          rw [hdefault] at h
          exact Except.ok.inj h
        | none =>
          rw [hdefault] at h
          dsimp only at h
          split at h
          · cases h
          · cases h
      · have hsome := hsupplied.2
        rw [Value.get, hget] at hsome
        cases hsome

theorem bound_value_given {v : Value} (hgiven : given p = some v) (hget : Map.get p.name obj = none) :
    bound_value obj p = .ok (some v) := by
  unfold bound_value
  unfold given at hgiven
  cases hfixed : p.fixed with
  | some fixed =>
    rw [hfixed, Option.some_or] at hgiven
    obtain rfl := Option.some.inj hgiven
    rfl
  | none =>
    rw [hfixed, Option.none_or] at hgiven
    rw [hget, hgiven]

theorem answerable_of_ok {o : Option Value} (h : bound_value obj p = .ok o) : Answerable p := by
  cases o with
  | some v =>
    obtain ⟨hgiven, -⟩ | ⟨hadmits, -⟩ := bound_value_admits h
    · exact .inl (by rw [hgiven]; rfl)
    · exact .inr (.inr ⟨v, hadmits⟩)
  | none =>
    refine .inr (.inl ?_)
    unfold bound_value at h
    split at h
    · cases h
    split at h
    · split at h
      · cases h
      · split at h
        · cases h
        · cases h
    · split at h
      · cases h
      · split at h
        · cases h
        · rename_i hrequired
          exact Bool.eq_false_iff.mpr hrequired

theorem bound_value_supplied {v : Value} (hfixed : p.fixed = none) (hadmits : Admits p v)
    (hget : Map.get p.name obj = some v) : bound_value obj p = .ok (some v) := by
  have hallowed : ¬ (p.enum_values.any fun allowed => !allowed.any v.eq) = true := by
    intro hany
    obtain ⟨allowed, hmem, hnot⟩ := Option.any_eq_true _ _ |>.mp hany
    rw [hadmits.2 allowed hmem] at hnot
    cases hnot
  unfold bound_value
  rw [hfixed, hget]
  dsimp only
  rw [coerce_of_ofType hadmits.1]
  dsimp only
  rw [if_neg hallowed]

theorem fixed_of_given (h : given p = none) : p.fixed = none := (Option.or_eq_none_iff.mp h).1

theorem bound_value_left (hgiven : given p = none) (hoptional : p.required = false)
    (hget : Map.get p.name obj = none) : bound_value obj p = .ok none := by
  obtain ⟨hfixed, hdefault⟩ := Option.or_eq_none_iff.mp hgiven
  unfold bound_value
  rw [hfixed, hget, hdefault, hoptional]
  rfl

/-- Only what stands under a param's name matters to it. -/
theorem bound_value_congr {obj' : Map} (h : Map.get p.name obj = Map.get p.name obj') :
    bound_value obj p = bound_value obj' p := by
  unfold bound_value
  rw [h]

theorem get_of_mem {field : String × Value} (h : field ∈ obj) : Map.get field.1 obj ≠ none := by
  induction obj with
  | nil => cases h
  | cons head obj ih =>
    obtain ⟨k, v⟩ := head
    unfold Map.get
    split
    · exact Option.some_ne_none v
    · rename_i hne
      obtain rfl | hrest := List.mem_cons.mp h
      · exact absurd rfl hne
      · exact ih hrest

/-- Where each param is answerable, an argument object that leaves out all that
may be left out is accepted. -/
theorem exists_args (hdistinct : Distinct params) (h : ∀ p ∈ params, Answerable p) :
    ∃ obj : Map, (∀ name ∉ params.map (·.name), Map.get name obj = none) ∧
      ∀ p ∈ params, ((given p).isSome → Map.get p.name obj = none) ∧ ∃ o, bound_value obj p = .ok o := by
  induction params with
  | nil => exact ⟨[], fun _ _ => rfl, fun p hp => (List.not_mem_nil hp).elim⟩
  | cons p params ih =>
    obtain ⟨hfirst, hrest⟩ := List.nodup_cons.mp hdistinct
    obtain ⟨hp, hparams⟩ := List.forall_mem_cons.mp h
    obtain ⟨obj, hothers, hobj⟩ := ih hrest hparams
    have hnone := hothers p.name hfirst
    have hleft : (given p).isSome ∨ p.required = false → ∃ o, bound_value obj p = .ok o := by
      intro hleave
      cases hgiven : given p with
      | some v => exact ⟨some v, bound_value_given hgiven hnone⟩
      | none =>
        obtain hsome | hoptional := hleave
        · rw [hgiven] at hsome
          cases hsome
        · exact ⟨none, bound_value_left hgiven hoptional hnone⟩
    by_cases hleave : (given p).isSome ∨ p.required = false
    · refine ⟨obj, fun name hname => hothers name fun hmem => hname (List.mem_cons_of_mem _ hmem), ?_⟩
      exact List.forall_mem_cons.mpr ⟨⟨fun _ => hnone, hleft hleave⟩, hobj⟩
    · rw [not_or] at hleave
      obtain hsome | hoptional | ⟨v, hadmits⟩ := hp
      · exact absurd hsome hleave.1
      · exact absurd hoptional hleave.2
      have hget : ∀ name, Map.get name (Map.insert p.name v obj) = if name = p.name then some v else Map.get name obj :=
        fun name => Map.get_insert p.name name v obj
      refine ⟨Map.insert p.name v obj, fun name hname => ?_, List.forall_mem_cons.mpr ⟨⟨?_, ?_⟩, fun q hq => ?_⟩⟩
      · rw [List.map_cons, List.mem_cons, not_or] at hname
        rw [hget, if_neg hname.1]
        exact hothers name hname.2
      · exact fun hsome => absurd hsome hleave.1
      · exact ⟨some v, bound_value_supplied (fixed_of_given (Option.not_isSome_iff_eq_none.mp hleave.1)) hadmits
          (by rw [hget, if_pos rfl])⟩
      · have hne : q.name ≠ p.name := fun heq => hfirst (List.mem_map.mpr ⟨q, hq, heq⟩)
        have hsame : Map.get q.name (Map.insert p.name v obj) = Map.get q.name obj := by rw [hget, if_neg hne]
        obtain ⟨hnone, hbound⟩ := hobj q hq
        rw [hsame, bound_value_congr hsame]
        exact ⟨hnone, hbound⟩

theorem params_of_bind_args {args : Value} {bound : BTreeMap String Value} (h : bind_args params args = .ok bound) :
    ∃ obj, args = .object obj ∧ params.foldlM (bind_param obj) [] = .ok bound := by
  unfold bind_args at h
  split at h
  · rename_i obj
    obtain ⟨bound', hbound, h⟩ := except.bind_eq_ok.mp h
    split at h
    · cases h
    · exact ⟨obj, rfl, by rw [hbound, Except.ok.inj h]⟩
  · cases h

/-- A value that is no array has one string. -/
theorem scalar_string_ok (values : ValueCrate) (name : String) {ty : ParamType} {v : Value} (h : OfType ty v)
    (hty : ty ≠ .StringArray) : ∃ s, scalar_string values name v = .ok s := by
  cases v with
  | string s => exact ⟨s, rfl⟩
  | number n => exact ⟨_, rfl⟩
  | bool b => exact ⟨_, rfl⟩
  | _ => cases ty <;> first | exact h.elim | exact absurd rfl hty

theorem query_strings_ok (values : ValueCrate) (name : String) {ty : ParamType} {v : Value} (h : OfType ty v) :
    ∃ strings, query_strings values name v = .ok strings := by
  by_cases hty : ty = .StringArray
  · subst hty
    cases v with
    | array items =>
      have hall : items.all is_string = true := h
      have hstrings : ∃ strings, items.mapM (scalar_string values name) = .ok strings := by
        clear h
        induction items with
        | nil => exact ⟨[], rfl⟩
        | cons item items ih =>
          rw [List.all_cons, Bool.and_eq_true] at hall
          obtain ⟨strings, hstrings⟩ := ih hall.2
          cases item with
          | string s => exact ⟨s :: strings, by rw [List.mapM_cons, hstrings]; rfl⟩
          | _ => exact absurd hall.1 Bool.false_ne_true
      exact hstrings
    | _ => exact h.elim
  · obtain ⟨s, hs⟩ := scalar_string_ok values name h hty
    refine ⟨[s], ?_⟩
    unfold query_strings
    split
    · cases hs
    · rw [hs]
      rfl

/-- A value of a param's type is of a shape that its place cannot carry exactly
when the place takes no array and the type is one. -/
theorem bind_one_shape_iff (values : ValueCrate) {v : Value} (h : OfType p.ty v) :
    (∀ parts name shape, bind_one values p v parts ≠ .error (.UnsupportedValueShape name shape)) ↔ SlotTakes p := by
  have harray : p.ty = .StringArray → scalar_string values p.name v = .error (shape_error p.name "array") := by
    intro hty
    rw [hty] at h
    cases v with
    | array items => rfl
    | _ => exact h.elim
  unfold bind_one SlotTakes
  cases hlocation : p.location with
  | Path =>
    refine ⟨fun hnever _ hty => ?_, fun hslot parts name shape => ?_⟩
    · refine hnever ⟨[], [], [], none⟩ p.name "array" ?_
      dsimp only
      rw [harray hty]
      rfl
    · obtain ⟨s, hs⟩ := scalar_string_ok values p.name h (hslot (.inl rfl))
      dsimp only
      rw [hs]
      nofun
  | Query =>
    refine iff_of_true (fun parts name shape => ?_) (by simp)
    obtain ⟨strings, hstrings⟩ := query_strings_ok values p.name h
    dsimp only
    rw [hstrings]
    nofun
  | Header =>
    dsimp only
    cases hallowed : is_header_param_name_allowed p.name with
    | false => exact iff_of_true (fun parts name shape => nofun) (by simp)
    | true =>
      refine ⟨fun hnever _ hty => ?_, fun hslot parts name shape => ?_⟩
      · refine hnever ⟨[], [], [], none⟩ p.name "array" ?_
        rw [harray hty]
        rfl
      · obtain ⟨s, hs⟩ := scalar_string_ok values p.name h (hslot (.inr ⟨rfl, rfl⟩))
        rw [hs]
        simp only [Bind.bind, Except.bind, Bool.not_true, Bool.false_eq_true, if_false, pure, Except.pure]
        split
        · nofun
        · nofun
  | Body pointer =>
    refine iff_of_true (fun parts name shape => ?_) (by simp)
    unfold assign_body
    dsimp only
    cases values.assign pointer (parts.body.getD (.object [])) v <;> nofun
  | Local => exact iff_of_true (fun parts name shape => nofun) (by simp)

end

/-- What is bound is of the declared types, and none of the definer's values is of
a shape its place cannot carry, exactly when every fixed value, and the default
of every other param, is of the declared type, one of the enumerated values and no
array for a place that takes one string; or no arguments are accepted at all. -/
theorem binds_typed_iff (values : ValueCrate) {params : List Param} (hdistinct : Distinct params) :
    BindsTyped values params ↔
      ((∀ p ∈ params, Answerable p) → ∀ p ∈ params, ∀ v ∈ given p, Admits p v ∧ SlotTakes p) := by
  constructor
  · intro htyped hanswerable p hp v hv
    obtain ⟨obj, hothers, hobj⟩ := exists_args hdistinct hanswerable
    obtain ⟨bound, hbound⟩ := bind_params_ok (fun q hq => (hobj q hq).2) []
    have hknown : obj.find? (fun field => !(params.map (·.name)).contains field.1) = none := by
      refine List.find?_eq_none.mpr fun field hfield hunknown => get_of_mem hfield (hothers field.1 ?_)
      simpa using hunknown
    have hargs : bind_args params (.object obj) = .ok bound := by
      unfold bind_args
      exact except.bind_eq_ok.mpr ⟨bound, hbound, by rw [hknown]⟩
    obtain ⟨hvalues, -⟩ := bind_params_get hdistinct (fun _ _ => rfl) hbound
    have hget := (hobj p hp).1 (by rw [Option.mem_def.mp hv]; rfl)
    have hvalue := (hvalues p hp).symm.trans (bound_value_given hv hget)
    obtain ⟨q, hq, hname, hadmits, hshape⟩ := htyped _ bound hargs p.name v (Except.ok.inj hvalue)
    obtain rfl : q = p := List.inj_on_of_nodup_map hdistinct hq hp hname
    have hsupplied : ¬ Supplied (.object obj) q := by
      rintro ⟨-, hsome⟩
      rw [Value.get, hget] at hsome
      cases hsome
    exact ⟨hadmits, (bind_one_shape_iff values hadmits.1).mp (hshape hsupplied)⟩
  · intro hgood args bound hargs name v hv
    obtain ⟨obj, rfl, hbound⟩ := params_of_bind_args hargs
    obtain ⟨hvalues, hothers⟩ := bind_params_get hdistinct (fun _ _ => rfl) hbound
    have hanswerable : ∀ p ∈ params, Answerable p := fun p hp => answerable_of_ok (hvalues p hp)
    obtain ⟨p, hp, rfl⟩ : ∃ p ∈ params, p.name = name := by
      by_contra hnone
      have hget := hothers name fun hmem => hnone (List.mem_map.mp hmem)
      rw [hv] at hget
      cases hget
    have hvalue := hvalues p hp
    rw [hv] at hvalue
    refine ⟨p, hp, rfl, ?_⟩
    obtain ⟨hgiven, -⟩ | ⟨hadmits, hsupplied⟩ := bound_value_admits hvalue
    · obtain ⟨hadmits, hslot⟩ := hgood hanswerable p hp v hgiven
      exact ⟨hadmits, fun _ => (bind_one_shape_iff values hadmits.1).mpr hslot⟩
    · exact ⟨hadmits, fun hnot => absurd hsupplied hnot⟩

/-- Rows that are ordered by a column have names of their own where an index keeps
them apart. -/
theorem distinct_of_rows {ρ : Type} (rows : List ρ) (r : ρ → ρ → Prop) [DecidableRel r] (param : ρ → Param)
    (h : rows.Pairwise fun a b => (param a).name ≠ (param b).name) :
    Distinct ((rows.insertionSort r).map param) := by
  unfold Distinct
  rw [List.map_map, (List.Perm.map _ (List.perm_insertionSort r rows)).nodup_iff]
  exact List.pairwise_map.mpr h

/-- The params of a stored api_call or script are distinct. -/
theorem stored_distinct (rows : entity.Rows) (id : Uuid) :
    Distinct (((rows.api_call_params.select fun r => r.api_call_id = id).insertionSort
        fun a b => a.position ≤ b.position).map store.api_call.param_to_model) ∧
      Distinct (((rows.script_params.select fun r => r.script_id = id).insertionSort
        fun a b => a.position ≤ b.position).map store.script.param_to_model) := by
  constructor
  · refine distinct_of_rows _ _ _ ?_
    have hunique := rows.api_call_params.unique.sublist (List.filter_sublist (p := fun r => decide (r.api_call_id = id)))
    refine hunique.imp_of_mem fun {a b} ha hb hclash hname => ?_
    have hids : a.api_call_id = b.api_call_id :=
      (of_decide_eq_true (List.mem_filter.mp ha).2).trans (of_decide_eq_true (List.mem_filter.mp hb).2).symm
    have hnames : a.name = b.name := hname
    simp [entity.api_call_params.indexes, relational.Indexes.or, relational.Indexes.on, hids, hnames] at hclash
  · refine distinct_of_rows _ _ _ ?_
    have hunique := rows.script_params.unique.sublist (List.filter_sublist (p := fun r => decide (r.script_id = id)))
    refine hunique.imp_of_mem fun {a b} ha hb hclash hname => ?_
    have hids : a.script_id = b.script_id :=
      (of_decide_eq_true (List.mem_filter.mp ha).2).trans (of_decide_eq_true (List.mem_filter.mp hb).2).symm
    have hnames : a.name = b.name := hname
    simp [entity.script_params.indexes, relational.Indexes.or, relational.Indexes.on, hids, hnames] at hclash

/-- An api_call with one query param that the caller may leave out. -/
def searched (default_value : Value) : pack.PackApiCall where
  service := "crm"
  method := "GET"
  path_template := "/search"
  query_fixed := []
  body_template := none
  access := "read"
  idempotent := true
  projection := none
  pagination := .None
  timeout_ms := none
  max_response_bytes := none
  params := [{ name := "q", location := .Query, ty := "string", required := false, default := some default_value
               fixed := none, enum_values := none, description := none, position := 0 }]
  tags := []
  description := none

def searched_pack : pack.Pack where
  version := 1
  services := [("crm", { base_url := "https://crm.example/", origin_allowlist := ["https://crm.example"]
                         default_headers := [], timeout_ms := 1000, max_concurrency := 4
                         rate_limit_per_min := none, max_response_bytes := 1000 })]
  api_calls := []
  scripts := []
  endpoints := []
  tags := []

def search_param (default_value : Value) : Param where
  name := "q"
  location := .Query
  ty := .String
  required := false
  default := some default_value
  fixed := none
  enum_values := none
  description := none
  position := 0

/-- A default of the param's type is bound as one. -/
theorem string_default_typed : BindsTyped default [search_param (.string "all")] := by
  have hdistinct : Distinct [search_param (.string "all")] := List.nodup_singleton _
  refine (binds_typed_iff default hdistinct).mpr fun _ p hp v hv => ?_
  obtain rfl := List.mem_singleton.mp hp
  obtain rfl := Option.some.inj hv
  exact ⟨⟨trivial, fun allowed hallowed => nomatch hallowed⟩, by simp [SlotTakes, search_param]⟩

/-- An object is admitted as the default of a string, and bound. -/
theorem object_default_untyped :
    ¬ ∀ (json : JsonCrate) (pointer_error : String → String) (values : ValueCrate) (document : pack.Pack)
      (slug : String) (c : pack.PackApiCall) (call : ApiCall), pack.validate_api_call json document slug c = [] →
        pack.api_call_from_pack pointer_error 1 entity.sample.crm entity.sample.crm c = .ok call →
          BindsTyped values call.params := by
  intro h
  have hvalid : ∀ json : JsonCrate, pack.validate_api_call json searched_pack "search" (searched (.object [])) = [] :=
    fun _ => rfl
  have htyped := h ⟨fun _ => "", fun _ => .error "", fun _ => .error ""⟩ id default searched_pack "search" _ _
    (hvalid _) rfl
  obtain ⟨p, hp, -, ⟨htype, -⟩, -⟩ := htyped (.object []) [("q", .object [])] rfl "q" (.object []) rfl
  obtain rfl := List.mem_singleton.mp hp
  exact htype

end api2mcp.schema
