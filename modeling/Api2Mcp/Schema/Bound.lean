import Api2Mcp.Json.Schema
import Api2Mcp.Schema.Typed

namespace api2mcp.schema

open btree serde_json
open api2mcp.model

/-- The value of a param: the one that is fixed, else what the caller's is
coerced to, else the default. -/
def chosen (obj : Map) (p : Param) : Option Value :=
  match p.fixed, Map.get p.name obj with
  | some fixed, _ => some fixed
  | none, some value => (coerce p.ty value).toOption
  | none, none => p.default

/-- A param that its definer fixed takes whatever the caller sends. Any other
one takes a value that coerces to its type and to one of its enum, and is left
out only if it may be. -/
structure Takes (obj : Map) (p : Param) : Prop where
  present : p.required = true → p.fixed = none → p.default = none → (Map.get p.name obj).isSome
  coerces : p.fixed = none → ∀ v, Map.get p.name obj = some v →
    ∃ coerced, coerce p.ty v = .ok coerced ∧ InEnum p coerced

section

variable {obj : Map} {params : List Param} {p : Param} {bound : BTreeMap String Value}

theorem any_iff_inEnum {v : Value} :
    (p.enum_values.any fun allowed => !allowed.any v.eq) = true ↔ ¬ InEnum p v := by
  unfold InEnum
  cases p.enum_values with
  | none => simp
  | some allowed => simp

/-- What is bound of a param is what is chosen, if the param takes it. -/
theorem bound_value_iff {o : Option Value} :
    bound_value obj p = .ok o ↔ Takes obj p ∧ o = chosen obj p := by
  unfold bound_value chosen
  cases hfixed : p.fixed with
  | some fixed =>
    have htakes : Takes obj p :=
      ⟨fun _ hnone => by simp [hfixed] at hnone, fun hnone => by simp [hfixed] at hnone⟩
    rw [Except.ok.injEq, and_iff_right htakes, eq_comm]
  | none =>
    cases hget : Map.get p.name obj with
    | some value =>
      dsimp only
      cases hcoerce : coerce p.ty value with
      | error got =>
        refine iff_of_false (by simp) fun h => ?_
        obtain ⟨coerced, hok, -⟩ := h.1.coerces hfixed value hget
        rw [hcoerce] at hok
        cases hok
      | ok coerced =>
        dsimp only
        split
        · rename_i hrefused
          refine iff_of_false (by simp) fun h => ?_
          obtain ⟨coerced', hok, henum⟩ := h.1.coerces hfixed value hget
          rw [hcoerce] at hok
          obtain rfl := Except.ok.inj hok
          exact any_iff_inEnum.mp hrefused henum
        · rename_i hallowed
          have htakes : Takes obj p := by
            refine ⟨fun _ _ _ => by rw [hget]; rfl, fun _ v hv => ?_⟩
            rw [hget] at hv
            obtain rfl := Option.some.inj hv
            exact ⟨coerced, hcoerce, not_not.mp fun hout => hallowed (any_iff_inEnum.mpr hout)⟩
          rw [Except.ok.injEq, and_iff_right htakes, eq_comm]
          rfl
    | none =>
      dsimp only
      cases hdefault : p.default with
      | some default =>
        have htakes : Takes obj p :=
          ⟨fun _ _ hnone => by simp [hdefault] at hnone, fun _ v hv => by simp [hget] at hv⟩
        rw [Except.ok.injEq, and_iff_right htakes, eq_comm]
      | none =>
        dsimp only
        split
        · rename_i hrequired
          refine iff_of_false (by simp) fun h => ?_
          have hsome := h.1.present hrequired hfixed hdefault
          rw [hget] at hsome
          cases hsome
        · rename_i hoptional
          have htakes : Takes obj p :=
            ⟨fun hrequired => absurd hrequired hoptional, fun _ v hv => by simp [hget] at hv⟩
          rw [Except.ok.injEq, and_iff_right htakes, eq_comm]

/-- The params are bound, and then every key of the caller's is looked for. -/
theorem bind_args_eq_ok :
    bind_args params (.object obj) = .ok bound ↔
      params.foldlM (bind_param obj) [] = .ok bound ∧ ∀ field ∈ obj, ∃ p ∈ params, p.name = field.1 := by
  unfold bind_args
  dsimp only
  rw [except.bind_eq_ok]
  have hfind : (obj.find? fun field => !(params.map (·.name)).contains field.1) = none ↔
      ∀ field ∈ obj, ∃ p ∈ params, p.name = field.1 := by
    rw [List.find?_eq_none]
    simp
  constructor
  · rintro ⟨bound', hbound, h⟩
    split at h
    · cases h
    · rename_i hnone
      rw [← Except.ok.inj h]
      exact ⟨hbound, hfind.mp hnone⟩
  · rintro ⟨hbound, hknown⟩
    refine ⟨bound, hbound, ?_⟩
    rw [hfind.mpr hknown]

theorem bind_params_iff (hdistinct : Distinct params) :
    (∃ bound, params.foldlM (bind_param obj) [] = .ok bound) ↔ ∀ p ∈ params, Takes obj p := by
  constructor
  · rintro ⟨bound, hbound⟩ p hp
    have hvalue := (bind_params_get hdistinct (fun _ _ => rfl) hbound).1 p hp
    exact (bound_value_iff.mp hvalue).1
  · intro htakes
    exact bind_params_ok (fun p hp => ⟨_, bound_value_iff.mpr ⟨htakes p hp, rfl⟩⟩) []

/-- Under each param's name stands what is chosen for it, and nothing else is
bound. -/
theorem get_of_bind_args (hdistinct : Distinct params) (h : bind_args params (.object obj) = .ok bound) :
    (∀ p ∈ params, bound.get p.name = chosen obj p) ∧ ∀ name ∉ params.map (·.name), bound.get name = none := by
  obtain ⟨hvalues, hothers⟩ := bind_params_get hdistinct (fun _ _ => rfl) (bind_args_eq_ok.mp h).1
  exact ⟨fun p hp => (bound_value_iff.mp (hvalues p hp)).2, hothers⟩

theorem chosen_isSome (h : Takes obj p) :
    (chosen obj p).isSome ↔ p.fixed.isSome ∨ (Map.get p.name obj).isSome ∨ p.default.isSome := by
  unfold chosen
  cases hfixed : p.fixed with
  | some fixed => simp
  | none =>
    cases hget : Map.get p.name obj with
    | some value =>
      obtain ⟨coerced, hcoerce, -⟩ := h.coerces hfixed value hget
      simp [hcoerce, Except.toOption]
    | none => simp

/-- What stands under the name of a fixed param does not matter. -/
theorem takes_congr {obj' : Map} {q : Param} (hfixed : q.fixed.isSome)
    (hsame : ∀ k, k ≠ q.name → Map.get k obj' = Map.get k obj) (hp : p = q ∨ p.name ≠ q.name) :
    (Takes obj' p ↔ Takes obj p) ∧ chosen obj' p = chosen obj p := by
  obtain rfl | hne := hp
  · have hnone : p.fixed ≠ none := Option.isSome_iff_ne_none.mp hfixed
    have htakes : ∀ obj : Map, Takes obj p := fun obj =>
      ⟨fun _ h => absurd h hnone, fun h => absurd h hnone⟩
    refine ⟨iff_of_true (htakes obj') (htakes obj), ?_⟩
    unfold chosen
    cases hvalue : p.fixed with
    | some fixed => rfl
    | none => exact absurd hvalue hnone
  · have hget := hsame p.name hne
    constructor
    · constructor
      · rintro ⟨hpresent, hcoerces⟩
        rw [hget] at hpresent hcoerces
        exact ⟨hpresent, hcoerces⟩
      · rintro ⟨hpresent, hcoerces⟩
        rw [← hget] at hpresent hcoerces
        exact ⟨hpresent, hcoerces⟩
    · rw [chosen, chosen, hget]

/-- `bind_args` is `Ok` exactly for the objects that its params take, binds
what is chosen for each param, and binds the same whatever stands under the
name of a fixed one. -/
theorem bind_args_spec (hdistinct : Distinct params) (obj : Map) :
    ((∃ bound, bind_args params (.object obj) = .ok bound) ↔
      (∀ field ∈ obj, ∃ p ∈ params, p.name = field.1) ∧
      (∀ p ∈ params, p.required = true → p.fixed = none → p.default = none → (Map.get p.name obj).isSome) ∧
      ∀ p ∈ params, p.fixed = none → ∀ v, Map.get p.name obj = some v →
        ∃ coerced, coerce p.ty v = .ok coerced ∧ InEnum p coerced) ∧
    ∀ bound, bind_args params (.object obj) = .ok bound →
      (∀ p ∈ params, bound.get p.name = chosen obj p) ∧
      (∀ name, (bound.get name).isSome ↔ ∃ p ∈ params, p.name = name ∧
        (p.fixed.isSome ∨ (Map.get p.name obj).isSome ∨ p.default.isSome)) ∧
      ∀ p ∈ params, p.fixed.isSome → ∀ obj' : Map, (∀ k, k ≠ p.name → Map.get k obj' = Map.get k obj) →
        ∃ bound', bind_args params (.object obj') = .ok bound' ∧ ∀ name, bound'.get name = bound.get name := by
  have hok : ∀ obj : Map, (∃ bound, bind_args params (.object obj) = .ok bound) ↔
      (∀ field ∈ obj, ∃ p ∈ params, p.name = field.1) ∧ ∀ p ∈ params, Takes obj p := by
    intro obj
    simp only [bind_args_eq_ok, exists_and_right, bind_params_iff hdistinct]
    exact and_comm
  constructor
  · rw [hok]
    refine and_congr_right fun _ => ⟨fun h => ?_, fun h p hp => ⟨h.1 p hp, h.2 p hp⟩⟩
    exact ⟨fun p hp => (h p hp).present, fun p hp => (h p hp).coerces⟩
  intro bound hbound
  obtain ⟨hknown, htakes⟩ := (hok obj).mp ⟨bound, hbound⟩
  obtain ⟨hvalues, hothers⟩ := get_of_bind_args hdistinct hbound
  refine ⟨hvalues, fun name => ?_, fun q hq hfixed obj' hsame => ?_⟩
  · constructor
    · intro hsome
      have hname : name ∈ params.map (·.name) := by
        by_contra hnot
        rw [hothers name hnot] at hsome
        cases hsome
      obtain ⟨p, hp, rfl⟩ := List.mem_map.mp hname
      rw [hvalues p hp] at hsome
      exact ⟨p, hp, rfl, (chosen_isSome (htakes p hp)).mp hsome⟩
    · rintro ⟨p, hp, rfl, hgiven⟩
      rw [hvalues p hp]
      exact (chosen_isSome (htakes p hp)).mpr hgiven
  · have hown : ∀ p ∈ params, p = q ∨ p.name ≠ q.name := by
      intro p hp
      by_cases hname : p.name = q.name
      · exact .inl (List.inj_on_of_nodup_map hdistinct hp hq hname)
      · exact .inr hname
    have hknown' : ∀ field ∈ obj', ∃ p ∈ params, p.name = field.1 := by
      intro field hfield
      by_cases hname : field.1 = q.name
      · exact ⟨q, hq, hname.symm⟩
      · have hget := get_of_mem hfield
        rw [hsame _ hname] at hget
        obtain ⟨v, hv⟩ := Option.ne_none_iff_exists'.mp hget
        exact hknown (field.1, v) (Map.mem_of_get hv)
    obtain ⟨bound', hbound'⟩ := (hok obj').mpr
      ⟨hknown', fun p hp => (takes_congr hfixed hsame (hown p hp)).1.mpr (htakes p hp)⟩
    obtain ⟨hvalues', hothers'⟩ := get_of_bind_args hdistinct hbound'
    refine ⟨bound', hbound', fun name => ?_⟩
    by_cases hname : name ∈ params.map (·.name)
    · obtain ⟨p, hp, rfl⟩ := List.mem_map.mp hname
      rw [hvalues' p hp, hvalues p hp, (takes_congr hfixed hsame (hown p hp)).2]
    · rw [hothers' name hname, hothers name hname]

end

/-- A param whose value its definer fixed. -/
def tenant_param : Param := { search_param .null with name := "tenant", default := none, fixed := some (.string "acme") }

theorem bind_args_spec_tenant :
    ∃ bound, bind_args [search_param (.string "all"), tenant_param] (.object [("tenant", .null)]) = .ok bound ∧
      BTreeMap.get bound "tenant" = some (.string "acme") := by
  have hdistinct : Distinct [search_param (.string "all"), tenant_param] := by
    simp [Distinct, tenant_param, search_param]
  obtain ⟨hok, hbound⟩ := bind_args_spec hdistinct [("tenant", .null)]
  obtain ⟨bound, h⟩ := hok.mpr ⟨by simp [tenant_param, search_param],
    by simp [tenant_param, search_param], by simp [tenant_param, search_param, Map.get]⟩
  exact ⟨bound, h, (hbound bound h).1 tenant_param (by simp)⟩

end api2mcp.schema
