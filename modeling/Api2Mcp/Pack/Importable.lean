import Api2Mcp.Pack.Import

namespace api2mcp.pack

open relational btree concurrent except jsonptr
open api2mcp.model api2mcp.store api2mcp.entity

/-! What the conversions ask of the texts of a pack. -/

section

variable {pointer_error : String → String}

/-- The text is that of a slug. -/
def NamesSlug (s : String) : Prop := ∃ slug : Slug, slug.as_str = s

theorem parse_slug_ok_iff {s : String} : (∃ slug, parse_slug s = .ok slug) ↔ NamesSlug s := by
  constructor
  · rintro ⟨slug, hslug⟩
    exact ⟨slug, Slug.as_str_of_from_str (mapError_eq_ok.mp hslug)⟩
  · rintro ⟨slug, rfl⟩
    exact ⟨slug, mapError_eq_ok.mpr (Slug.from_str_as_str slug)⟩

/-- What a param keeps of the pack's. -/
theorem param_from_pack_eq {p : PackParam} {q : Param} (h : param_from_pack pointer_error p = .ok q) :
    q.name = p.name ∧ q.position = p.position ∧ q.fixed = p.fixed ∧ q.required = p.required ∧
      (q.location = .Local ↔ p.location = .Local) := by
  simp only [param_from_pack, bind_eq_ok, pure_eq_ok] at h
  obtain ⟨location, hlocation, ty, _, rfl⟩ := h
  refine ⟨rfl, rfl, rfl, rfl, ?_⟩
  dsimp only
  cases hp : p.location with
  | Body pointer =>
    rw [hp] at hlocation
    obtain ⟨read, _, rfl⟩ := map_eq_ok.mp hlocation
    simp
  | _ =>
    rw [hp] at hlocation
    obtain rfl := Except.ok.inj hlocation
    simp

theorem check_slug_nil_iff {category s : String} : check_slug category s = [] ↔ NamesSlug s := by
  rw [← parse_slug_ok_iff]
  unfold check_slug
  cases parse_slug s with
  | ok slug => simp
  | error e => simp

theorem ite_nil_iff {α : Type} {c : Prop} [Decidable c] {a : α} : (if c then [] else [a]) = [] ↔ c := by
  split <;> simp [*]

theorem nil_ite_iff {α : Type} {c : Prop} [Decidable c] {a : α} : (if c then [a] else []) = [] ↔ ¬ c := by
  split <;> simp [*]

theorem method_from_str_eq_ok {s : String} {method : net.Method} :
    method_from_str s = .ok method ↔ net.Method.from_bytes s = some method := by
  unfold method_from_str
  cases net.Method.from_bytes s with
  | none => simp
  | some m => simp

section

variable {url : net.UrlCrate} {p : Pack} {owner_id : Uuid}

def alias_item (kv : String × PackEndpointTarget) : Except ConvertError (String × EndpointTarget) :=
  return (kv.1, ← endpoint_target_from_pack kv.2)

/-- The owner has no definitions in the rows. -/
def Undefined (rows : Rows) (owner_id : Uuid) : Prop := ∀ x, Holds rows x → x.key.owner_id ≠ owner_id

theorem Undefined.unmoved {rows : Rows} (hnone : Undefined rows owner_id) (hintact : Intact rows) {d : Definition}
    (howner : d.key.owner_id = owner_id) : d.Unmoved rows := by
  cases d with
  | api_call t =>
    intro c hc hcowner _
    obtain ⟨x, hx, hkey⟩ := (has_api_call_iff hintact).mpr ⟨c, hc, rfl, rfl⟩
    refine absurd ?_ (hnone x hx)
    rw [hkey]
    exact hcowner.trans howner
  | _ => trivial

variable {json : serde_json.JsonCrate} {keys : NewKeys} {rows : Rows}

end

end

theorem undefined_empty (owner_id : Uuid) : Undefined {} owner_id := by
  intro x hx
  cases x with
  | _ =>
    obtain ⟨row, hrow, _⟩ := hx
    exact absurd hrow List.not_mem_nil

end api2mcp.pack
