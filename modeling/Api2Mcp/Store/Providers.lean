import Api2Mcp.Store.Footprint
import Api2Mcp.Store.Definitions

namespace api2mcp.store.auth_provider

open relational btree concurrent except
open api2mcp.model api2mcp.entity

def list_for_service (owner_id : Uuid) (service_slug : Slug) : Fetch (List AuthProvider) := do
  let service_id ← service.id_by_slug owner_id service_slug
  let rows ← select fun rows => order_by_slug auth_providers.Model.slug
    (rows.auth_providers.select fun r => r.owner_id = owner_id && r.service_id = service_id)
  return rows.map (to_model · service_slug)

def list_all (owner_id : Uuid) : Fetch (List AuthProvider) := do
  let services ← service.list owner_id
  let lists ← services.mapM fun svc => list_for_service owner_id svc.slug
  return lists.flatten

/-- The credential of the provider an owner knows by this slug. -/
def credentialOf (owner_id : Uuid) (slug : Slug) (rows : Rows) : Option CredentialSource :=
  (rows.auth_providers.find fun r => r.owner_id = owner_id && r.slug = slug).map (·.credential)

theorem credentialOf_eq_some {owner_id : Uuid} {slug : Slug} {rows : Rows} {row : auth_providers.Model}
    (hrow : row ∈ rows.auth_providers.rows) (howner : row.owner_id = owner_id) (hslug : row.slug = slug) :
    credentialOf owner_id slug rows = some row.credential := by
  have hfind : (rows.auth_providers.find fun r => r.owner_id = owner_id && r.slug = slug) = some row := by
    refine Table.find_of_mem hrow (by simp [howner, hslug]) fun a _ ha => ?_
    simp only [Bool.and_eq_true, decide_eq_true_eq] at ha
    simp [auth_providers.indexes, Indexes.or, Indexes.on, ha, howner, hslug]
  rw [credentialOf, hfind, Option.map_some]

/-- What is listed was read from a row some `SELECT` saw. -/
theorem list_all_sees {P : Rows → Prop} {owner_id : Uuid} {all : List AuthProvider}
    (hyields : Query.Yields P (list_all owner_id) all) {provider : AuthProvider} (hmem : provider ∈ all) :
    ∃ rows, P rows ∧ credentialOf owner_id provider.slug rows = some provider.credential := by
  rw [list_all, Query.yields_bind] at hyields
  obtain ⟨services, _, hyields⟩ := hyields
  rw [Query.yields_bind] at hyields
  obtain ⟨lists, hlists, hdone⟩ := hyields
  obtain rfl := Query.yields_pure.mp hdone
  obtain ⟨list, hlist, hmem⟩ := List.mem_flatten.mp hmem
  obtain ⟨svc, _, hservice⟩ := hlists.mem_mapM hlist
  rw [list_for_service, Query.yields_bind] at hservice
  obtain ⟨service_id, _, hservice⟩ := hservice
  rw [Query.yields_bind] at hservice
  obtain ⟨found, hfound, hdone⟩ := hservice
  obtain rfl := Query.yields_pure.mp hdone
  rw [select, Query.yields_select] at hfound
  obtain ⟨rows, hrows, rfl⟩ := hfound
  obtain ⟨row, hrow, rfl⟩ := List.mem_map.mp hmem
  have hselected := (List.perm_insertionSort _ _).mem_iff.mp hrow
  obtain ⟨hrow, hmatch⟩ := Table.mem_select.mp hselected
  simp only [Bool.and_eq_true, decide_eq_true_eq] at hmatch
  exact ⟨rows, hrows, credentialOf_eq_some hrow hmatch.1 rfl⟩

/-- A provider that was written is the one its owner and slug name. -/
theorem credentialOf_set {provider : AuthProvider} {id service_id : Uuid} {rows rows' : Rows}
    (h : set provider id service_id rows = .ok rows') :
    credentialOf provider.owner_id provider.slug rows' = some provider.credential := by
  simp only [set, bind_eq_ok, pure_eq_ok, require_eq_ok, db_err_eq_ok] at h
  obtain ⟨_, _, _, hfound, table, hmodify, rfl⟩ := h
  obtain ⟨row, hfind⟩ := Option.isSome_iff_exists.mp hfound
  obtain ⟨hrow, hid⟩ := Table.mem_of_find hfind
  have hwritten : to_active_model provider id service_id ∈
      ({ rows with auth_providers := table } : Rows).auth_providers.rows := by
    rw [Table.rows_of_modify hmodify, List.mem_map]
    exact ⟨row, hrow, by rw [if_pos hid]⟩
  exact credentialOf_eq_some hwritten rfl rfl

end api2mcp.store.auth_provider
