import Api2Mcp.Store.Footprint
import Mathlib.Data.Set.Basic

namespace api2mcp.store

open relational btree except
open api2mcp.model api2mcp.entity

/-- What an endpoint is found by: its owner and its slug. -/
abbrev EndpointKey := Uuid × Slug

def endpoint.key (r : endpoints.Model) : EndpointKey := (r.owner_id, r.slug)

/-- The slugs of the auth providers the endpoint with this id is confined to. -/
def scope (rows : Rows) (id : Uuid) : Set Slug :=
  { slug | ∃ j ∈ rows.endpoint_auth_providers.rows, j.endpoint_id = id ∧
    ∃ p ∈ rows.auth_providers.rows, p.id = j.auth_provider_id ∧ p.slug = slug }

theorem scope_congr {rows rows' : Rows} {id : Uuid} (hproviders : rows'.auth_providers = rows.auth_providers)
    (hjoin : ∀ j, j.endpoint_id = id →
      (j ∈ rows'.endpoint_auth_providers.rows ↔ j ∈ rows.endpoint_auth_providers.rows)) :
    scope rows' id = scope rows id := by
  ext slug
  constructor
  · rintro ⟨j, hj, hid, p, hp, hslug⟩
    exact ⟨j, (hjoin j hid).mp hj, hid, p, by rwa [← hproviders], hslug⟩
  · rintro ⟨j, hj, hid, p, hp, hslug⟩
    exact ⟨j, (hjoin j hid).mpr hj, hid, p, by rwa [hproviders], hslug⟩

namespace endpoint

theorem auth_provider_id_eq_ok {owner_id : Uuid} {slug : Slug} {rows : Rows} {id : Uuid}
    (h : auth_provider_id owner_id slug rows = .ok id) :
    ∃ p ∈ rows.auth_providers.rows, p.owner_id = owner_id ∧ p.slug = slug ∧ p.id = id := by
  unfold auth_provider_id at h
  split at h
  · rename_i p hfind
    cases h
    obtain ⟨hp, hkey⟩ := Table.mem_of_find hfind
    obtain ⟨howner, hslug⟩ : p.owner_id = owner_id ∧ p.slug = slug := by simpa using hkey
    exact ⟨p, hp, howner, hslug, rfl⟩
  · cases h

/-- The scope is replaced by what is wanted, and no other endpoint's is touched. -/
theorem scope_of_replace_auth_providers {owner_id id : Uuid} {wanted : BTreeSet Slug}
    {rows rows' : Rows} (h : replace_auth_providers owner_id id wanted rows = .ok rows') :
    scope rows' id = { slug | slug ∈ wanted } ∧
      ∀ other, other ≠ id → scope rows' other = scope rows other := by
  have hfoot := replace_auth_providers_footprint h
  have hproviders : rows'.auth_providers = rows.auth_providers := by rw [hfoot]
  simp only [replace_auth_providers, bind_eq_ok, pure_eq_ok] at h
  obtain ⟨table, htable, rfl⟩ := h
  obtain ⟨hfrom, hkept, hall⟩ := Table.mem_of_foldlM
    (fun slug j => j.endpoint_id = id ∧ ∃ p ∈ rows.auth_providers.rows,
      p.owner_id = owner_id ∧ p.slug = slug ∧ p.id = j.auth_provider_id)
    (fun t slug t' hstep => by
      simp only [bind_eq_ok, db_err_eq_ok] at hstep
      obtain ⟨provider_id, hprovider, hinsert⟩ := hstep
      exact ⟨_, ⟨rfl, auth_provider_id_eq_ok hprovider⟩, hinsert⟩) htable
  constructor
  · ext slug
    constructor
    · rintro ⟨j, hj, hid, p, hp, hpid, rfl⟩
      obtain hold | ⟨slug, hslug, _, p', hp', _, hslug', hpid'⟩ := hfrom j hj
      · obtain ⟨_, hne⟩ := Table.mem_delete.mp hold
        simp [hid] at hne
      · obtain rfl := auth_providers.eq_of_id hp hp' (hpid.trans hpid'.symm)
        rwa [← hslug'] at hslug
    · intro hslug
      obtain ⟨j, hj, hid, p, hp, _, hpslug, hpid⟩ := hall slug hslug
      exact ⟨j, hj, hid, p, hp, hpid, hpslug⟩
  · intro other hne
    refine scope_congr rfl fun j hid => ⟨fun hj => ?_, fun hj => hkept j (Table.mem_delete.mpr ⟨hj, ?_⟩)⟩
    · obtain hold | ⟨_, _, hjid, _⟩ := hfrom j hj
      · exact (Table.mem_delete.mp hold).1
      · exact absurd (hid.symm.trans hjid) hne
    · rw [hid]
      exact decide_eq_false hne

/-- Creating an endpoint: a row no one had, with the scope it is given. -/
theorem insert_spec {endpoint : EndpointDef} {id : Uuid} {rows rows' : Rows}
    (h : insert endpoint id rows = .ok rows') :
    rows'.endpoints.rows = rows.endpoints.rows ++ [to_active_model endpoint id] ∧
      (∀ e ∈ rows.endpoints.rows, e.id ≠ id) ∧ scope rows' id = { slug | slug ∈ endpoint.auth_providers } ∧
      ∀ other, other ≠ id → scope rows' other = scope rows other := by
  simp only [insert, bind_eq_ok, db_err_eq_ok] at h
  obtain ⟨table, hinsert, mid, haliases, hreplace⟩ := h
  have hmid := replace_aliases_footprint haliases
  have hlast := replace_auth_providers_footprint hreplace
  obtain ⟨hown, hothers⟩ := scope_of_replace_auth_providers hreplace
  refine ⟨?_, fun e he hid => ?_, hown, fun other hne => ?_⟩
  · rw [hlast, hmid]
    exact Table.rows_of_insert hinsert
  · have hclash := Table.not_clash_of_insert hinsert he
    simp [endpoints.indexes, Indexes.or, Indexes.on, to_active_model, hid] at hclash
  · rw [hothers other hne, hmid]
    rfl

/-- Updating an endpoint: its row is written over, its scope is replaced. -/
theorem set_spec {endpoint : EndpointDef} {id : Uuid} {rows rows' : Rows}
    (h : set endpoint id rows = .ok rows') :
    rows'.endpoints.rows = (rows.endpoints.rows.map fun r =>
        if r.id = id then to_active_model endpoint id else r) ∧
      scope rows' id = { slug | slug ∈ endpoint.auth_providers } ∧
      ∀ other, other ≠ id → scope rows' other = scope rows other := by
  simp only [set, bind_eq_ok, db_err_eq_ok] at h
  obtain ⟨_, _, table, hmodify, mid, haliases, hreplace⟩ := h
  have hmid := replace_aliases_footprint haliases
  have hlast := replace_auth_providers_footprint hreplace
  obtain ⟨hown, hothers⟩ := scope_of_replace_auth_providers hreplace
  refine ⟨?_, hown, fun other hne => ?_⟩
  · rw [hlast, hmid]
    simpa using Table.rows_of_modify hmodify
  · rw [hothers other hne, hmid]
    rfl

theorem scope_of_delete {id other : Uuid} {rows : Rows} (hne : other ≠ id) :
    scope (delete id rows) other = scope rows other := by
  refine scope_congr rfl fun j hid => ⟨fun hj => (Table.mem_delete.mp hj).1, fun hj => ?_⟩
  refine Table.mem_delete.mpr ⟨hj, ?_⟩
  rw [hid]
  exact decide_eq_false hne

end endpoint

/-- Deleting a service that has no auth provider. -/
theorem service.delete_spec {id : Uuid} {rows : Rows}
    (hnone : ∀ p ∈ rows.auth_providers.rows, p.service_id ≠ id) :
    (service.delete id rows).auth_providers = rows.auth_providers ∧
      ∀ other, scope (service.delete id rows) other = scope rows other := by
  have hgone : (rows.auth_providers.select fun r => r.service_id = id) = [] := by
    rw [List.eq_nil_iff_forall_not_mem]
    intro p hp
    obtain ⟨hp, hid⟩ := Table.mem_select.mp hp
    exact hnone p hp (of_decide_eq_true hid)
  have hproviders : (service.delete id rows).auth_providers = rows.auth_providers := by
    apply Table.ext_rows
    exact List.filter_eq_self.mpr fun p hp => by simp [hnone p hp]
  refine ⟨hproviders, fun other => scope_congr hproviders fun j _ => ?_⟩
  simp [service.delete, api_call.delete, auth_provider.delete, hgone]

end api2mcp.store
