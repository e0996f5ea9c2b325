import Api2Mcp.Control.Except
import Api2Mcp.Store.Writes

namespace api2mcp.store

open relational btree except
open api2mcp.model api2mcp.entity

/-! What a transaction leaves as it was: each result is the rows it began with,
but for the tables named. -/

namespace service

theorem insert_footprint {service : Service} {id : Uuid} {rows rows' : Rows}
    (h : insert service id rows = .ok rows') :
    rows' = { rows with services := rows'.services } := by
  simp only [insert, bind_eq_ok, pure_eq_ok] at h
  obtain ⟨_, _, rfl⟩ := h
  rfl

theorem set_footprint {service : Service} {id : Uuid} {rows rows' : Rows}
    (h : set service id rows = .ok rows') :
    rows' = { rows with services := rows'.services } := by
  simp only [set, bind_eq_ok, pure_eq_ok] at h
  obtain ⟨_, _, _, _, rfl⟩ := h
  rfl

end service

namespace auth_provider

theorem insert_footprint {provider : AuthProvider} {id service_id : Uuid}
    {rows rows' : Rows} (h : insert provider id service_id rows = .ok rows') :
    rows' = { rows with auth_providers := rows'.auth_providers } := by
  simp only [insert, bind_eq_ok, pure_eq_ok] at h
  obtain ⟨_, _, _, _, rfl⟩ := h
  rfl

theorem set_footprint {provider : AuthProvider} {id service_id : Uuid}
    {rows rows' : Rows} (h : set provider id service_id rows = .ok rows') :
    rows' = { rows with auth_providers := rows'.auth_providers } := by
  simp only [set, bind_eq_ok, pure_eq_ok] at h
  obtain ⟨_, _, _, _, _, _, rfl⟩ := h
  rfl

end auth_provider

namespace api_call

theorem replace_params_footprint {id : Uuid} {params : List Param} {rows rows' : Rows}
    (h : replace_params id params rows = .ok rows') :
    rows' = { rows with api_call_params := rows'.api_call_params } := by
  simp only [replace_params, bind_eq_ok, pure_eq_ok] at h
  obtain ⟨_, _, rfl⟩ := h
  rfl

end api_call

namespace script

theorem replace_params_footprint {id : Uuid} {params : List Param} {rows rows' : Rows}
    (h : replace_params id params rows = .ok rows') :
    rows' = { rows with script_params := rows'.script_params } := by
  simp only [replace_params, bind_eq_ok, pure_eq_ok] at h
  obtain ⟨_, _, rfl⟩ := h
  rfl

theorem replace_callable_footprint {owner_id id : Uuid} {callable : BTreeMap String Slug}
    {rows rows' : Rows} (h : replace_callable owner_id id callable rows = .ok rows') :
    rows' = { rows with script_api_calls := rows'.script_api_calls } := by
  simp only [replace_callable, bind_eq_ok, pure_eq_ok] at h
  obtain ⟨_, _, rfl⟩ := h
  rfl

end script

namespace tag

theorem ensure_footprint {tag_id : Tag → Uuid} {tag : Tag} {id : Uuid} {rows rows' : Rows}
    (h : ensure tag_id tag rows = .ok (id, rows')) : rows' = { rows with tags := rows'.tags } := by
  unfold ensure at h
  split at h
  · cases h
    rfl
  · simp only [bind_eq_ok, pure_eq_ok] at h
    obtain ⟨_, _, heq⟩ := h
    cases heq
    rfl

theorem set_api_call_tags_footprint {tag_id : Tag → Uuid} {id : Uuid} {wanted : BTreeSet Tag}
    {rows rows' : Rows} (h : set_api_call_tags tag_id id wanted rows = .ok rows') :
    rows' = { rows with tags := rows'.tags, api_call_tags := rows'.api_call_tags } := by
  refine foldlM_inv (fun rows' : Rows => rows' =
    { rows with tags := rows'.tags, api_call_tags := rows'.api_call_tags }) h rfl
    fun tag _ before after hinv hstep => ?_
  simp only [bind_eq_ok, pure_eq_ok] at hstep
  obtain ⟨⟨tag_id, mid⟩, hensure, _, _, rfl⟩ := hstep
  have hmid := ensure_footprint hensure
  rw [hinv] at hmid
  rw [hmid]

theorem set_script_tags_footprint {tag_id : Tag → Uuid} {id : Uuid} {wanted : BTreeSet Tag}
    {rows rows' : Rows} (h : set_script_tags tag_id id wanted rows = .ok rows') :
    rows' = { rows with tags := rows'.tags, script_tags := rows'.script_tags } := by
  refine foldlM_inv (fun rows' : Rows => rows' =
    { rows with tags := rows'.tags, script_tags := rows'.script_tags }) h rfl
    fun tag _ before after hinv hstep => ?_
  simp only [bind_eq_ok, pure_eq_ok] at hstep
  obtain ⟨⟨tag_id, mid⟩, hensure, _, _, rfl⟩ := hstep
  have hmid := ensure_footprint hensure
  rw [hinv] at hmid
  rw [hmid]

end tag

namespace api_call

theorem insert_footprint {tag_id : Tag → Uuid} {call : ApiCall} {tags : BTreeSet Tag}
    {id service_id : Uuid} {rows rows' : Rows}
    (h : insert tag_id call tags id service_id rows = .ok rows') :
    rows' = { rows with
      api_calls := rows'.api_calls
      api_call_params := rows'.api_call_params
      tags := rows'.tags
      api_call_tags := rows'.api_call_tags } := by
  simp only [insert, bind_eq_ok] at h
  obtain ⟨_, _, _, _, api_calls, _, mid, hparams, htags⟩ := h
  have hmid := replace_params_footprint hparams
  have hlast := tag.set_api_call_tags_footprint htags
  rw [hmid] at hlast
  rw [hlast]

theorem set_footprint {tag_id : Tag → Uuid} {call : ApiCall} {tags : BTreeSet Tag}
    {id service_id : Uuid} {rows rows' : Rows}
    (h : set tag_id call tags id service_id rows = .ok rows') :
    rows' = { rows with
      api_calls := rows'.api_calls
      api_call_params := rows'.api_call_params
      tags := rows'.tags
      api_call_tags := rows'.api_call_tags } := by
  simp only [set, bind_eq_ok] at h
  obtain ⟨_, _, _, _, _, _, api_calls, _, mid, hparams, htags⟩ := h
  have hmid := replace_params_footprint hparams
  have hlast := tag.set_api_call_tags_footprint htags
  rw [hmid] at hlast
  rw [hlast]

end api_call

namespace script

/-- What is inserted with a script, and what is replaced with it. -/
theorem parts_footprint {tag_id : Tag → Uuid} {script : ScriptDef} {tags : BTreeSet Tag}
    {id : Uuid} {rows first second rows' : Rows}
    (hparams : replace_params id script.params rows = .ok first)
    (hcallable : replace_callable script.owner_id id script.callable first = .ok second)
    (htags : tag.set_script_tags tag_id id tags second = .ok rows') :
    rows' = { rows with
      script_params := rows'.script_params
      script_api_calls := rows'.script_api_calls
      tags := rows'.tags
      script_tags := rows'.script_tags } := by
  have hfirst := replace_params_footprint hparams
  have hsecond := replace_callable_footprint hcallable
  have hlast := tag.set_script_tags_footprint htags
  rw [hfirst] at hsecond
  rw [hsecond] at hlast
  rw [hlast]

theorem insert_footprint {tag_id : Tag → Uuid} {script : ScriptDef} {tags : BTreeSet Tag}
    {id : Uuid} {rows rows' : Rows} (h : insert tag_id script tags id rows = .ok rows') :
    rows' = { rows with
      scripts := rows'.scripts
      script_params := rows'.script_params
      script_api_calls := rows'.script_api_calls
      tags := rows'.tags
      script_tags := rows'.script_tags } := by
  simp only [insert, bind_eq_ok] at h
  obtain ⟨scripts, _, _, hparams, _, hcallable, htags⟩ := h
  have hparts := parts_footprint hparams hcallable htags
  rw [hparts]

theorem set_footprint {tag_id : Tag → Uuid} {script : ScriptDef} {tags : BTreeSet Tag}
    {id : Uuid} {rows rows' : Rows} (h : set tag_id script tags id rows = .ok rows') :
    rows' = { rows with
      scripts := rows'.scripts
      script_params := rows'.script_params
      script_api_calls := rows'.script_api_calls
      tags := rows'.tags
      script_tags := rows'.script_tags } := by
  simp only [set, bind_eq_ok] at h
  obtain ⟨_, _, scripts, _, _, hparams, _, hcallable, htags⟩ := h
  have hparts := parts_footprint hparams hcallable htags
  rw [hparts]

end script

namespace endpoint

theorem replace_aliases_footprint {id : Uuid} {aliases : BTreeMap String EndpointTarget}
    {rows rows' : Rows} (h : replace_aliases id aliases rows = .ok rows') :
    rows' = { rows with endpoint_aliases := rows'.endpoint_aliases } := by
  simp only [replace_aliases, bind_eq_ok, pure_eq_ok] at h
  obtain ⟨_, _, rfl⟩ := h
  rfl

theorem replace_auth_providers_footprint {owner_id id : Uuid} {wanted : BTreeSet Slug}
    {rows rows' : Rows} (h : replace_auth_providers owner_id id wanted rows = .ok rows') :
    rows' = { rows with endpoint_auth_providers := rows'.endpoint_auth_providers } := by
  simp only [replace_auth_providers, bind_eq_ok, pure_eq_ok] at h
  obtain ⟨_, _, rfl⟩ := h
  rfl

theorem insert_footprint {endpoint : EndpointDef} {id : Uuid} {rows rows' : Rows}
    (h : insert endpoint id rows = .ok rows') :
    rows' = { rows with
      endpoints := rows'.endpoints
      endpoint_aliases := rows'.endpoint_aliases
      endpoint_auth_providers := rows'.endpoint_auth_providers } := by
  simp only [insert, bind_eq_ok] at h
  obtain ⟨endpoints, _, mid, haliases, hscope⟩ := h
  have hmid := replace_aliases_footprint haliases
  have hlast := replace_auth_providers_footprint hscope
  rw [hmid] at hlast
  rw [hlast]

theorem set_footprint {endpoint : EndpointDef} {id : Uuid} {rows rows' : Rows}
    (h : set endpoint id rows = .ok rows') :
    rows' = { rows with
      endpoints := rows'.endpoints
      endpoint_aliases := rows'.endpoint_aliases
      endpoint_auth_providers := rows'.endpoint_auth_providers } := by
  simp only [set, bind_eq_ok] at h
  obtain ⟨_, _, endpoints, _, mid, haliases, hscope⟩ := h
  have hmid := replace_aliases_footprint haliases
  have hlast := replace_auth_providers_footprint hscope
  rw [hmid] at hlast
  rw [hlast]

end endpoint

/-- The tokens and their grants under a definition write: only deleting an
endpoint reaches them, through its cascade. -/
theorem Write.apply_tokens {write : Write} {rows rows' : Rows} (h : write.apply rows = .ok rows') :
    rows'.service_tokens = rows.service_tokens ∧
      ∀ g ∈ rows'.service_token_endpoints.rows, g ∈ rows.service_token_endpoints.rows := by
  cases write with
  | create_service service id => rw [store.service.insert_footprint h]; exact ⟨rfl, fun _ hg => hg⟩
  | update_service service id => rw [store.service.set_footprint h]; exact ⟨rfl, fun _ hg => hg⟩
  | create_auth_provider provider id service_id =>
    rw [store.auth_provider.insert_footprint h]; exact ⟨rfl, fun _ hg => hg⟩
  | update_auth_provider provider id service_id =>
    rw [store.auth_provider.set_footprint h]; exact ⟨rfl, fun _ hg => hg⟩
  | create_api_call tag_id call tags id service_id =>
    rw [store.api_call.insert_footprint h]; exact ⟨rfl, fun _ hg => hg⟩
  | update_api_call tag_id call tags id service_id =>
    rw [store.api_call.set_footprint h]; exact ⟨rfl, fun _ hg => hg⟩
  | create_script tag_id script tags id =>
    rw [store.script.insert_footprint h]; exact ⟨rfl, fun _ hg => hg⟩
  | update_script tag_id script tags id =>
    rw [store.script.set_footprint h]; exact ⟨rfl, fun _ hg => hg⟩
  | create_endpoint endpoint id =>
    rw [store.endpoint.insert_footprint h]; exact ⟨rfl, fun _ hg => hg⟩
  | update_endpoint endpoint id =>
    rw [store.endpoint.set_footprint h]; exact ⟨rfl, fun _ hg => hg⟩
  | delete_service id => cases h; exact ⟨rfl, fun _ hg => hg⟩
  | delete_auth_provider id => cases h; exact ⟨rfl, fun _ hg => hg⟩
  | delete_api_call id => cases h; exact ⟨rfl, fun _ hg => hg⟩
  | delete_script id => cases h; exact ⟨rfl, fun _ hg => hg⟩
  | delete_endpoint id =>
    cases h
    exact ⟨rfl, fun _ hg => (Table.mem_delete.mp hg).1⟩

end api2mcp.store
