import Api2Mcp.Relational.References
import Api2Mcp.Store.Footprint

namespace api2mcp.store

open relational btree except
open api2mcp.model api2mcp.entity

/-- The foreign keys of the tables that definitions are read from. -/
structure Intact (rows : Rows) : Prop where
  auth_providers : References rows.auth_providers (·.service_id) rows.services (·.id)
  api_calls : References rows.api_calls (·.service_id) rows.services (·.id)
  api_call_tags : References rows.api_call_tags (·.tag_id) rows.tags (·.id)
  script_api_calls : References rows.script_api_calls (·.api_call_id) rows.api_calls (·.id)
  script_tags : References rows.script_tags (·.tag_id) rows.tags (·.id)
  endpoint_auth_providers :
    References rows.endpoint_auth_providers (·.auth_provider_id) rows.auth_providers (·.id)

theorem Intact.empty : Intact {} := by
  constructor <;> exact fun _ hmem => absurd hmem List.not_mem_nil

variable {rows rows' : Rows}

namespace tag

/-- The tags that were there are there still. -/
def Grow (rows rows' : Rows) : Prop := ∀ r ∈ rows.tags.rows, r ∈ rows'.tags.rows

theorem ensure_spec {tag_id : Tag → Uuid} {t : Tag} {id : Uuid} (h : ensure tag_id t rows = .ok (id, rows')) :
    Grow rows rows' ∧ ∃ r ∈ rows'.tags.rows, r.id = id ∧ r.name = t.name := by
  unfold ensure at h
  split at h
  · rename_i row hfind
    cases h
    obtain ⟨hrow, hname⟩ := Table.mem_of_find hfind
    exact ⟨fun r hr => hr, row, hrow, rfl, by simpa using hname⟩
  · simp only [bind_eq_ok, db_err_eq_ok, pure_eq_ok] at h
    obtain ⟨tags, hinsert, heq⟩ := h
    cases heq
    exact ⟨fun r hr => (Table.mem_of_insert hinsert).mpr (.inl hr),
      ⟨tag_id t, t.name⟩, (Table.mem_of_insert hinsert).mpr (.inr rfl), rfl, rfl⟩

theorem intact_of_ensure {tag_id : Tag → Uuid} {t : Tag} {id : Uuid} (hintact : Intact rows)
    (h : ensure tag_id t rows = .ok (id, rows')) : Intact rows' := by
  obtain ⟨hgrow, _⟩ := ensure_spec h
  rw [ensure_footprint h]
  exact { hintact with
    api_call_tags := hintact.api_call_tags.of_grow hgrow
    script_tags := hintact.script_tags.of_grow hgrow }

theorem intact_of_set_api_call_tags {tag_id : Tag → Uuid} {id : Uuid} {wanted : BTreeSet Tag}
    (hintact : Intact rows) (h : set_api_call_tags tag_id id wanted rows = .ok rows') : Intact rows' := by
  refine foldlM_inv Intact h ?_ fun t _ before after hinv hstep => ?_
  · exact { hintact with
      api_call_tags := hintact.api_call_tags.of_subset fun r hr => (Table.mem_delete.mp hr).1 }
  · simp only [bind_eq_ok, db_err_eq_ok, pure_eq_ok] at hstep
    obtain ⟨⟨k, mid⟩, hensure, table, hinsert, rfl⟩ := hstep
    obtain ⟨_, r, hr, hid, _⟩ := ensure_spec hensure
    have hmid := intact_of_ensure hinv hensure
    exact { hmid with api_call_tags := hmid.api_call_tags.insert hinsert ⟨r, hr, hid⟩ }

theorem intact_of_set_script_tags {tag_id : Tag → Uuid} {id : Uuid} {wanted : BTreeSet Tag}
    (hintact : Intact rows) (h : set_script_tags tag_id id wanted rows = .ok rows') : Intact rows' := by
  refine foldlM_inv Intact h ?_ fun t _ before after hinv hstep => ?_
  · exact { hintact with
      script_tags := hintact.script_tags.of_subset fun r hr => (Table.mem_delete.mp hr).1 }
  · simp only [bind_eq_ok, db_err_eq_ok, pure_eq_ok] at hstep
    obtain ⟨⟨k, mid⟩, hensure, table, hinsert, rfl⟩ := hstep
    obtain ⟨_, r, hr, hid, _⟩ := ensure_spec hensure
    have hmid := intact_of_ensure hinv hensure
    exact { hmid with script_tags := hmid.script_tags.insert hinsert ⟨r, hr, hid⟩ }

end tag

theorem require_find {ρ : Type} {u : Indexes ρ} {t : Table u} {key : ρ → Uuid} {id : Uuid}
    (h : (t.find fun r => key r = id).isSome = true) : ∃ r ∈ t.rows, key r = id := by
  obtain ⟨r, hr⟩ := Option.isSome_iff_exists.mp h
  obtain ⟨hr, hid⟩ := Table.mem_of_find hr
  exact ⟨r, hr, by simpa using hid⟩

namespace api_call

theorem intact_of_parts {tag_id : Tag → Uuid} {id : Uuid} {params : List Param} {tags : BTreeSet Tag}
    {mid : Rows} (hintact : Intact rows) (hparams : replace_params id params rows = .ok mid)
    (htags : tag.set_api_call_tags tag_id id tags mid = .ok rows') : Intact rows' := by
  refine tag.intact_of_set_api_call_tags ?_ htags
  rw [replace_params_footprint hparams]
  exact { hintact with }

theorem intact_of_delete {p : api_calls.Model → Bool} (hintact : Intact rows) : Intact (delete p rows) where
  auth_providers := hintact.auth_providers
  api_calls := hintact.api_calls.of_subset fun r hr => (Table.mem_delete.mp hr).1
  api_call_tags := hintact.api_call_tags.of_subset fun r hr => (Table.mem_delete.mp hr).1
  script_api_calls := hintact.script_api_calls.cascade
  script_tags := hintact.script_tags
  endpoint_auth_providers := hintact.endpoint_auth_providers

end api_call

namespace script

theorem api_call_id_eq_ok {owner_id : Uuid} {slug : Slug} {id : Uuid}
    (h : api_call_id owner_id slug rows = .ok id) :
    ∃ c ∈ rows.api_calls.rows, c.owner_id = owner_id ∧ c.slug = slug ∧ c.id = id := by
  unfold api_call_id at h
  split at h
  · rename_i c hfind
    cases h
    obtain ⟨hc, hkey⟩ := Table.mem_of_find hfind
    obtain ⟨howner, hslug⟩ : c.owner_id = owner_id ∧ c.slug = slug := by simpa using hkey
    exact ⟨c, hc, howner, hslug, rfl⟩
  · cases h

theorem intact_of_parts {tag_id : Tag → Uuid} {owner_id id : Uuid} {params : List Param}
    {callable : BTreeMap String Slug} {tags : BTreeSet Tag} {first second : Rows} (hintact : Intact rows)
    (hparams : replace_params id params rows = .ok first)
    (hcallable : replace_callable owner_id id callable first = .ok second)
    (htags : tag.set_script_tags tag_id id tags second = .ok rows') : Intact rows' := by
  refine tag.intact_of_set_script_tags ?_ htags
  rw [replace_params_footprint hparams] at hcallable
  simp only [replace_callable, bind_eq_ok, pure_eq_ok] at hcallable
  obtain ⟨table, htable, rfl⟩ := hcallable
  have hcallable : References table (·.api_call_id) rows.api_calls (·.id) := by
    refine foldlM_inv (fun t : Table _ => References t (·.api_call_id) rows.api_calls (·.id)) htable
      (hintact.script_api_calls.of_subset fun r hr => (Table.mem_delete.mp hr).1)
      fun kv _ before after hinv hstep => ?_
    simp only [bind_eq_ok, db_err_eq_ok] at hstep
    obtain ⟨call_id, hcall, hinsert⟩ := hstep
    obtain ⟨c, hc, _, _, hid⟩ := api_call_id_eq_ok hcall
    exact hinv.insert hinsert ⟨c, hc, hid⟩
  exact { hintact with script_api_calls := hcallable }

end script

namespace endpoint

theorem intact_of_parts {owner_id id : Uuid} {aliases : BTreeMap String EndpointTarget} {wanted : BTreeSet Slug}
    {mid : Rows} (hintact : Intact rows) (haliases : replace_aliases id aliases rows = .ok mid)
    (hscope : replace_auth_providers owner_id id wanted mid = .ok rows') : Intact rows' := by
  rw [replace_aliases_footprint haliases] at hscope
  simp only [replace_auth_providers, bind_eq_ok, pure_eq_ok] at hscope
  obtain ⟨table, htable, rfl⟩ := hscope
  have hscope : References table (·.auth_provider_id) rows.auth_providers (·.id) := by
    refine foldlM_inv (fun t : Table _ => References t (·.auth_provider_id) rows.auth_providers (·.id)) htable
      (hintact.endpoint_auth_providers.of_subset fun r hr => (Table.mem_delete.mp hr).1)
      fun slug _ before after hinv hstep => ?_
    simp only [bind_eq_ok, db_err_eq_ok] at hstep
    obtain ⟨provider_id, hprovider, hinsert⟩ := hstep
    unfold auth_provider_id at hprovider
    split at hprovider
    · rename_i p hfind
      cases hprovider
      exact hinv.insert hinsert ⟨p, (Table.mem_of_find hfind).1, rfl⟩
    · cases hprovider
  exact { hintact with endpoint_auth_providers := hscope }

end endpoint

namespace auth_provider

theorem intact_of_delete {p : auth_providers.Model → Bool} (hintact : Intact rows) : Intact (delete p rows) where
  auth_providers := hintact.auth_providers.of_subset fun r hr => (Table.mem_delete.mp hr).1
  api_calls := hintact.api_calls
  api_call_tags := hintact.api_call_tags
  script_api_calls := hintact.script_api_calls
  script_tags := hintact.script_tags
  endpoint_auth_providers := hintact.endpoint_auth_providers.cascade

end auth_provider

/-- The cascade leaves nothing on the service. -/
theorem service.intact_of_delete {id : Uuid} (hintact : Intact rows) : Intact (service.delete id rows) := by
  have hchildren := api_call.intact_of_delete (p := fun r => r.service_id = id)
    (auth_provider.intact_of_delete (p := fun r => r.service_id = id) hintact)
  have hkept : ∀ s ∈ rows.services.rows, s.id ≠ id →
      s ∈ (rows.services.delete fun r => r.id = id).rows := fun s hs hne =>
    Table.mem_delete.mpr ⟨hs, decide_eq_false hne⟩
  refine { hchildren with auth_providers := fun p hp => ?_, api_calls := fun c hc => ?_ }
  · obtain ⟨s, hs, hid⟩ := hchildren.auth_providers p hp
    have hne := of_decide_eq_false (Table.mem_delete.mp hp).2
    exact ⟨s, hkept s hs fun heq => hne (hid.symm.trans heq), hid⟩
  · obtain ⟨s, hs, hid⟩ := hchildren.api_calls c hc
    have hne := of_decide_eq_false (Table.mem_delete.mp hc).2
    exact ⟨s, hkept s hs fun heq => hne (hid.symm.trans heq), hid⟩

/-- No write leaves a key that names nothing. -/
theorem Intact.apply {write : Write} (hintact : Intact rows) (h : write.apply rows = .ok rows') :
    Intact rows' := by
  cases write with
  | create_service s id =>
    simp only [Write.apply, service.insert, bind_eq_ok, db_err_eq_ok, pure_eq_ok] at h
    obtain ⟨table, hinsert, rfl⟩ := h
    have hgrow : ∀ r ∈ rows.services.rows, r ∈ table.rows := fun r hr =>
      (Table.mem_of_insert hinsert).mpr (.inl hr)
    exact { hintact with
      auth_providers := hintact.auth_providers.of_grow hgrow
      api_calls := hintact.api_calls.of_grow hgrow }
  | update_service s id =>
    simp only [Write.apply, service.set, bind_eq_ok, db_err_eq_ok, pure_eq_ok] at h
    obtain ⟨_, _, table, hmodify, rfl⟩ := h
    have hset : ∀ r : services.Model, decide (r.id = id) = true → (service.to_active_model s id).id = r.id :=
      fun r hr => (of_decide_eq_true hr).symm
    exact { hintact with
      auth_providers := hintact.auth_providers.of_modify hmodify hset
      api_calls := hintact.api_calls.of_modify hmodify hset }
  | delete_service id => cases h; exact service.intact_of_delete hintact
  | create_auth_provider p id service_id =>
    simp only [Write.apply, auth_provider.insert, bind_eq_ok, db_err_eq_ok, require_eq_ok, pure_eq_ok] at h
    obtain ⟨_, hservice, table, hinsert, rfl⟩ := h
    exact { hintact with
      auth_providers := hintact.auth_providers.insert hinsert (require_find hservice)
      endpoint_auth_providers := hintact.endpoint_auth_providers.of_grow fun r hr =>
        (Table.mem_of_insert hinsert).mpr (.inl hr) }
  | update_auth_provider p id service_id =>
    simp only [Write.apply, auth_provider.set, bind_eq_ok, db_err_eq_ok, require_eq_ok, pure_eq_ok] at h
    obtain ⟨_, hservice, _, _, table, hmodify, rfl⟩ := h
    exact { hintact with
      auth_providers := hintact.auth_providers.modify hmodify fun _ _ => require_find hservice
      endpoint_auth_providers := hintact.endpoint_auth_providers.of_modify hmodify fun r hr =>
        (of_decide_eq_true hr).symm }
  | delete_auth_provider id => cases h; exact auth_provider.intact_of_delete hintact
  | create_api_call tag_id c tags id service_id =>
    simp only [Write.apply, api_call.insert, bind_eq_ok, db_err_eq_ok, require_eq_ok] at h
    obtain ⟨_, hservice, _, _, table, hinsert, mid, hparams, htags⟩ := h
    refine api_call.intact_of_parts ?_ hparams htags
    exact { hintact with
      api_calls := hintact.api_calls.insert hinsert (require_find hservice)
      script_api_calls := hintact.script_api_calls.of_grow fun r hr =>
        (Table.mem_of_insert hinsert).mpr (.inl hr) }
  | update_api_call tag_id c tags id service_id =>
    simp only [Write.apply, api_call.set, bind_eq_ok, db_err_eq_ok, require_eq_ok] at h
    obtain ⟨_, hservice, _, _, _, _, table, hmodify, mid, hparams, htags⟩ := h
    refine api_call.intact_of_parts ?_ hparams htags
    exact { hintact with
      api_calls := hintact.api_calls.modify hmodify fun _ _ => require_find hservice
      script_api_calls := hintact.script_api_calls.of_modify hmodify fun r hr =>
        (of_decide_eq_true hr).symm }
  | delete_api_call id => cases h; exact api_call.intact_of_delete hintact
  | create_script tag_id s tags id =>
    simp only [Write.apply, script.insert, bind_eq_ok, db_err_eq_ok] at h
    obtain ⟨table, _, first, hparams, second, hcallable, htags⟩ := h
    refine script.intact_of_parts ?_ hparams hcallable htags
    exact ⟨hintact.1, hintact.2, hintact.3, hintact.4, hintact.5, hintact.6⟩
  | update_script tag_id s tags id =>
    simp only [Write.apply, script.set, bind_eq_ok, db_err_eq_ok] at h
    obtain ⟨_, _, table, _, first, hparams, second, hcallable, htags⟩ := h
    refine script.intact_of_parts ?_ hparams hcallable htags
    exact ⟨hintact.1, hintact.2, hintact.3, hintact.4, hintact.5, hintact.6⟩
  | delete_script id =>
    cases h
    exact { hintact with
      script_api_calls := hintact.script_api_calls.of_subset fun r hr => (Table.mem_delete.mp hr).1
      script_tags := hintact.script_tags.of_subset fun r hr => (Table.mem_delete.mp hr).1 }
  | create_endpoint e id =>
    simp only [Write.apply, endpoint.insert, bind_eq_ok, db_err_eq_ok] at h
    obtain ⟨table, _, mid, haliases, hscope⟩ := h
    refine endpoint.intact_of_parts ?_ haliases hscope
    exact ⟨hintact.1, hintact.2, hintact.3, hintact.4, hintact.5, hintact.6⟩
  | update_endpoint e id =>
    simp only [Write.apply, endpoint.set, bind_eq_ok, db_err_eq_ok] at h
    obtain ⟨_, _, table, _, mid, haliases, hscope⟩ := h
    refine endpoint.intact_of_parts ?_ haliases hscope
    exact ⟨hintact.1, hintact.2, hintact.3, hintact.4, hintact.5, hintact.6⟩
  | delete_endpoint id =>
    cases h
    exact { hintact with
      endpoint_auth_providers :=
        hintact.endpoint_auth_providers.of_subset fun r hr => (Table.mem_delete.mp hr).1 }

end api2mcp.store
