import Api2Mcp.Collections.Pointwise
import Api2Mcp.Store.Holds
import Api2Mcp.Store.Intact
import Api2Mcp.Store.Scope

namespace api2mcp.store

open relational btree concurrent except
open api2mcp.model api2mcp.entity

/-! What a transaction that creates or updates a definition leaves readable. -/

variable {rows rows' : Rows}

namespace service

/-- What is left of a service that is stored. -/
def stored (service : Service) : Service := to_model (to_active_model service 0)

end service

namespace tag

/-- Keys that had their tags have them still. -/
theorem named_of_grow {ids : List Uuid} (hgrow : Grow rows rows')
    (hids : ∀ id ∈ ids, ∃ r ∈ rows.tags.rows, r.id = id) : named rows' ids = named rows ids := by
  refine BTreeSet.eq_of_mem_iff (BTreeSet.sorted_collect _) (BTreeSet.sorted_collect _) fun t => ?_
  rw [mem_named, mem_named]
  constructor
  · rintro ⟨r, hr, hid, hname⟩
    obtain ⟨r', hr', hsame⟩ := hids r.id hid
    have heq : r' = r := Table.eq_of_clash (hgrow r' hr') hr (by
      simp [tags.indexes, Indexes.or, Indexes.on, hsame])
    exact ⟨r', hr', by rwa [hsame], heq ▸ hname⟩
  · rintro ⟨r, hr, hid, hname⟩
    exact ⟨r, hgrow r hr, hid, hname⟩

/-- Tags joined to an item in turn are the tags it bears; no other item's are
touched. -/
theorem named_of_foldlM (joined : Rows → Uuid → List Uuid) (id : Uuid)
    {step : Rows → Tag → Except StoreError Rows}
    (hstep : ∀ rows t rows', step rows t = .ok rows' → Grow rows rows' ∧
      (∃ k, joined rows' id = joined rows id ++ [k] ∧ ∃ r ∈ rows'.tags.rows, r.id = k ∧ r.name = t.name) ∧
      ∀ other, other ≠ id → joined rows' other = joined rows other)
    {wanted : BTreeSet Tag} (hsorted : wanted.Sorted) (hnone : joined rows id = [])
    (h : wanted.foldlM step rows = .ok rows') :
    named rows' (joined rows' id) = wanted ∧ Grow rows rows' ∧
      ∀ other, other ≠ id → joined rows' other = joined rows other := by
  have hfold : ∀ (wanted : List Tag) (rows : Rows), wanted.foldlM step rows = .ok rows' →
      Grow rows rows' ∧ (∀ other, other ≠ id → joined rows' other = joined rows other) ∧
        ∃ ids, joined rows' id = joined rows id ++ ids ∧
          List.Forall₂ (fun t k => ∃ r ∈ rows'.tags.rows, r.id = k ∧ r.name = t.name) wanted ids := by
    intro wanted
    induction wanted with
    | nil =>
      intro rows h
      rw [List.foldlM_nil, pure_eq_ok] at h
      rw [h]
      exact ⟨fun r hr => hr, fun _ _ => rfl, [], (List.append_nil _).symm, .nil⟩
    | cons t rest ih =>
      intro rows h
      rw [List.foldlM_cons, bind_eq_ok] at h
      obtain ⟨mid, hmid, hrest⟩ := h
      obtain ⟨hgrow, ⟨k, hjoined, r, hr, hid, hname⟩, hothers⟩ := hstep rows t mid hmid
      obtain ⟨hgrow', hothers', ids, hjoined', hids⟩ := ih mid hrest
      refine ⟨fun r hr => hgrow' r (hgrow r hr), fun other hne => (hothers' other hne).trans (hothers other hne),
        k :: ids, ?_, .cons ⟨r, hgrow' r hr, hid, hname⟩ hids⟩
      rw [hjoined', hjoined, List.append_assoc]
      rfl
  obtain ⟨hgrow, hothers, ids, hjoined, hids⟩ := hfold wanted rows h
  rw [hjoined, hnone, List.nil_append]
  refine ⟨BTreeSet.collect_eq_of_mem_iff hsorted fun t => ?_, hgrow, hothers⟩
  rw [← BTreeSet.mem_collect]
  change t ∈ named rows' ids ↔ t ∈ wanted
  rw [mem_named]
  constructor
  · rintro ⟨r, hr, hid, hname⟩
    obtain ⟨t', ht', r', hr', hid', hname'⟩ := pointwise.exists_left hids hid
    have heq : r' = r := Table.eq_of_clash hr' hr (by simp [tags.indexes, Indexes.or, Indexes.on, hid'])
    rw [heq, hname] at hname'
    cases t
    cases t'
    cases hname'
    exact ht'
  · intro ht
    obtain ⟨id, hid, r, hr, hrid, hname⟩ := pointwise.exists_right hids ht
    exact ⟨r, hr, by rwa [hrid], hname⟩

/-- The tags of an api_call are replaced by what is wanted. -/
theorem set_api_call_tags_spec {tag_id : Tag → Uuid} {id : Uuid} {wanted : BTreeSet Tag}
    (hsorted : wanted.Sorted) (h : set_api_call_tags tag_id id wanted rows = .ok rows') :
    named rows' (ids_of_api_call rows' id) = wanted ∧ Grow rows rows' ∧
      ∀ other, other ≠ id → ids_of_api_call rows' other = ids_of_api_call rows other := by
  obtain ⟨hnamed, hgrow, hothers⟩ := named_of_foldlM ids_of_api_call id (by
    intro rows t rows' hstep
    simp only [bind_eq_ok, db_err_eq_ok, pure_eq_ok] at hstep
    obtain ⟨⟨k, mid⟩, hensure, table, hinsert, rfl⟩ := hstep
    obtain ⟨hgrow, hnamed⟩ := ensure_spec hensure
    rw [ensure_footprint hensure] at hinsert
    refine ⟨hgrow, ⟨k, ?_, hnamed⟩, fun other hne => ?_⟩
    · simp [ids_of_api_call, Table.select, Table.rows_of_insert hinsert]
    · simp [ids_of_api_call, Table.select, Table.rows_of_insert hinsert, Ne.symm hne]) hsorted (by
    simp [ids_of_api_call, Table.select, Table.delete]) h
  refine ⟨hnamed, hgrow, fun other hne => (hothers other hne).trans ?_⟩
  simp only [ids_of_api_call, Table.select, Table.delete, List.filter_filter]
  congr 2
  funext r
  by_cases hid : r.api_call_id = other <;> simp [hid, hne]

/-- The tags of a script are replaced by what is wanted. -/
theorem set_script_tags_spec {tag_id : Tag → Uuid} {id : Uuid} {wanted : BTreeSet Tag}
    (hsorted : wanted.Sorted) (h : set_script_tags tag_id id wanted rows = .ok rows') :
    named rows' (ids_of_script rows' id) = wanted ∧ Grow rows rows' ∧
      ∀ other, other ≠ id → ids_of_script rows' other = ids_of_script rows other := by
  obtain ⟨hnamed, hgrow, hothers⟩ := named_of_foldlM ids_of_script id (by
    intro rows t rows' hstep
    simp only [bind_eq_ok, db_err_eq_ok, pure_eq_ok] at hstep
    obtain ⟨⟨k, mid⟩, hensure, table, hinsert, rfl⟩ := hstep
    obtain ⟨hgrow, hnamed⟩ := ensure_spec hensure
    rw [ensure_footprint hensure] at hinsert
    refine ⟨hgrow, ⟨k, ?_, hnamed⟩, fun other hne => ?_⟩
    · simp [ids_of_script, Table.select, Table.rows_of_insert hinsert]
    · simp [ids_of_script, Table.select, Table.rows_of_insert hinsert, Ne.symm hne]) hsorted (by
    simp [ids_of_script, Table.select, Table.delete]) h
  refine ⟨hnamed, hgrow, fun other hne => (hothers other hne).trans ?_⟩
  simp only [ids_of_script, Table.select, Table.delete, List.filter_filter]
  congr 2
  funext r
  by_cases hid : r.script_id = other <;> simp [hid, hne]

end tag

namespace api_call

/-- What is left of a param that is stored. -/
def param_stored (p : Param) : Param := { p with description := description_of (p.description.getD "") }

/-- What is left of an api_call that is stored. -/
def stored (call : ApiCall) : ApiCall where
  __ := call
  params := (call.params.map param_stored).insertionSort fun a b => a.position ≤ b.position
  description := description_of (call.description.getD "")

theorem param_to_active_model_ok {p : Param} {id : Uuid} {row : api_call_params.Model}
    (h : param_to_active_model p id = .ok row) : row.api_call_id = id ∧ param_to_model row = param_stored p := by
  unfold param_to_active_model at h
  split at h
  · cases h
  · cases h
    exact ⟨rfl, rfl⟩

theorem replace_params_spec {id : Uuid} {params : List Param} (h : replace_params id params rows = .ok rows') :
    params_of rows' id = (params.map param_stored).insertionSort (fun a b => a.position ≤ b.position) ∧
      ∀ other, other ≠ id → params_of rows' other = params_of rows other := by
  simp only [replace_params, bind_eq_ok, pure_eq_ok] at h
  obtain ⟨table, htable, rfl⟩ := h
  obtain ⟨rs, hrs, htable⟩ := Table.rows_of_foldlM
    (fun p r => r.api_call_id = id ∧ param_to_model r = param_stored p) (by
      intro t p t' hstep
      simp only [bind_eq_ok, db_err_eq_ok] at hstep
      obtain ⟨row, hrow, _, _, hinsert⟩ := hstep
      exact ⟨row, param_to_active_model_ok hrow, hinsert⟩) htable
  obtain ⟨hown, hothers⟩ := Table.select_of_replaced htable fun r hr => by
    obtain ⟨p, _, hid, _⟩ := pointwise.exists_left hrs hr
    exact hid
  refine ⟨?_, fun other hne => by rw [params_of, hothers other hne, params_of]⟩
  rw [params_of, hown, ← pointwise.map_eq hrs.flip fun r p h => h.2]
  exact List.map_insertionSort _ _ _ rs fun a _ b _ => Iff.rfl

theorem named_of_call {id : Uuid} (hintact : Intact rows) (hgrow : tag.Grow rows rows')
    (hids : tag.ids_of_api_call rows' id = tag.ids_of_api_call rows id) :
    tag.named rows' (tag.ids_of_api_call rows' id) = tag.named rows (tag.ids_of_api_call rows id) := by
  rw [hids]
  refine tag.named_of_grow hgrow fun k hk => ?_
  obtain ⟨j, hj, rfl⟩ := List.mem_map.mp hk
  exact hintact.api_call_tags j (Table.mem_select.mp hj).1

/-- What is inserted with an api_call, and what is replaced with it. -/
theorem parts_spec {tag_id : Tag → Uuid} {call : ApiCall} {tags : BTreeSet Tag} {id : Uuid} {mid : Rows}
    (hintact : Intact rows) (hsorted : tags.Sorted) (hparams : replace_params id call.params rows = .ok mid)
    (htags : tag.set_api_call_tags tag_id id tags mid = .ok rows') :
    (∀ service_id, of_row rows' (to_active_model call id service_id) call.service_slug = ⟨stored call, tags⟩) ∧
      (∀ row : api_calls.Model, row.id ≠ id → ∀ slug, of_row rows' row slug = of_row rows row slug) ∧
      tag.Grow rows rows' := by
  obtain ⟨hnamed, hgrow, hothers⟩ := tag.set_api_call_tags_spec hsorted htags
  obtain ⟨hown, hkept⟩ := replace_params_spec hparams
  have hmid := replace_params_footprint hparams
  have htable : ∀ i, params_of rows' i = params_of mid i := by
    rw [tag.set_api_call_tags_footprint htags]
    exact fun i => rfl
  have hgrow : tag.Grow rows rows' := by
    rw [hmid] at hgrow
    exact hgrow
  refine ⟨?_, ?_, hgrow⟩
  · intro service_id
    have hid : (to_active_model call id service_id).id = id := rfl
    rw [of_row, hid, htable, hown, hnamed]
    rfl
  · intro row hne slug
    have hids : tag.ids_of_api_call rows' row.id = tag.ids_of_api_call rows row.id := by
      rw [hothers row.id hne, hmid]
      rfl
    rw [of_row, of_row, htable, hkept row.id hne, named_of_call hintact hgrow hids]

end api_call

namespace script

/-- What is left of a script's param that is stored. -/
def param_stored (p : Param) : Param where
  __ := p
  location := .Local
  fixed := none
  description := api_call.description_of (p.description.getD "")

/-- What is left of a script that is stored. -/
def stored (script : ScriptDef) : ScriptDef where
  __ := script
  params := (script.params.map param_stored).insertionSort fun a b => a.position ≤ b.position
  budgets := (to_model (to_active_model script 0) [] []).budgets

theorem param_to_active_model_ok {p : Param} {id : Uuid} {row : script_params.Model}
    (h : param_to_active_model p id = .ok row) : row.script_id = id ∧ param_to_model row = param_stored p := by
  unfold param_to_active_model at h
  split at h
  · cases h
  · cases h
    exact ⟨rfl, rfl⟩

theorem replace_params_spec {id : Uuid} {params : List Param} (h : replace_params id params rows = .ok rows') :
    params_of rows' id = (params.map param_stored).insertionSort (fun a b => a.position ≤ b.position) ∧
      ∀ other, other ≠ id → params_of rows' other = params_of rows other := by
  simp only [replace_params, bind_eq_ok, pure_eq_ok] at h
  obtain ⟨table, htable, rfl⟩ := h
  obtain ⟨rs, hrs, htable⟩ := Table.rows_of_foldlM
    (fun p r => r.script_id = id ∧ param_to_model r = param_stored p) (by
      intro t p t' hstep
      simp only [bind_eq_ok, db_err_eq_ok] at hstep
      obtain ⟨row, hrow, hinsert⟩ := hstep
      exact ⟨row, param_to_active_model_ok hrow, hinsert⟩) htable
  obtain ⟨hown, hothers⟩ := Table.select_of_replaced htable fun r hr => by
    obtain ⟨p, _, hid, _⟩ := pointwise.exists_left hrs hr
    exact hid
  refine ⟨?_, fun other hne => by rw [params_of, hothers other hne, params_of]⟩
  rw [params_of, hown, ← pointwise.map_eq hrs.flip fun r p h => h.2]
  exact List.map_insertionSort _ _ _ rs fun a _ b _ => Iff.rfl

theorem load_callable_congr (hjoin : rows'.script_api_calls = rows.script_api_calls)
    (hcalls : rows'.api_calls = rows.api_calls) (id : Uuid) (c : BTreeMap String Slug) :
    Query.Yields (· = rows') (load_callable id) c ↔ Query.Yields (· = rows) (load_callable id) c := by
  simp only [yields_load_callable, hjoin, hcalls]

/-- The entries a script may call are replaced. -/
theorem replace_callable_spec {owner_id id : Uuid} {callable : BTreeMap String Slug} (hsorted : callable.Sorted)
    (h : replace_callable owner_id id callable rows = .ok rows') :
    (∀ c, Query.Yields (· = rows') (load_callable id) c ↔ c = callable) ∧
      ∀ other, other ≠ id → ∀ c, Query.Yields (· = rows') (load_callable other) c ↔
        Query.Yields (· = rows) (load_callable other) c := by
  simp only [replace_callable, bind_eq_ok, pure_eq_ok] at h
  obtain ⟨table, htable, rfl⟩ := h
  obtain ⟨rs, hrs, htable⟩ := Table.rows_of_foldlM
    (fun (kv : String × Slug) r => r.script_id = id ∧ r.alias_name = kv.1 ∧
      ∃ c ∈ rows.api_calls.rows, c.id = r.api_call_id ∧ c.slug = kv.2) (by
      intro t kv t' hstep
      simp only [bind_eq_ok, db_err_eq_ok] at hstep
      obtain ⟨call_id, hcall, hinsert⟩ := hstep
      obtain ⟨c, hc, _, hslug, hid⟩ := api_call_id_eq_ok hcall
      exact ⟨_, ⟨rfl, rfl, c, hc, hid, hslug⟩, hinsert⟩) htable
  obtain ⟨hown, hothers⟩ := Table.select_of_replaced htable fun r hr => by
    obtain ⟨kv, _, hid, _⟩ := pointwise.exists_left hrs hr
    exact hid
  constructor
  · intro c
    have hreads : Query.Yields (· = { rows with script_api_calls := table }) (load_callable id) callable := by
      rw [yields_load_callable]
      refine ⟨callable, BTreeMap.collect_of_sorted hsorted, ?_⟩
      change List.Forall₂ _ (table.select fun r => r.script_id = id) callable
      rw [hown]
      exact hrs.flip.imp fun r kv h => h.2
    exact ⟨fun hc => hc.unique hreads, fun hc => hc ▸ hreads⟩
  · intro other hne c
    simp only [yields_load_callable]
    rw [hothers other hne]

theorem named_of_script {id : Uuid} (hintact : Intact rows) (hgrow : tag.Grow rows rows')
    (hids : tag.ids_of_script rows' id = tag.ids_of_script rows id) :
    tag.named rows' (tag.ids_of_script rows' id) = tag.named rows (tag.ids_of_script rows id) := by
  rw [hids]
  refine tag.named_of_grow hgrow fun k hk => ?_
  obtain ⟨j, hj, rfl⟩ := List.mem_map.mp hk
  exact hintact.script_tags j (Table.mem_select.mp hj).1

/-- What is inserted with a script, and what is replaced with it. -/
theorem parts_spec {tag_id : Tag → Uuid} {script : ScriptDef} {tags : BTreeSet Tag} {id : Uuid}
    {first second : Rows} (hintact : Intact rows) (hsorted : tags.Sorted) (hcsorted : script.callable.Sorted)
    (hparams : replace_params id script.params rows = .ok first)
    (hcallable : replace_callable script.owner_id id script.callable first = .ok second)
    (htags : tag.set_script_tags tag_id id tags second = .ok rows') :
    (∀ t, (∃ c, Query.Yields (· = rows') (load_callable id) c ∧
        of_row rows' (to_active_model script id) c = t) ↔ t = ⟨stored script, tags⟩) ∧
      (∀ row : scripts.Model, row.id ≠ id →
        (∀ c, Query.Yields (· = rows') (load_callable row.id) c ↔
          Query.Yields (· = rows) (load_callable row.id) c) ∧
        ∀ c, of_row rows' row c = of_row rows row c) ∧
      tag.Grow rows rows' := by
  obtain ⟨hnamed, hgrow, hothers⟩ := tag.set_script_tags_spec hsorted htags
  obtain ⟨hown, hkept⟩ := replace_params_spec hparams
  obtain ⟨hcown, hckept⟩ := replace_callable_spec hcsorted hcallable
  have hfirst := replace_params_footprint hparams
  have hsecond := replace_callable_footprint hcallable
  have hlast := tag.set_script_tags_footprint htags
  have htable : ∀ i, params_of rows' i = params_of first i := by
    rw [hlast, hsecond]
    exact fun i => rfl
  have hload : ∀ i c, Query.Yields (· = rows') (load_callable i) c ↔
      Query.Yields (· = second) (load_callable i) c :=
    load_callable_congr (by rw [hlast]) (by rw [hlast])
  have hgrow : tag.Grow rows rows' := by
    rw [hsecond, hfirst] at hgrow
    exact hgrow
  have hid : (to_active_model script id).id = id := rfl
  refine ⟨?_, ?_, hgrow⟩
  · intro t
    have hrow : of_row rows' (to_active_model script id) script.callable = ⟨stored script, tags⟩ := by
      rw [of_row, hid, htable, hown, hnamed]
      rfl
    constructor
    · rintro ⟨c, hc, rfl⟩
      rw [(hcown c).mp ((hload id c).mp hc), hrow]
    · rintro rfl
      exact ⟨script.callable, (hload id _).mpr ((hcown _).mpr rfl), hrow⟩
  · intro row hne
    constructor
    · intro c
      rw [hload, hckept row.id hne]
      exact load_callable_congr (by rw [hfirst]) (by rw [hfirst]) row.id c
    · intro c
      have hids : tag.ids_of_script rows' row.id = tag.ids_of_script rows row.id := by
        rw [hothers row.id hne, hsecond, hfirst]
        rfl
      rw [of_row, of_row, htable, hkept row.id hne, named_of_script hintact hgrow hids]

end script

namespace endpoint

/-- What is left of an endpoint that is stored. -/
def stored (endpoint : EndpointDef) : EndpointDef where
  __ := endpoint
  budgets := json_to_budgets (budgets_to_json endpoint.budgets)

theorem replace_aliases_spec {id : Uuid} {aliases : BTreeMap String EndpointTarget} (hsorted : aliases.Sorted)
    (h : replace_aliases id aliases rows = .ok rows') :
    aliases_of rows' id = aliases ∧ ∀ other, other ≠ id → aliases_of rows' other = aliases_of rows other := by
  simp only [replace_aliases, bind_eq_ok, pure_eq_ok] at h
  obtain ⟨table, htable, rfl⟩ := h
  obtain ⟨rs, hrs, htable⟩ := Table.rows_of_foldlM
    (fun (kv : String × EndpointTarget) (r : endpoint_aliases.Model) =>
      r.endpoint_id = id ∧ (r.alias_name, r.target) = kv) (by
      intro t kv t' hstep
      rw [db_err_eq_ok] at hstep
      exact ⟨_, ⟨rfl, rfl⟩, hstep⟩) htable
  obtain ⟨hown, hothers⟩ := Table.select_of_replaced htable fun r hr => by
    obtain ⟨kv, _, hid, _⟩ := pointwise.exists_left hrs hr
    exact hid
  refine ⟨?_, fun other hne => by rw [aliases_of, hothers other hne, aliases_of]⟩
  have hread : (rs.map fun r => (r.alias_name, r.target)) = aliases.map fun kv => kv :=
    pointwise.map_eq hrs.flip fun r kv h => h.2
  rw [aliases_of, hown, hread, List.map_id']
  exact BTreeMap.collect_of_sorted hsorted

theorem load_auth_providers_congr (hjoin : rows'.endpoint_auth_providers = rows.endpoint_auth_providers)
    (hproviders : rows'.auth_providers = rows.auth_providers) (id : Uuid) (p : BTreeSet Slug) :
    Query.Yields (· = rows') (load_auth_providers id) p ↔ Query.Yields (· = rows) (load_auth_providers id) p := by
  simp only [yields_load_auth_providers, hjoin, hproviders]

/-- The scope of an endpoint is replaced. -/
theorem replace_auth_providers_spec {owner_id id : Uuid} {wanted : BTreeSet Slug} (hsorted : wanted.Sorted)
    (h : replace_auth_providers owner_id id wanted rows = .ok rows') :
    (∀ p, Query.Yields (· = rows') (load_auth_providers id) p ↔ p = wanted) ∧
      ∀ other, other ≠ id → ∀ p, Query.Yields (· = rows') (load_auth_providers other) p ↔
        Query.Yields (· = rows) (load_auth_providers other) p := by
  simp only [replace_auth_providers, bind_eq_ok, pure_eq_ok] at h
  obtain ⟨table, htable, rfl⟩ := h
  obtain ⟨rs, hrs, htable⟩ := Table.rows_of_foldlM
    (fun slug (r : endpoint_auth_providers.Model) => r.endpoint_id = id ∧
      ∃ p ∈ rows.auth_providers.rows, p.id = r.auth_provider_id ∧ p.slug = slug) (by
      intro t slug t' hstep
      simp only [bind_eq_ok, db_err_eq_ok] at hstep
      obtain ⟨provider_id, hprovider, hinsert⟩ := hstep
      obtain ⟨p, hp, _, hslug, hid⟩ := auth_provider_id_eq_ok hprovider
      exact ⟨_, ⟨rfl, p, hp, hid, hslug⟩, hinsert⟩) htable
  obtain ⟨hown, hothers⟩ := Table.select_of_replaced htable fun r hr => by
    obtain ⟨slug, _, hid, _⟩ := pointwise.exists_left hrs hr
    exact hid
  constructor
  · intro p
    have hreads : Query.Yields (· = { rows with endpoint_auth_providers := table })
        (load_auth_providers id) wanted := by
      rw [yields_load_auth_providers]
      refine ⟨wanted, BTreeSet.collect_eq_of_mem_iff hsorted fun _ => Iff.rfl, ?_⟩
      change List.Forall₂ _ (table.select fun r => r.endpoint_id = id) wanted
      rw [hown]
      exact hrs.flip.imp fun r slug h => h.2
    exact ⟨fun hp => hp.unique hreads, fun hp => hp ▸ hreads⟩
  · intro other hne p
    simp only [yields_load_auth_providers]
    rw [hothers other hne]

/-- What is inserted with an endpoint, and what is replaced with it. -/
theorem parts_spec {endpoint : EndpointDef} {id : Uuid} {mid : Rows} (hasorted : endpoint.aliases.Sorted)
    (hpsorted : endpoint.auth_providers.Sorted) (haliases : replace_aliases id endpoint.aliases rows = .ok mid)
    (hscope : replace_auth_providers endpoint.owner_id id endpoint.auth_providers mid = .ok rows') :
    (∀ e, (∃ p, Query.Yields (· = rows') (load_auth_providers id) p ∧
        to_model (to_active_model endpoint id) (aliases_of rows' id) p = e) ↔ e = stored endpoint) ∧
      ∀ other, other ≠ id → aliases_of rows' other = aliases_of rows other ∧
        ∀ p, Query.Yields (· = rows') (load_auth_providers other) p ↔
          Query.Yields (· = rows) (load_auth_providers other) p := by
  obtain ⟨hown, hkept⟩ := replace_aliases_spec hasorted haliases
  obtain ⟨hpown, hpkept⟩ := replace_auth_providers_spec hpsorted hscope
  have hmid := replace_aliases_footprint haliases
  have htable : ∀ i, aliases_of rows' i = aliases_of mid i := by
    rw [replace_auth_providers_footprint hscope]
    exact fun i => rfl
  constructor
  · intro e
    rw [htable, hown]
    constructor
    · rintro ⟨p, hp, rfl⟩
      rw [(hpown p).mp hp]
      rfl
    · rintro rfl
      exact ⟨_, (hpown _).mpr rfl, rfl⟩
  · intro other hne
    refine ⟨(htable other).trans (hkept other hne), fun p => ?_⟩
    rw [hpkept other hne]
    exact load_auth_providers_congr (by rw [hmid]) (by rw [hmid]) other p

end endpoint

end api2mcp.store
