import Api2Mcp.Store.ReadBack

namespace api2mcp.store

open relational btree concurrent except
open api2mcp.model api2mcp.entity

/-! Which definitions the store takes, and when. -/

variable {rows rows' : Rows}

/-! What the tables of a definition's parts take. -/

namespace api_call

/-- The params that an api_call's rows take. -/
def ParamsFit (params : List Param) : Prop :=
  (∀ p ∈ params, p.location ≠ .Local ∧ (p.fixed = none ∨ p.required = false)) ∧
    params.Pairwise fun p q => p.name ≠ q.name ∧ p.position ≠ q.position

theorem replace_params_ok_iff {id : Uuid} {params : List Param} :
    (∃ rows', replace_params id params rows = .ok rows') ↔ ParamsFit params := by
  have hmade : ∀ p : Param, (∃ r, param_to_active_model p id = .ok r ∧
      (r.fixed_value.isNone || !r.required) = true) ↔
        p.location ≠ .Local ∧ (p.fixed = none ∨ p.required = false) := by
    intro p
    unfold param_to_active_model
    by_cases hlocal : p.location = .Local <;> simp [hlocal]
  have hread : ∀ p r, param_to_active_model p id = .ok r →
      r.api_call_id = id ∧ r.name = p.name ∧ r.position = p.position := by
    intro p r h
    obtain ⟨hid, hparam⟩ := param_to_active_model_ok h
    exact ⟨hid, congrArg Param.name hparam, congrArg Param.position hparam⟩
  unfold replace_params ParamsFit
  rw [exists_bind_pure]
  simp only [← hmade]
  refine Table.replaced_ok_iff (fun t p t' => ?_) (fun p r h => (hread p r h.1).1) (fun a b hclash => ?_)
    fun p r q r' hr hr' => ?_
  · simp only [bind_eq_ok, db_err_eq_ok, require_eq_ok, exists_const, and_assoc]
  · simp only [api_call_params.indexes, Indexes.or, Indexes.on, Bool.or_eq_true, decide_eq_true_eq,
      Prod.mk.injEq] at hclash
    exact hclash.elim And.left And.left
  · obtain ⟨hid, hname, hposition⟩ := hread p r hr.1
    obtain ⟨hid', hname', hposition'⟩ := hread q r' hr'.1
    simp [api_call_params.indexes, Indexes.or, Indexes.on, hid, hname, hposition, hid', hname', hposition']

end api_call

namespace script

/-- The params that a script's rows take. -/
def ParamsFit (params : List Param) : Prop :=
  (∀ p ∈ params, p.location = .Local) ∧ params.Pairwise fun p q => p.name ≠ q.name ∧ p.position ≠ q.position

theorem replace_params_ok_iff {id : Uuid} {params : List Param} :
    (∃ rows', replace_params id params rows = .ok rows') ↔ ParamsFit params := by
  have hmade : ∀ p : Param, (∃ r, param_to_active_model p id = .ok r) ↔ p.location = .Local := by
    intro p
    unfold param_to_active_model
    by_cases hlocal : p.location = .Local <;> simp [hlocal]
  have hread : ∀ p r, param_to_active_model p id = .ok r →
      r.script_id = id ∧ r.name = p.name ∧ r.position = p.position := by
    intro p r h
    obtain ⟨hid, hparam⟩ := param_to_active_model_ok h
    exact ⟨hid, congrArg Param.name hparam, congrArg Param.position hparam⟩
  unfold replace_params ParamsFit
  rw [exists_bind_pure]
  simp only [← hmade]
  refine Table.replaced_ok_iff (fun t p t' => ?_) (fun p r h => (hread p r h).1) (fun a b hclash => ?_)
    fun p r q r' hr hr' => ?_
  · simp only [bind_eq_ok, db_err_eq_ok]
  · simp only [script_params.indexes, Indexes.or, Indexes.on, Bool.or_eq_true, decide_eq_true_eq,
      Prod.mk.injEq] at hclash
    exact hclash.elim And.left And.left
  · obtain ⟨hid, hname, hposition⟩ := hread p r hr
    obtain ⟨hid', hname', hposition'⟩ := hread q r' hr'
    simp [script_params.indexes, Indexes.or, Indexes.on, hid, hname, hposition, hid', hname', hposition']

theorem exists_api_call_id {owner_id : Uuid} {slug : Slug} :
    (∃ id, api_call_id owner_id slug rows = .ok id) ↔
      ∃ c ∈ rows.api_calls.rows, c.owner_id = owner_id ∧ c.slug = slug := by
  constructor
  · rintro ⟨id, h⟩
    obtain ⟨c, hc, howner, hslug, _⟩ := api_call_id_eq_ok h
    exact ⟨c, hc, howner, hslug⟩
  · rintro ⟨c, hc, howner, hslug⟩
    refine ⟨c.id, ?_⟩
    rw [api_call_id, api_call.find_by_slug.mpr ⟨hc, howner, hslug⟩]

/-- The entries name calls of the owner. -/
theorem replace_callable_ok_iff {owner_id id : Uuid} {callable : BTreeMap String Slug} (hsorted : callable.Sorted) :
    (∃ rows', replace_callable owner_id id callable rows = .ok rows') ↔
      ∀ kv ∈ callable, ∃ c ∈ rows.api_calls.rows, c.owner_id = owner_id ∧ c.slug = kv.2 := by
  have hmade : ∀ kv : String × Slug, (∃ r : script_api_calls.Model,
      ∃ call_id, api_call_id owner_id kv.2 rows = .ok call_id ∧ r = ⟨id, call_id, kv.1⟩) ↔
        ∃ c ∈ rows.api_calls.rows, c.owner_id = owner_id ∧ c.slug = kv.2 := by
    intro kv
    rw [← exists_api_call_id, exists_comm]
    simp only [exists_and_left, exists_eq, and_true]
  unfold replace_callable
  rw [exists_bind_pure, ← and_iff_left (a := ∀ kv ∈ callable, _) hsorted.apart]
  simp only [← hmade]
  refine Table.replaced_ok_iff (fun t kv t' => ?_) ?_ (fun a b hclash => ?_) ?_
  · simp only [bind_eq_ok, db_err_eq_ok, ↓existsAndEq, and_true]
  · rintro kv r ⟨_, _, rfl⟩
    rfl
  · simp only [script_api_calls.indexes, Indexes.on, decide_eq_true_eq, Prod.mk.injEq] at hclash
    exact hclash.1
  · rintro kv r kv' r' ⟨_, _, rfl⟩ ⟨_, _, rfl⟩
    simp [script_api_calls.indexes, Indexes.on]

end script

namespace endpoint

/-- No target has two names. -/
def AliasesFit (aliases : BTreeMap String EndpointTarget) : Prop := aliases.Pairwise fun kv kv' => kv.2 ≠ kv'.2

theorem replace_aliases_ok_iff {id : Uuid} {aliases : BTreeMap String EndpointTarget} (hsorted : aliases.Sorted) :
    (∃ rows', replace_aliases id aliases rows = .ok rows') ↔ AliasesFit aliases := by
  have hapart : AliasesFit aliases ↔ (∀ kv ∈ aliases, ∃ r : endpoint_aliases.Model, r = ⟨id, kv.2, kv.1⟩) ∧
      aliases.Pairwise fun kv kv' => kv.1 ≠ kv'.1 ∧ kv.2 ≠ kv'.2 := by
    rw [List.pairwise_and_iff, AliasesFit]
    simp [hsorted.apart]
  unfold replace_aliases
  rw [exists_bind_pure, hapart]
  refine Table.replaced_ok_iff (fun t kv t' => ?_) ?_ (fun a b hclash => ?_) ?_
  · simp only [db_err_eq_ok, exists_eq_left]
  · rintro kv r rfl
    rfl
  · simp only [endpoint_aliases.indexes, Indexes.or, Indexes.on, Bool.or_eq_true, decide_eq_true_eq,
      Prod.mk.injEq] at hclash
    exact hclash.elim And.left And.left
  · rintro kv r kv' r' rfl rfl
    simp [endpoint_aliases.indexes, Indexes.or, Indexes.on]

theorem exists_auth_provider_id {owner_id : Uuid} {slug : Slug} :
    (∃ id, auth_provider_id owner_id slug rows = .ok id) ↔
      ∃ p ∈ rows.auth_providers.rows, p.owner_id = owner_id ∧ p.slug = slug := by
  constructor
  · rintro ⟨id, h⟩
    obtain ⟨p, hp, howner, hslug, _⟩ := auth_provider_id_eq_ok h
    exact ⟨p, hp, howner, hslug⟩
  · rintro ⟨p, hp, howner, hslug⟩
    have hfind : (rows.auth_providers.find fun r => r.owner_id = owner_id && r.slug = slug) = some p := by
      refine Table.find_of_mem hp (by simp [howner, hslug]) fun a ha hkey => ?_
      simp only [Bool.and_eq_true, decide_eq_true_eq] at hkey
      simp [auth_providers.indexes, Indexes.or, Indexes.on, hkey, howner, hslug]
    refine ⟨p.id, ?_⟩
    rw [auth_provider_id, hfind]

/-- The scope names providers of the owner. -/
theorem replace_auth_providers_ok_iff {owner_id id : Uuid} {wanted : BTreeSet Slug} (hsorted : wanted.Sorted) :
    (∃ rows', replace_auth_providers owner_id id wanted rows = .ok rows') ↔
      ∀ slug ∈ wanted, ∃ p ∈ rows.auth_providers.rows, p.owner_id = owner_id ∧ p.slug = slug := by
  have hmade : ∀ slug, (∃ r : endpoint_auth_providers.Model,
      ∃ provider_id, auth_provider_id owner_id slug rows = .ok provider_id ∧ r = ⟨id, provider_id⟩) ↔
        ∃ p ∈ rows.auth_providers.rows, p.owner_id = owner_id ∧ p.slug = slug := by
    intro slug
    rw [← exists_auth_provider_id, exists_comm]
    simp only [exists_and_left, exists_eq, and_true]
  unfold replace_auth_providers
  rw [exists_bind_pure, ← and_iff_left (a := ∀ slug ∈ wanted, _) hsorted.apart]
  simp only [← hmade]
  refine Table.replaced_ok_iff (fun t slug t' => ?_) ?_ (fun a b hclash => ?_) ?_
  · simp only [bind_eq_ok, db_err_eq_ok, ↓existsAndEq, and_true]
  · rintro slug r ⟨_, _, rfl⟩
    rfl
  · simp only [endpoint_auth_providers.indexes, Indexes.on, id_eq, decide_eq_true_eq] at hclash
    rw [hclash]
  · rintro slug r slug' r' ⟨k, hk, rfl⟩ ⟨k', hk', rfl⟩
    obtain ⟨p, hp, _, hslug, hpid⟩ := auth_provider_id_eq_ok hk
    obtain ⟨p', hp', _, hslug', hpid'⟩ := auth_provider_id_eq_ok hk'
    have hsame : k = k' ↔ slug = slug' := by
      constructor
      · rintro rfl
        rw [← hslug, ← hslug', auth_providers.eq_of_id hp hp' (hpid.trans hpid'.symm)]
      · rintro rfl
        exact Except.ok.inj (hk.symm.trans hk')
    simp [endpoint_auth_providers.indexes, Indexes.on, hsame]

end endpoint

namespace tag

/-- The keys drawn for new tags are no other tag's. -/
def KeysFree (tag_id : Tag → Uuid) (rows : Rows) : Prop := ∀ t, ∀ r ∈ rows.tags.rows, r.id = tag_id t → r.name = t.name

/-- A tag is there already, or is put there under the key drawn for it. -/
theorem ensure_ok {tag_id : Tag → Uuid} (hinj : Function.Injective tag_id) (hfree : KeysFree tag_id rows) (t : Tag) :
    ∃ k mid, ensure tag_id t rows = .ok (k, mid) ∧ KeysFree tag_id mid := by
  unfold ensure
  cases hfind : rows.tags.find fun r => r.name = t.name with
  | some row => exact ⟨row.id, rows, rfl, hfree⟩
  | none =>
    have hnone : ∀ r ∈ rows.tags.rows, r.name ≠ t.name := by
      intro r hr
      simpa using Table.find_eq_none.mp hfind r hr
    obtain ⟨table, htable⟩ := Table.exists_insert (t := rows.tags) (r := ⟨tag_id t, t.name⟩) fun a ha => by
      have hname := hnone a ha
      have hid : a.id ≠ tag_id t := fun hid => hname (hfree t a ha hid)
      simp [tags.indexes, Indexes.or, Indexes.on, hname, hid]
    refine ⟨tag_id t, { rows with tags := table }, ?_, fun t' r hr hid => ?_⟩
    · simp only [htable]
      rfl
    · obtain hr | rfl := (Table.mem_of_insert htable).mp hr
      · exact hfree t' r hr hid
      · rw [hinj hid]

/-- Tags of different names can be joined to an item in turn. -/
theorem foldlM_ok {tag_id : Tag → Uuid} (hinj : Function.Injective tag_id) (joined : Rows → List Uuid)
    {step : Rows → Tag → Except StoreError Rows}
    (hstep : ∀ rows t k mid, ensure tag_id t rows = .ok (k, mid) → k ∉ joined rows →
      ∃ rows', step rows t = .ok rows' ∧ rows'.tags = mid.tags ∧ joined rows' = joined rows ++ [k])
    {wanted : List Tag} (hapart : wanted.Pairwise (· ≠ ·)) (hfree : KeysFree tag_id rows)
    (hjoined : ∀ k ∈ joined rows, ∃ r ∈ rows.tags.rows, r.id = k ∧ ∀ t ∈ wanted, r.name ≠ t.name) :
    ∃ rows', wanted.foldlM step rows = .ok rows' := by
  induction wanted generalizing rows with
  | nil => exact ⟨rows, rfl⟩
  | cons t rest ih =>
    obtain ⟨hhead, hrest⟩ := List.pairwise_cons.mp hapart
    obtain ⟨k, mid, hensure, hfree'⟩ := ensure_ok hinj hfree t
    obtain ⟨hgrow, r, hr, hid, hname⟩ := ensure_spec hensure
    have hnew : k ∉ joined rows := by
      intro hk
      obtain ⟨r', hr', hid', hother⟩ := hjoined k hk
      have hsame : r' = r := Table.eq_of_clash (hgrow r' hr') hr (by
        simp [tags.indexes, Indexes.or, Indexes.on, hid, hid'])
      exact hother t List.mem_cons_self (hsame ▸ hname)
    obtain ⟨next, hnext, htags, hids⟩ := hstep rows t k mid hensure hnew
    obtain ⟨rows', hrows'⟩ := @ih next hrest (by rwa [KeysFree, htags]) fun k' hk' => by
      rw [htags]
      rw [hids, List.mem_append, List.mem_singleton] at hk'
      obtain hk' | rfl := hk'
      · obtain ⟨r', hr', hid', hother⟩ := hjoined k' hk'
        exact ⟨r', hgrow r' hr', hid', fun t' ht' => hother t' (List.mem_cons_of_mem t ht')⟩
      · refine ⟨r, hr, hid, fun t' ht' hsame => hhead t' ht' ?_⟩
        rw [hname] at hsame
        cases t
        cases t'
        cases hsame
        rfl
    refine ⟨rows', ?_⟩
    rw [List.foldlM_cons, hnext]
    exact hrows'

theorem set_api_call_tags_ok {tag_id : Tag → Uuid} (hinj : Function.Injective tag_id) (hfree : KeysFree tag_id rows)
    (id : Uuid) {wanted : BTreeSet Tag} (hsorted : wanted.Sorted) :
    ∃ rows', set_api_call_tags tag_id id wanted rows = .ok rows' := by
  refine foldlM_ok hinj (fun rows => ids_of_api_call rows id) (fun rows t k mid hensure hnew => ?_) hsorted.apart hfree
    fun k hk => ?_
  · have hfoot := ensure_footprint hensure
    obtain ⟨table, htable⟩ := Table.exists_insert (t := mid.api_call_tags) (r := ⟨id, k⟩) fun a ha => by
      rw [hfoot] at ha
      simp only [api_call_tags.indexes, Indexes.on, id_eq, decide_eq_false_iff_not]
      rintro rfl
      exact hnew (List.mem_map.mpr ⟨_, Table.mem_select.mpr ⟨ha, decide_eq_true rfl⟩, rfl⟩)
    refine ⟨{ mid with api_call_tags := table }, ?_, rfl, ?_⟩
    · simp only [bind_eq_ok, db_err_eq_ok, pure_eq_ok]
      exact ⟨(k, mid), hensure, table, htable, rfl⟩
    · rw [hfoot] at htable
      simp [ids_of_api_call, Table.select, Table.rows_of_insert htable]
  · simp [ids_of_api_call, Table.select, Table.delete] at hk

theorem set_script_tags_ok {tag_id : Tag → Uuid} (hinj : Function.Injective tag_id) (hfree : KeysFree tag_id rows)
    (id : Uuid) {wanted : BTreeSet Tag} (hsorted : wanted.Sorted) :
    ∃ rows', set_script_tags tag_id id wanted rows = .ok rows' := by
  refine foldlM_ok hinj (fun rows => ids_of_script rows id) (fun rows t k mid hensure hnew => ?_) hsorted.apart hfree
    fun k hk => ?_
  · have hfoot := ensure_footprint hensure
    obtain ⟨table, htable⟩ := Table.exists_insert (t := mid.script_tags) (r := ⟨id, k⟩) fun a ha => by
      rw [hfoot] at ha
      simp only [script_tags.indexes, Indexes.on, id_eq, decide_eq_false_iff_not]
      rintro rfl
      exact hnew (List.mem_map.mpr ⟨_, Table.mem_select.mpr ⟨ha, decide_eq_true rfl⟩, rfl⟩)
    refine ⟨{ mid with script_tags := table }, ?_, rfl, ?_⟩
    · simp only [bind_eq_ok, db_err_eq_ok, pure_eq_ok]
      exact ⟨(k, mid), hensure, table, htable, rfl⟩
    · rw [hfoot] at htable
      simp [ids_of_script, Table.select, Table.rows_of_insert htable]
  · simp [ids_of_script, Table.select, Table.delete] at hk

end tag

/-! What is created where nothing of its name is, and updated where it is. -/

variable {tag_id : Tag → Uuid}

namespace service

theorem create_ok {s : Service} {id : Uuid} (hget : Query.Yields (· = rows) (get_by_slug s.owner_id s.slug) none)
    (hid : ∀ r ∈ rows.services.rows, r.id ≠ id)
    (hkey : ∀ r ∈ rows.services.rows, row_key r ≠ (s.owner_id, s.slug)) :
    ∃ rows', Performs (create s id) rows rows' := by
  obtain ⟨table, htable⟩ := Table.exists_insert_new (t := rows.services) (r := to_active_model s id) hid hkey
  refine ⟨{ rows with services := table }, .create_service s id, ?_, ?_⟩
  · exact Query.yields_bind.mpr ⟨none, hget, Query.yields_pure.mpr rfl⟩
  · simp only [Write.apply, insert, bind_eq_ok, db_err_eq_ok, pure_eq_ok]
    exact ⟨table, htable, rfl⟩

theorem update_ok {s : Service} {found : services.Model} (hfound : found ∈ rows.services.rows)
    (howner : found.owner_id = s.owner_id) (hslug : found.slug = s.slug) : ∃ rows', Performs (update s) rows rows' := by
  obtain ⟨table, htable⟩ := Table.exists_modify_same (t := rows.services) (r := to_active_model s found.id) hfound rfl
    (Prod.ext howner hslug)
  refine ⟨{ rows with services := table }, .update_service s found.id, ?_, ?_⟩
  · refine Query.yields_bind.mpr ⟨found.id, ?_, Query.yields_pure.mpr rfl⟩
    exact yields_id_by_slug.mpr ⟨found, hfound, howner, hslug, rfl⟩
  · simp only [Write.apply, set, bind_eq_ok, db_err_eq_ok, require_eq_ok, pure_eq_ok]
    exact ⟨(), by rw [find_by_id.mpr ⟨hfound, rfl⟩]; rfl, table, htable, rfl⟩

end service

namespace api_call

theorem parts_ok {id : Uuid} {params : List Param} {tags : BTreeSet Tag} (hinj : Function.Injective tag_id)
    (hfree : tag.KeysFree tag_id rows) (hsorted : tags.Sorted) (hparams : ParamsFit params) :
    ∃ mid rows', replace_params id params rows = .ok mid ∧ tag.set_api_call_tags tag_id id tags mid = .ok rows' := by
  obtain ⟨mid, hmid⟩ := (@replace_params_ok_iff rows id params).mpr hparams
  have hfree' : tag.KeysFree tag_id mid := by
    rw [replace_params_footprint hmid]
    exact hfree
  obtain ⟨rows', hrows'⟩ := tag.set_api_call_tags_ok hinj hfree' id hsorted
  exact ⟨mid, rows', hmid, hrows'⟩

theorem create_ok {call : ApiCall} {tags : BTreeSet Tag} {id : Uuid} (hinj : Function.Injective tag_id)
    (hfree : tag.KeysFree tag_id rows) (hsorted : tags.Sorted)
    (hget : Query.Yields (· = rows) (get call.owner_id call.service_slug call.slug) none)
    (hservice : ∃ s ∈ rows.services.rows, s.owner_id = call.owner_id ∧ s.slug = call.service_slug)
    (hid : ∀ r ∈ rows.api_calls.rows, r.id ≠ id)
    (hkey : ∀ r ∈ rows.api_calls.rows, row_key r ≠ (call.owner_id, call.slug))
    (hmethod : ck_method call.method = true) (hparams : ParamsFit call.params) :
    ∃ rows', Performs (create tag_id call tags id) rows rows' := by
  obtain ⟨s, hs, howner, hslug⟩ := hservice
  obtain ⟨table, htable⟩ := Table.exists_insert_new (t := rows.api_calls) (r := to_active_model call id s.id) hid hkey
  obtain ⟨mid, rows', hmid, hrows'⟩ := @parts_ok { rows with api_calls := table } tag_id id call.params tags hinj hfree
    hsorted hparams
  refine ⟨rows', .create_api_call tag_id call tags id s.id, ?_, ?_⟩
  · refine Query.yields_bind.mpr ⟨none, hget, ?_⟩
    exact Query.yields_bind.mpr ⟨s.id, service.yields_id_by_slug.mpr ⟨s, hs, howner, hslug, rfl⟩, Query.yields_pure.mpr rfl⟩
  · simp only [Write.apply, insert, bind_eq_ok, db_err_eq_ok, require_eq_ok]
    exact ⟨(), by rw [service.find_by_id.mpr ⟨hs, rfl⟩]; rfl, (), hmethod, table, htable, mid, hmid, hrows'⟩

theorem update_ok {call : ApiCall} {tags : BTreeSet Tag} {found : api_calls.Model} {s : services.Model}
    (hinj : Function.Injective tag_id) (hfree : tag.KeysFree tag_id rows) (hsorted : tags.Sorted)
    (hfound : found ∈ rows.api_calls.rows) (howner : found.owner_id = call.owner_id) (hslug : found.slug = call.slug)
    (hs : s ∈ rows.services.rows) (hid : s.id = found.service_id) (hsowner : s.owner_id = call.owner_id)
    (hsslug : s.slug = call.service_slug) (hmethod : ck_method call.method = true) (hparams : ParamsFit call.params) :
    ∃ rows', Performs (update tag_id call tags) rows rows' := by
  obtain ⟨table, htable⟩ := Table.exists_modify_same (t := rows.api_calls)
    (r := to_active_model call found.id s.id) hfound rfl (Prod.ext howner hslug)
  obtain ⟨mid, rows', hmid, hrows'⟩ := @parts_ok { rows with api_calls := table } tag_id found.id call.params tags hinj
    hfree hsorted hparams
  refine ⟨rows', .update_api_call tag_id call tags found.id s.id, ?_, ?_⟩
  · refine Query.yields_bind.mpr ⟨found.id, ?_, ?_⟩
    · exact yields_id_by_slug.mpr ⟨s, hs, hsowner, hsslug, found, hfound, howner, hid.symm, hslug, rfl⟩
    · refine Query.yields_bind.mpr ⟨s.id, ?_, Query.yields_pure.mpr rfl⟩
      exact service.yields_id_by_slug.mpr ⟨s, hs, hsowner, hsslug, rfl⟩
  · simp only [Write.apply, set, bind_eq_ok, db_err_eq_ok, require_eq_ok]
    exact ⟨(), by rw [service.find_by_id.mpr ⟨hs, rfl⟩]; rfl, (), by rw [find_by_id.mpr ⟨hfound, rfl⟩]; rfl, (), hmethod,
      table, htable, mid, hmid, hrows'⟩

end api_call

namespace script

theorem parts_ok {script : ScriptDef} {id : Uuid} {tags : BTreeSet Tag} (hinj : Function.Injective tag_id)
    (hfree : tag.KeysFree tag_id rows) (hsorted : tags.Sorted) (hcsorted : script.callable.Sorted)
    (hparams : ParamsFit script.params)
    (hcallable : ∀ kv ∈ script.callable, ∃ c ∈ rows.api_calls.rows, c.owner_id = script.owner_id ∧ c.slug = kv.2) :
    ∃ first second rows', replace_params id script.params rows = .ok first ∧
      replace_callable script.owner_id id script.callable first = .ok second ∧
      tag.set_script_tags tag_id id tags second = .ok rows' := by
  obtain ⟨first, hfirst⟩ := (@replace_params_ok_iff rows id script.params).mpr hparams
  have hfoot := replace_params_footprint hfirst
  obtain ⟨second, hsecond⟩ := (@replace_callable_ok_iff first script.owner_id id script.callable hcsorted).mpr (by
    rw [hfoot]
    exact hcallable)
  have hfree' : tag.KeysFree tag_id second := by
    rw [replace_callable_footprint hsecond, hfoot]
    exact hfree
  obtain ⟨rows', hrows'⟩ := tag.set_script_tags_ok hinj hfree' id hsorted
  exact ⟨first, second, rows', hfirst, hsecond, hrows'⟩

theorem create_ok {script : ScriptDef} {tags : BTreeSet Tag} {id : Uuid} (hinj : Function.Injective tag_id)
    (hfree : tag.KeysFree tag_id rows) (hsorted : tags.Sorted) (hcsorted : script.callable.Sorted)
    (hget : Query.Yields (· = rows) (get script.owner_id script.slug) none) (hid : ∀ r ∈ rows.scripts.rows, r.id ≠ id)
    (hkey : ∀ r ∈ rows.scripts.rows, row_key r ≠ (script.owner_id, script.slug)) (hparams : ParamsFit script.params)
    (hcallable : ∀ kv ∈ script.callable, ∃ c ∈ rows.api_calls.rows, c.owner_id = script.owner_id ∧ c.slug = kv.2) :
    ∃ rows', Performs (create tag_id script tags id) rows rows' := by
  obtain ⟨table, htable⟩ := Table.exists_insert_new (t := rows.scripts) (r := to_active_model script id) hid hkey
  obtain ⟨first, second, rows', hfirst, hsecond, hrows'⟩ := @parts_ok { rows with scripts := table } tag_id script id
    tags hinj hfree hsorted hcsorted hparams hcallable
  refine ⟨rows', .create_script tag_id script tags id, ?_, ?_⟩
  · exact Query.yields_bind.mpr ⟨none, hget, Query.yields_pure.mpr rfl⟩
  · simp only [Write.apply, insert, bind_eq_ok, db_err_eq_ok]
    exact ⟨table, htable, first, hfirst, second, hsecond, hrows'⟩

theorem find_by_id {id : Uuid} {row : scripts.Model} (hrow : row ∈ rows.scripts.rows) (hid : row.id = id) :
    (rows.scripts.find fun r => r.id = id) = some row :=
  Table.find_of_mem hrow (decide_eq_true hid) fun _ _ ha => clash_of_id ((of_decide_eq_true ha).trans hid.symm)

theorem update_ok {script : ScriptDef} {tags : BTreeSet Tag} {found : scripts.Model}
    (hinj : Function.Injective tag_id) (hfree : tag.KeysFree tag_id rows) (hsorted : tags.Sorted)
    (hcsorted : script.callable.Sorted) (hfound : found ∈ rows.scripts.rows) (howner : found.owner_id = script.owner_id)
    (hslug : found.slug = script.slug) (hparams : ParamsFit script.params)
    (hcallable : ∀ kv ∈ script.callable, ∃ c ∈ rows.api_calls.rows, c.owner_id = script.owner_id ∧ c.slug = kv.2) :
    ∃ rows', Performs (update tag_id script tags) rows rows' := by
  obtain ⟨table, htable⟩ := Table.exists_modify_same (t := rows.scripts) (r := to_active_model script found.id) hfound rfl
    (Prod.ext howner hslug)
  obtain ⟨first, second, rows', hfirst, hsecond, hrows'⟩ := @parts_ok { rows with scripts := table } tag_id script
    found.id tags hinj hfree hsorted hcsorted hparams hcallable
  refine ⟨rows', .update_script tag_id script tags found.id, ?_, ?_⟩
  · refine Query.yields_bind.mpr ⟨found.id, ?_, Query.yields_pure.mpr rfl⟩
    exact yields_id_by_slug.mpr ⟨found, hfound, howner, hslug, rfl⟩
  · simp only [Write.apply, set, bind_eq_ok, db_err_eq_ok, require_eq_ok]
    exact ⟨(), by rw [find_by_id hfound rfl]; rfl, table, htable, first, hfirst, second, hsecond, hrows'⟩

end script

namespace endpoint

theorem parts_ok {e : EndpointDef} {id : Uuid} (hasorted : e.aliases.Sorted) (hpsorted : e.auth_providers.Sorted)
    (haliases : AliasesFit e.aliases)
    (hscope : ∀ slug ∈ e.auth_providers, ∃ p ∈ rows.auth_providers.rows, p.owner_id = e.owner_id ∧ p.slug = slug) :
    ∃ mid rows', replace_aliases id e.aliases rows = .ok mid ∧
      replace_auth_providers e.owner_id id e.auth_providers mid = .ok rows' := by
  obtain ⟨mid, hmid⟩ := (@replace_aliases_ok_iff rows id e.aliases hasorted).mpr haliases
  have hfoot := replace_aliases_footprint hmid
  obtain ⟨rows', hrows'⟩ := (@replace_auth_providers_ok_iff mid e.owner_id id e.auth_providers hpsorted).mpr (by
    rw [hfoot]
    exact hscope)
  exact ⟨mid, rows', hmid, hrows'⟩

theorem create_ok {e : EndpointDef} {id : Uuid} (hasorted : e.aliases.Sorted) (hpsorted : e.auth_providers.Sorted)
    (hget : Query.Yields (· = rows) (get e.owner_id e.slug) none) (hid : ∀ r ∈ rows.endpoints.rows, r.id ≠ id)
    (hkey : ∀ r ∈ rows.endpoints.rows, row_key r ≠ (e.owner_id, e.slug)) (haliases : AliasesFit e.aliases)
    (hscope : ∀ slug ∈ e.auth_providers, ∃ p ∈ rows.auth_providers.rows, p.owner_id = e.owner_id ∧ p.slug = slug) :
    ∃ rows', Performs (create e id) rows rows' := by
  obtain ⟨table, htable⟩ := Table.exists_insert_new (t := rows.endpoints) (r := to_active_model e id) hid hkey
  obtain ⟨mid, rows', hmid, hrows'⟩ := @parts_ok { rows with endpoints := table } e id hasorted hpsorted haliases hscope
  refine ⟨rows', .create_endpoint e id, ?_, ?_⟩
  · exact Query.yields_bind.mpr ⟨none, hget, Query.yields_pure.mpr rfl⟩
  · simp only [Write.apply, insert, bind_eq_ok, db_err_eq_ok]
    exact ⟨table, htable, mid, hmid, hrows'⟩

theorem find_by_id {id : Uuid} {row : endpoints.Model} (hrow : row ∈ rows.endpoints.rows) (hid : row.id = id) :
    (rows.endpoints.find fun r => r.id = id) = some row :=
  Table.find_of_mem hrow (decide_eq_true hid) fun _ _ ha => clash_of_id ((of_decide_eq_true ha).trans hid.symm)

theorem update_ok {e : EndpointDef} {found : endpoints.Model} (hasorted : e.aliases.Sorted)
    (hpsorted : e.auth_providers.Sorted) (hfound : found ∈ rows.endpoints.rows) (howner : found.owner_id = e.owner_id)
    (hslug : found.slug = e.slug) (haliases : AliasesFit e.aliases)
    (hscope : ∀ slug ∈ e.auth_providers, ∃ p ∈ rows.auth_providers.rows, p.owner_id = e.owner_id ∧ p.slug = slug) :
    ∃ rows', Performs (update e) rows rows' := by
  obtain ⟨table, htable⟩ := Table.exists_modify_same (t := rows.endpoints) (r := to_active_model e found.id) hfound rfl
    (Prod.ext howner hslug)
  obtain ⟨mid, rows', hmid, hrows'⟩ := @parts_ok { rows with endpoints := table } e found.id hasorted hpsorted haliases
    hscope
  refine ⟨rows', .update_endpoint e found.id, ?_, ?_⟩
  · refine Query.yields_bind.mpr ⟨found.id, ?_, Query.yields_pure.mpr rfl⟩
    exact yields_id_by_slug.mpr ⟨found, hfound, howner, hslug, rfl⟩
  · simp only [Write.apply, set, bind_eq_ok, db_err_eq_ok, require_eq_ok]
    exact ⟨(), by rw [find_by_id hfound rfl]; rfl, table, htable, mid, hmid, hrows'⟩

end endpoint

end api2mcp.store
