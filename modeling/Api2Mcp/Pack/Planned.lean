import Api2Mcp.Pack.Portable

namespace api2mcp.resolve

open relational btree concurrent except
open api2mcp.model api2mcp.store api2mcp.entity

section

variable {json : serde_json.JsonCrate} {rows : Rows} {owner_id : Uuid} {tag_expr : TagExpr}
  {all : List api_call.TaggedApiCall}

/-- The compiled api_calls are those of the selected ones. -/
theorem mem_compile_selected (hapart : all.Pairwise fun a b => a.api_call.slug ≠ b.api_call.slug)
    {calls : BTreeMap Slug PlannedApiCall}
    (h : Query.Yields (· = rows) (compile_selected json owner_id tag_expr all) calls) (kv : Slug × PlannedApiCall) :
    kv ∈ calls ↔ ∃ t ∈ all, eval_tag_expr t.tags tag_expr = true ∧ t.api_call.slug = kv.1 ∧
      Query.Yields (· = rows) (compile_api_call json owner_id t.api_call) kv.2 := by
  obtain ⟨hfrom, hall⟩ := compile_selected_ok h
  refine ⟨hfrom kv, ?_⟩
  rintro ⟨t, ht, hselected, hslug, hcompile⟩
  obtain ⟨planned, hget⟩ := hall t ht hselected
  have hmem := BTreeMap.mem_of_get hget
  obtain ⟨t', ht', _, hslug', hcompile'⟩ := hfrom _ hmem
  obtain rfl := eq_of_slug hapart ht' ht hslug'
  have hsame : planned = kv.2 := hcompile'.unique hcompile
  rwa [hslug, hsame] at hmem

theorem sorted_compile_selected {calls : BTreeMap Slug PlannedApiCall}
    (h : Query.Yields (· = rows) (compile_selected json owner_id tag_expr all) calls) : calls.Sorted := by
  refine Query.Yields.foldlM BTreeMap.Sorted h .nil fun t _ before after hsorted hstep => ?_
  split at hstep
  · rw [Query.yields_bind] at hstep
    obtain ⟨planned, _, hstep⟩ := hstep
    obtain rfl := Query.yields_pure.mp hstep
    exact BTreeMap.sorted_insert hsorted _ _
  · obtain rfl := Query.yields_pure.mp hstep
    exact hsorted

theorem exists_compile_selected (h : ∀ t ∈ all, eval_tag_expr t.tags tag_expr = true →
      ∃ planned, Query.Yields (· = rows) (compile_api_call json owner_id t.api_call) planned) :
    ∃ calls, Query.Yields (· = rows) (compile_selected json owner_id tag_expr all) calls := by
  unfold compile_selected
  generalize ([] : BTreeMap Slug PlannedApiCall) = start
  induction all generalizing start with
  | nil => exact ⟨start, Query.yields_pure.mpr rfl⟩
  | cons t all ih =>
    simp only [List.foldlM_cons, Query.yields_bind]
    have hrest := ih fun t' ht' => h t' (List.mem_cons_of_mem t ht')
    by_cases hselected : eval_tag_expr t.tags tag_expr = true
    · obtain ⟨planned, hplanned⟩ := h t List.mem_cons_self hselected
      obtain ⟨calls, hcalls⟩ := hrest (BTreeMap.insert t.api_call.slug planned start)
      refine ⟨calls, _, ?_, hcalls⟩
      rw [if_pos hselected, Query.yields_bind]
      exact ⟨planned, hplanned, Query.yields_pure.mpr rfl⟩
    · obtain ⟨calls, hcalls⟩ := hrest start
      refine ⟨calls, start, ?_, hcalls⟩
      rw [if_neg hselected]
      exact Query.yields_pure.mpr rfl

theorem mem_selected_scripts {all : List script.TaggedScript}
    (hapart : all.Pairwise fun a b => a.script.slug ≠ b.script.slug) (kv : Slug × ScriptDef) :
    kv ∈ selected_scripts tag_expr all ↔
      ∃ t ∈ all, eval_tag_expr t.tags tag_expr = true ∧ kv = (t.script.slug, t.script) := by
  have hkeys : (((all.filter fun t => eval_tag_expr t.tags tag_expr).map fun t => (t.script.slug, t.script)).map
      Prod.fst).Nodup := by
    rw [List.map_map]
    exact List.pairwise_map.mpr (hapart.filter _)
  rw [selected_scripts, BTreeMap.mem_collect hkeys, List.mem_map]
  constructor
  · rintro ⟨t, ht, rfl⟩
    obtain ⟨ht, hselected⟩ := List.mem_filter.mp ht
    exact ⟨t, ht, hselected, rfl⟩
  · rintro ⟨t, ht, hselected, rfl⟩
    exact ⟨t, List.mem_filter.mpr ⟨ht, hselected⟩, rfl⟩

/-- Nothing is asked of an owner without providers. -/
theorem bound_of_no_providers (hnone : ∀ r ∈ rows.auth_providers.rows, r.owner_id ≠ owner_id)
    (calls : BTreeMap Slug PlannedApiCall) (scope : BTreeSet Slug) :
    Query.Yields (· = rows) (assert_bound owner_id calls scope) () := by
  have hget : ∀ slug, Query.Yields (· = rows) (auth_provider.get_for_service owner_id slug) none := by
    intro slug
    obtain ⟨found, hfound⟩ := @exists_service_id rows owner_id slug
    rw [auth_provider.get_for_service, Query.yields_bind]
    refine ⟨found, hfound, ?_⟩
    cases found with
    | none => exact Query.yields_pure.mpr rfl
    | some service_id =>
      have hfind : (rows.auth_providers.find fun r => r.owner_id = owner_id && r.service_id = service_id) = none := by
        refine List.find?_eq_none.mpr fun r hr hmatch => ?_
        rw [Bool.and_eq_true] at hmatch
        exact hnone r hr (of_decide_eq_true hmatch.1)
      simp only [Query.yields_bind, yields_select, exists_eq_left', hfind]
      exact Query.yields_pure.mpr rfl
  refine Query.Yields.forM fun planned _ => ?_
  rw [Query.yields_bind]
  exact ⟨none, yields_read.mpr (hget _), Query.yields_pure.mpr rfl⟩

end

end api2mcp.resolve

namespace api2mcp.pack

open relational btree concurrent except
open api2mcp.model api2mcp.store api2mcp.entity api2mcp.resolve

/-! The plan of an endpoint that was imported. -/

def given_planned (owner_id : Uuid) (planned : PlannedApiCall) : PlannedApiCall :=
  { planned with
    api_call := given_api_call owner_id planned.api_call
    service := given_service owner_id planned.service }

/-- Whose the plan is has changed, and nothing that the plan serves. -/
def given_plan (owner_id : Uuid) (plan : EndpointPlan) : EndpointPlan :=
  { plan with
    owner_id
    calls := plan.calls.map fun kv => (kv.1, given_planned owner_id kv.2)
    scripts := plan.scripts.map fun kv => (kv.1, given_script owner_id kv.2) }

section

variable {json : serde_json.JsonCrate} {owner_id : Uuid}

theorem compile_on_given {call : ApiCall} {service : Service} {planned : PlannedApiCall}
    (h : compile_on json call service = .ok planned) :
    compile_on json (given_api_call owner_id call) (given_service owner_id service) = .ok (given_planned owner_id planned) := by
  simp only [compile_on, bind_eq_ok, mapError_eq_ok] at h ⊢
  obtain ⟨template, htemplate, _, hparams, origin, horigin, hrest⟩ := h
  refine ⟨template, htemplate, (), hparams, origin, horigin, ?_⟩
  have hsame : (given_api_call owner_id call).projection = call.projection := rfl
  rw [hsame]
  cases hprojection : call.projection with
  | none =>
    simp only [hprojection, bind_eq_ok, pure_eq_ok] at hrest ⊢
    obtain ⟨compiled, hcompiled, rfl⟩ := hrest
    exact ⟨compiled, hcompiled, rfl⟩
  | some p =>
    simp only [hprojection, bind_eq_ok, pure_eq_ok] at hrest ⊢
    obtain ⟨compiled, hcompiled, rfl⟩ := hrest
    exact ⟨compiled, hcompiled, rfl⟩

theorem contains_collect (origins : List Origin) (o : Origin) :
    Origin.contains (Origin.collect origins) o = Origin.contains origins o := by
  have htexts : ∀ set : List Origin, Origin.contains set o = true ↔
      o.ascii_serialization ∈ set.map Origin.ascii_serialization := by
    intro set
    simp [Origin.contains, List.any_eq_true]
  rw [Bool.eq_iff_iff, htexts, htexts, Origin.texts_of_collect, BTreeSet.mem_collect]

variable (calls : BTreeMap Slug PlannedApiCall) (scripts : BTreeMap Slug ScriptDef)

theorem values_given : BTreeMap.values (calls.map fun kv => (kv.1, given_planned owner_id kv.2)) =
    calls.values.map (given_planned owner_id) := by
  rw [BTreeMap.values, BTreeMap.values, List.map_map, List.map_map]
  rfl

theorem contains_key_given (slug : Slug) :
    BTreeMap.contains_key (calls.map fun kv => (kv.1, given_planned owner_id kv.2)) slug = calls.contains_key slug := by
  rw [BTreeMap.contains_key, BTreeMap.contains_key, BTreeMap.get_map calls (given_planned owner_id), Option.isSome_map]

theorem reachable_origins_given :
    reachable_origins (calls.map fun kv => (kv.1, given_planned owner_id kv.2)) = reachable_origins calls := by
  rw [reachable_origins, reachable_origins, values_given, List.foldlM_map]
  refine congrArg (fun f => List.foldlM f _ _) ?_
  funext origins planned
  change (if Origin.contains (Origin.collect planned.service.origin_allowlist) planned.origin then _ else _) = _
  rw [contains_collect]
  rfl

theorem assert_write_ceiling_given (write_ceiling : Access) :
    assert_write_ceiling (calls.map fun kv => (kv.1, given_planned owner_id kv.2)) write_ceiling =
      assert_write_ceiling calls write_ceiling := by
  rw [assert_write_ceiling, assert_write_ceiling, values_given]
  induction calls.values with
  | nil => rfl
  | cons planned rest ih =>
    rw [List.map_cons, List.forM, List.forM, ih]
    rfl

theorem build_tools_given (aliases : BTreeMap String EndpointTarget) (budgets : Budgets) :
    build_tools aliases budgets (calls.map fun kv => (kv.1, given_planned owner_id kv.2))
      (scripts.map fun kv => (kv.1, given_script owner_id kv.2)) = build_tools aliases budgets calls scripts := by
  have hnamed : ∀ by_target, named_tools by_target budgets (calls.map fun kv => (kv.1, given_planned owner_id kv.2))
      (scripts.map fun kv => (kv.1, given_script owner_id kv.2)) = named_tools by_target budgets calls scripts := by
    intro by_target
    rw [named_tools, named_tools, List.map_map, List.map_map]
    rfl
  simp only [build_tools, hnamed]

theorem callable_by_given :
    callable_by (calls.map fun kv => (kv.1, given_planned owner_id kv.2))
      (scripts.map fun kv => (kv.1, given_script owner_id kv.2)) = callable_by calls scripts := by
  rw [callable_by, callable_by, List.map_map]
  refine List.map_congr_left fun kv _ => ?_
  have hreachable : reachable (calls.map fun kv => (kv.1, given_planned owner_id kv.2)) (given_script owner_id kv.2) =
      reachable calls kv.2 := by
    unfold reachable
    simp only [contains_key_given]
    rfl
  rw [Function.comp_apply, hreachable]

theorem digest_given (sha256_hex : String → String) (slug : Slug) (write_ceiling : Access) (budgets : Budgets)
    (tools : List PlannedTool) :
    digest.compute json sha256_hex slug write_ceiling budgets (calls.map fun kv => (kv.1, given_planned owner_id kv.2))
      (scripts.map fun kv => (kv.1, given_script owner_id kv.2)) tools =
      digest.compute json sha256_hex slug write_ceiling budgets calls scripts tools := by
  simp only [digest.compute, List.map_map]
  rfl

end

section

variable {json : serde_json.JsonCrate} {sha256_hex : String → String} {rows rows₂ rows' : Rows} {e : EndpointDef}
  {owner_id : Uuid}

/-- What an api_call of the endpoint is compiled to. -/
theorem compile_given (h : Arrived rows e owner_id rows₂ rows') {t : api_call.TaggedApiCall}
    (ht : Needed rows e (.api_call t)) {planned : PlannedApiCall}
    (hcompile : Query.Yields (· = rows) (compile_api_call json e.owner_id t.api_call) planned) :
    Query.Yields (· = rows') (compile_api_call json owner_id (given_api_call owner_id t.api_call))
      (given_planned owner_id planned) := by
  obtain ⟨s, hservice, hon⟩ := compile_api_call_ok hcompile
  obtain ⟨hheld, howner, hslug⟩ := service.yields_get_by_slug.mp hservice
  have hneeded : Needed rows e (.service s) := needed_service_iff.mpr ⟨hheld, howner, t, ht, hslug.symm⟩
  have hthere : Holds rows' (.service (given_service owner_id s)) :=
    (h.holds (.service (given_service owner_id s)) rfl).mpr ⟨_, .inr hneeded, rfl⟩
  simp only [compile_api_call, Query.yields_bind, yields_read, yields_some_or, yields_check]
  exact ⟨_, service.yields_get_by_slug.mpr ⟨hthere, rfl, hslug⟩, _, rfl, compile_on_given hon⟩

/-- The endpoint selects for its new owner what it selected for the old one. -/
theorem compiled_given (h : Arrived rows e owner_id rows₂ rows') {all all' : List api_call.TaggedApiCall}
    (hall : Query.Yields (· = rows) (api_call.list_all e.owner_id) all)
    (hall' : Query.Yields (· = rows') (api_call.list_all owner_id) all') {calls : BTreeMap Slug PlannedApiCall}
    (hcalls : Query.Yields (· = rows) (compile_selected json e.owner_id e.tag_expr all) calls) :
    Query.Yields (· = rows') (compile_selected json owner_id e.tag_expr all')
      (calls.map fun kv => (kv.1, given_planned owner_id kv.2)) := by
  have hmem := mem_compile_selected (slugs_of_api_calls hall) hcalls
  have hneeded : ∀ t ∈ all, eval_tag_expr t.tags e.tag_expr = true → Needed rows e (.api_call t) := by
    intro t ht hselected
    obtain ⟨hheld, howner⟩ := (api_call.mem_list_all hall).mp ht
    exact .selected hheld ⟨howner, .inl hselected⟩
  have hthere : ∀ t' : api_call.TaggedApiCall, t' ∈ all' ∧ eval_tag_expr t'.tags e.tag_expr = true ↔
      ∃ t ∈ all, eval_tag_expr t.tags e.tag_expr = true ∧ t' = ⟨given_api_call owner_id t.api_call, t.tags⟩ := by
    intro t'
    rw [api_call.mem_list_all hall']
    constructor
    · rintro ⟨⟨hheld, howner⟩, hselected⟩
      obtain ⟨d, hd, heq⟩ := (h.holds (.api_call t') howner).mp hheld
      cases d with
      | api_call t =>
        obtain rfl := Definition.api_call.inj heq
        have hneeded := (exported_iff (by rintro _ ⟨⟩)).mp hd
        exact ⟨t, (api_call.mem_list_all hall).mpr ⟨hneeded.held, hneeded.owner⟩, hselected, rfl⟩
      | _ => cases heq
    · rintro ⟨t, ht, hselected, rfl⟩
      exact ⟨⟨(h.holds (.api_call ⟨given_api_call owner_id t.api_call, t.tags⟩) rfl).mpr
        ⟨_, .inr (hneeded t ht hselected), rfl⟩, rfl⟩, hselected⟩
  have hcompiled : ∀ t' ∈ all', eval_tag_expr t'.tags e.tag_expr = true →
      ∃ planned, Query.Yields (· = rows') (compile_api_call json owner_id t'.api_call) planned := by
    intro t' ht' hselected'
    obtain ⟨t, ht, hselected, rfl⟩ := (hthere t').mp ⟨ht', hselected'⟩
    obtain ⟨planned, hget⟩ := (compile_selected_ok hcalls).2 t ht hselected
    obtain ⟨t₂, ht₂, _, hslug, hcompile⟩ := (hmem _).mp (BTreeMap.mem_of_get hget)
    obtain rfl := eq_of_slug (slugs_of_api_calls hall) ht₂ ht hslug
    exact ⟨_, compile_given h (hneeded t₂ ht₂ hselected) hcompile⟩
  obtain ⟨calls', hcalls'⟩ := exists_compile_selected hcompiled
  have hmem' := mem_compile_selected (slugs_of_api_calls hall') hcalls'
  have heq : calls' = calls.map fun kv => (kv.1, given_planned owner_id kv.2) := by
    refine BTreeMap.eq_of_mem_iff (sorted_compile_selected hcalls')
      ((sorted_compile_selected hcalls).map fun kv => given_planned owner_id kv.2) fun kv' => ?_
    rw [hmem' kv', List.mem_map]
    constructor
    · rintro ⟨t', ht', hselected', hslug', hcompile'⟩
      obtain ⟨t, ht, hselected, rfl⟩ := (hthere t').mp ⟨ht', hselected'⟩
      obtain ⟨planned, hget⟩ := (compile_selected_ok hcalls).2 t ht hselected
      obtain ⟨t₂, ht₂, _, hslug, hcompile⟩ := (hmem _).mp (BTreeMap.mem_of_get hget)
      obtain rfl := eq_of_slug (slugs_of_api_calls hall) ht₂ ht hslug
      refine ⟨_, BTreeMap.mem_of_get hget, Prod.ext hslug' ?_⟩
      exact (compile_given h (hneeded t₂ ht₂ hselected) hcompile).unique hcompile'
    · rintro ⟨kv, hkv, rfl⟩
      obtain ⟨t, ht, hselected, hslug, hcompile⟩ := (hmem kv).mp hkv
      obtain ⟨ht', hselected'⟩ := (hthere _).mpr ⟨t, ht, hselected, rfl⟩
      exact ⟨_, ht', hselected', hslug, compile_given h (hneeded t ht hselected) hcompile⟩
  rwa [← heq]

theorem selected_scripts_given (h : Arrived rows e owner_id rows₂ rows') {all all' : List script.TaggedScript}
    (hall : Query.Yields (· = rows) (script.list_all e.owner_id) all)
    (hall' : Query.Yields (· = rows') (script.list_all owner_id) all') :
    selected_scripts e.tag_expr all' = (selected_scripts e.tag_expr all).map fun kv => (kv.1, given_script owner_id kv.2) := by
  refine BTreeMap.eq_of_mem_iff (BTreeMap.sorted_collect _)
    ((BTreeMap.sorted_collect _ : (selected_scripts e.tag_expr all).Sorted).map fun kv => given_script owner_id kv.2)
    fun kv' => ?_
  rw [mem_selected_scripts (slugs_of_scripts hall'), List.mem_map]
  have hmem := @mem_selected_scripts e.tag_expr all (slugs_of_scripts hall)
  constructor
  · rintro ⟨t', ht', hselected, rfl⟩
    obtain ⟨hheld, howner⟩ := (script.mem_list_all hall').mp ht'
    obtain ⟨d, hd, heq⟩ := (h.holds (.script t') howner).mp hheld
    cases d with
    | script t =>
      obtain rfl := Definition.script.inj heq
      have hneeded := (exported_iff (by rintro _ ⟨⟩)).mp hd
      exact ⟨_, (hmem _).mpr ⟨t, (script.mem_list_all hall).mpr ⟨hneeded.held, hneeded.owner⟩, hselected, rfl⟩, rfl⟩
    | _ => cases heq
  · rintro ⟨kv, hkv, rfl⟩
    obtain ⟨t, ht, hselected, rfl⟩ := (hmem kv).mp hkv
    obtain ⟨hheld, howner⟩ := (script.mem_list_all hall).mp ht
    have hneeded : Needed rows e (.script t) := .selected hheld ⟨howner, .inl hselected⟩
    refine ⟨⟨given_script owner_id t.script, t.tags⟩, (script.mem_list_all hall').mpr ⟨?_, rfl⟩, hselected, rfl⟩
    exact (h.holds (.script ⟨given_script owner_id t.script, t.tags⟩) rfl).mpr ⟨_, .inr hneeded, rfl⟩

/-- A plan that is built of an endpoint is built of it, for its new owner, where
it has arrived. -/
theorem build_plan_given (h : Arrived rows e owner_id rows₂ rows')
    (hnone : ∀ r ∈ rows₂.auth_providers.rows, r.owner_id ≠ owner_id) {plan : EndpointPlan}
    (he : Holds rows (.endpoint e))
    (hplan : Query.Yields (· = rows) (build_plan json sha256_hex e.owner_id e.slug) plan) :
    Query.Yields (· = rows') (build_plan json sha256_hex owner_id e.slug) (given_plan owner_id plan) := by
  simp only [build_plan, Query.yields_bind, yields_read, yields_some_or, yields_check, Query.yields_pure] at hplan ⊢
  obtain ⟨_, hget, found, rfl, all, hall, scripts, hscripts, calls, hcalls, origins, horigins, _, _, _, hceiling, tools,
    htools, rfl⟩ := hplan
  have hfound := (endpoint.yields_get.mpr ⟨he, rfl, rfl⟩).unique hget
  obtain rfl := Option.some.inj hfound
  obtain ⟨all', hall'⟩ := @api_call.exists_list_all rows' owner_id h.intact
  obtain ⟨scripts', hscripts'⟩ := @script.exists_list_all rows' owner_id h.intact
  have hthere : Holds rows' (.endpoint (given_endpoint owner_id e)) :=
    (h.holds (.endpoint (given_endpoint owner_id e)) rfl).mpr ⟨_, .inl rfl, rfl⟩
  have hselected : selected_scripts (given_endpoint owner_id e).tag_expr scripts' = _ :=
    selected_scripts_given h hscripts hscripts'
  refine ⟨_, endpoint.yields_get.mpr ⟨hthere, rfl, rfl⟩, _, rfl, all', hall', scripts', hscripts', _,
    compiled_given h hall hall' hcalls, origins, ?_, (), ?_, (), ?_, tools, ?_, ?_⟩
  · rw [reachable_origins_given, horigins]
  · refine bound_of_no_providers ?_ _ _
    rw [h.auth_providers]
    exact hnone
  · exact (assert_write_ceiling_given calls e.write_ceiling).trans hceiling
  · rw [hselected]
    exact (build_tools_given calls _ e.aliases e.budgets).trans htools
  · rw [hselected]
    simp only [assemble_plan, given_plan, given_endpoint, callable_by_given, digest_given]

/-- Where an exported pack was imported, for an owner who had nothing, the plan
that its endpoint had is built again: the same tools, origins and digest, on the
same api_calls and scripts of the new owner. -/
theorem plan_travels (hreached : Reached rows) (hreached₂ : Reached rows₂) (hnone : NoDefinitions rows₂ owner_id)
    (he : Holds rows (.endpoint e)) {url : net.UrlCrate} (hurls : ∀ s, Needed rows e (.service s) → Rereads url s)
    {p : Pack} (hp : Query.Yields (· = rows) (export_endpoint e.owner_id e.slug) p) {pointer_error : String → String}
    {keys : NewKeys} {report : ImportReport}
    (hruns : Runs (import_pack url pointer_error keys p false owner_id) rows₂ report rows') {plan : EndpointPlan}
    (hplan : Query.Yields (· = rows) (build_plan json sha256_hex e.owner_id e.slug) plan) :
    Query.Yields (· = rows') (build_plan json sha256_hex owner_id e.slug) (given_plan owner_id plan) := by
  obtain ⟨names, hsound⟩ := hreached.sound
  obtain ⟨names₂, hsound₂⟩ := hreached₂.sound
  have hlinked : Linked rows := fun _ hd _ hkey => hsound.linked hd hkey
  have hcarries := carries_of_export hsound.toIntact hlinked he hp
  obtain ⟨_, harrived⟩ := arrived_of_runs hsound hlinked he hurls hcarries hsound₂.toIntact hnone.definitions hruns
  exact build_plan_given harrived hnone.auth_providers he hplan

end

/-- The plan of the sample endpoint is built again where the endpoint was
imported. -/
theorem sample_planned : ∃ plan rows', Query.Yields (· = sample_rows) (build_plan default id 1 .crm) plan ∧
    Query.Yields (· = rows') (build_plan default id 2 .crm) (given_plan 2 plan) := by
  obtain ⟨p, hp, report, rows', hruns⟩ := sample_carried
  have hnone : NoDefinitions {} 2 := ⟨undefined_empty 2, fun provider h => absurd h List.not_mem_nil⟩
  have hplan : ∃ plan, Query.Yields (· = sample_rows) (build_plan default id 1 .crm) plan :=
    ⟨_, Query.yields_eval.mpr rfl⟩
  obtain ⟨plan, hplan⟩ := hplan
  exact ⟨plan, rows', hplan, plan_travels sample_reached reached_empty hnone sample_endpoint_held
    (fun s hs => sample_rereads hs.held) hp hruns hplan⟩

end api2mcp.pack
