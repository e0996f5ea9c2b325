import Api2Mcp.Resolve.BuildPlan

namespace api2mcp.resolve

open btree concurrent relational
open api2mcp.entity api2mcp.model api2mcp.http api2mcp.store

/-- A budget that is no more than a limit, if there is one. -/
def AtMost (limit budget : Option Nat) : Prop := ∀ n ∈ limit, ∃ m ∈ budget, m ≤ n

/-- No more than the endpoint allows, on each axis. -/
structure WithinBudgets (endpoint tool : Budgets) : Prop where
  calls : AtMost endpoint.max_calls tool.max_calls
  bytes : AtMost endpoint.max_bytes tool.max_bytes
  wall_clock : AtMost endpoint.wall_clock tool.wall_clock
  pages : AtMost endpoint.max_pages tool.max_pages
  concurrency : AtMost endpoint.max_concurrency tool.max_concurrency

theorem atMost_fold_opt (limit budget : Option Nat) : AtMost limit (fold_opt limit budget) := by
  rintro n ⟨⟩
  cases budget with
  | none => exact ⟨n, rfl, Nat.le_refl n⟩
  | some m => exact ⟨min n m, rfl, Nat.min_le_left n m⟩

theorem withinBudgets_fold (endpoint script : Budgets) :
    WithinBudgets endpoint (endpoint.fold script) where
  calls := atMost_fold_opt _ _
  bytes := atMost_fold_opt _ _
  wall_clock := atMost_fold_opt _ _
  pages := atMost_fold_opt _ _
  concurrency := atMost_fold_opt _ _

theorem withinBudgets_self (endpoint : Budgets) : WithinBudgets endpoint endpoint where
  calls n hn := ⟨n, hn, Nat.le_refl n⟩
  bytes n hn := ⟨n, hn, Nat.le_refl n⟩
  wall_clock n hn := ⟨n, hn, Nat.le_refl n⟩
  pages n hn := ⟨n, hn, Nat.le_refl n⟩
  concurrency n hn := ⟨n, hn, Nat.le_refl n⟩

/-- The target of a selected item. -/
inductive Selected (tag_expr : TagExpr) (all_api_calls : List api_call.TaggedApiCall)
    (all_scripts : List script.TaggedScript) : ToolTarget → Prop
  | api_call {tagged : api_call.TaggedApiCall} : tagged ∈ all_api_calls →
      eval_tag_expr tagged.tags tag_expr = true →
      Selected tag_expr all_api_calls all_scripts (.ApiCall tagged.api_call.slug)
  | script {tagged : script.TaggedScript} : tagged ∈ all_scripts →
      eval_tag_expr tagged.tags tag_expr = true →
      Selected tag_expr all_api_calls all_scripts (.Script tagged.script.slug)

/-- What holds of a call of a plan: it is a selected item's, its origin is its
service's and on its allowlist, it stays below the ceiling, its template has the
placeholders it has params for, and the provider of its service is bound to its
origin. -/
structure ClosedCall (endpoint : EndpointDef) (all_api_calls : List api_call.TaggedApiCall)
    (provided : Slug → AuthProvider → Prop) (slug : Slug) (planned : PlannedApiCall) : Prop where
  selected : ∃ tagged ∈ all_api_calls, eval_tag_expr tagged.tags endpoint.tag_expr = true ∧
    tagged.api_call = planned.api_call ∧ planned.api_call.slug = slug
  origin : Origin.of planned.service.base_url = .ok planned.origin
  allowed : Origin.contains planned.service.origin_allowlist planned.origin = true
  ceiling : planned.api_call.access.le endpoint.write_ceiling = true
  template : UrlTemplate.parse planned.api_call.path_template = .ok planned.url_template
  params : ∀ name, .Placeholder name ∈ planned.url_template.segments ↔
    ∃ p ∈ planned.api_call.params, p.location = .Path ∧ p.name = name
  bound : ∀ provider, provided planned.service.slug provider → provider.bound_origin = planned.origin

/-- What holds of a tool of a plan: it is a selected item's, and its budgets are
the endpoint's at most. -/
structure ClosedTool (endpoint : EndpointDef) (all_api_calls : List api_call.TaggedApiCall)
    (all_scripts : List script.TaggedScript) (tool : PlannedTool) : Prop where
  selected : Selected endpoint.tag_expr all_api_calls all_scripts tool.target
  budgets : WithinBudgets endpoint.budgets tool.budgets

/-- A plan made from an endpoint's definitions and no others. -/
structure Closed (endpoint : EndpointDef) (all_api_calls : List api_call.TaggedApiCall)
    (all_scripts : List script.TaggedScript) (provided : Slug → AuthProvider → Prop)
    (plan : EndpointPlan) : Prop where
  calls : ∀ kv ∈ plan.calls, ClosedCall endpoint all_api_calls provided kv.1 kv.2
  tools : ∀ tool ∈ plan.tools, ClosedTool endpoint all_api_calls all_scripts tool
  /-- No two tools have one name, and every selected item has one tool. -/
  names : plan.tools.Pairwise fun a b => a.name ≠ b.name
  targets : ∀ target, Selected endpoint.tag_expr all_api_calls all_scripts target →
    ∃! tool, tool ∈ plan.tools ∧ tool.target = target
  api_calls : ∀ tagged ∈ all_api_calls, eval_tag_expr tagged.tags endpoint.tag_expr = true →
    ∃ planned, plan.calls.get tagged.api_call.slug = some planned ∧ planned.api_call = tagged.api_call
  tagged_scripts : ∀ tagged ∈ all_scripts, eval_tag_expr tagged.tags endpoint.tag_expr = true →
    plan.scripts.get tagged.script.slug = some tagged.script
  scripts : ∀ kv ∈ plan.scripts, ∃ tagged ∈ all_scripts,
    eval_tag_expr tagged.tags endpoint.tag_expr = true ∧ tagged.script = kv.2 ∧ kv.2.slug = kv.1
  callable : ∀ slug reachable, plan.callable_by.get slug = some reachable →
    ∃ script, plan.scripts.get slug = some script ∧ ∀ kv ∈ reachable, kv ∈ script.callable ∧
      ∃ planned, plan.calls.get kv.2 = some planned
  ceiling : plan.write_ceiling = endpoint.write_ceiling
  budgets : plan.budgets = endpoint.budgets

section

variable {json : serde_json.JsonCrate} {P : Rows → Prop}

@[simp] theorem yields_read {α : Type} {q : Fetch α} {a : α} :
    Query.Yields P (read q) a ↔ Query.Yields P q a := by
  rw [read, Query.Yields, ExceptT.run_mk, Query.sees_bind]
  constructor
  · rintro ⟨r, hq, hr⟩
    cases r with
    | ok b =>
      obtain rfl := Except.ok.inj (Query.sees_done.mp hr)
      exact hq
    | error e => cases Query.sees_done.mp hr
  · exact fun hq => ⟨.ok a, hq, .done _⟩

@[simp] theorem yields_check {α : Type} {r : Except ResolveError α} {a : α} :
    Query.Yields P (check r) a ↔ r = .ok a := Query.sees_done

@[simp] theorem yields_some_or {α : Type} {e : ResolveError} {o : Option α} {a : α} :
    Query.Yields P (some_or e o) a ↔ o = some a := by
  cases o <;> simp [some_or]

theorem params_of_correspond {api_call : ApiCall} {template : UrlTemplate}
    (h : assert_path_params_correspond api_call template = .ok ()) (name : String) :
    .Placeholder name ∈ template.segments ↔
      ∃ p ∈ api_call.params, p.location = .Path ∧ p.name = name := by
  unfold assert_path_params_correspond at h
  dsimp only at h
  split at h
  · rename_i heq
    have hmem := congrArg (name ∈ ·) heq
    simp only [BTreeSet.mem_collect, List.mem_filterMap, List.mem_map, List.mem_filter,
      decide_eq_true_eq, eq_iff_iff] at hmem
    constructor
    · intro hsegment
      obtain ⟨p, ⟨hp, hlocation⟩, hname⟩ := hmem.mp ⟨_, hsegment, rfl⟩
      exact ⟨p, hp, hlocation, hname⟩
    · rintro ⟨p, hp, hlocation, hname⟩
      obtain ⟨segment, hsegment, hplaceholder⟩ := hmem.mpr ⟨p, ⟨hp, hlocation⟩, hname⟩
      cases segment with
      | Placeholder name' =>
        obtain rfl := Option.some.inj hplaceholder
        exact hsegment
      | Literal text => cases hplaceholder
  · cases h

/-- What compiling leaves as it was, and what it checked. -/
theorem compile_on_ok {call : ApiCall} {service : Service} {planned : PlannedApiCall}
    (h : compile_on json call service = .ok planned) :
    planned.api_call = call ∧ planned.service = service ∧
      UrlTemplate.parse call.path_template = .ok planned.url_template ∧
      assert_path_params_correspond call planned.url_template = .ok () ∧
      Origin.of service.base_url = .ok planned.origin := by
  simp only [compile_on, except.bind_eq_ok, except.mapError_eq_ok] at h
  obtain ⟨template, htemplate, ⟨⟩, hparams, origin, horigin, h⟩ := h
  have hplanned : ∃ projection, planned = ⟨call, service, origin, template, projection⟩ := by
    split at h
    · exact ⟨none, (Except.ok.inj h).symm⟩
    · rw [except.bind_eq_ok] at h
      obtain ⟨projection, _, h⟩ := h
      exact ⟨projection, (Except.ok.inj h).symm⟩
  obtain ⟨projection, rfl⟩ := hplanned
  exact ⟨rfl, rfl, htemplate, hparams, horigin⟩

theorem slug_of_get_by_slug {owner_id : Uuid} {slug : Slug} {found : Service}
    (h : Query.Yields P (service.get_by_slug owner_id slug) (some found)) : found.slug = slug := by
  simp only [service.get_by_slug, select, Query.yields_bind, Query.yields_select, Query.yields_pure] at h
  obtain ⟨row, ⟨rows, _, hrow⟩, hmodel⟩ := h
  obtain ⟨row, rfl, rfl⟩ := Option.map_eq_some_iff.mp hmodel
  have hfound := (Table.mem_of_find hrow).2
  rw [Bool.and_eq_true, decide_eq_true_eq, decide_eq_true_eq] at hfound
  exact hfound.2

/-- A call is compiled on the service that its definitions have. -/
theorem compile_api_call_ok {owner_id : Uuid} {call : ApiCall} {planned : PlannedApiCall}
    (h : Query.Yields P (compile_api_call json owner_id call) planned) :
    ∃ found, Query.Yields P (service.get_by_slug owner_id call.service_slug) (some found) ∧
      compile_on json call found = .ok planned := by
  simp only [compile_api_call, Query.yields_bind, yields_read, yields_some_or, yields_check] at h
  obtain ⟨_, hservice, found, rfl, hcompile⟩ := h
  exact ⟨found, hservice, hcompile⟩

/-- The calls are those of the selected items. -/
theorem compile_selected_ok {owner_id : Uuid} {tag_expr : TagExpr} {all : List api_call.TaggedApiCall}
    {calls : BTreeMap Slug PlannedApiCall}
    (h : Query.Yields P (compile_selected json owner_id tag_expr all) calls) :
    (∀ kv ∈ calls, ∃ tagged ∈ all, eval_tag_expr tagged.tags tag_expr = true ∧
      tagged.api_call.slug = kv.1 ∧ Query.Yields P (compile_api_call json owner_id tagged.api_call) kv.2) ∧
    ∀ tagged ∈ all, eval_tag_expr tagged.tags tag_expr = true →
      ∃ planned, calls.get tagged.api_call.slug = some planned := by
  unfold compile_selected at h
  generalize hstart : ([] : BTreeMap Slug PlannedApiCall) = start at h
  have hfold : (∀ kv ∈ calls, kv ∈ start ∨ ∃ tagged ∈ all, eval_tag_expr tagged.tags tag_expr = true ∧
        tagged.api_call.slug = kv.1 ∧
          Query.Yields P (compile_api_call json owner_id tagged.api_call) kv.2) ∧
      ∀ slug : Slug, (BTreeMap.get start slug).isSome = true ∨ (∃ tagged ∈ all,
        eval_tag_expr tagged.tags tag_expr = true ∧ tagged.api_call.slug = slug) →
          (BTreeMap.get calls slug).isSome = true := by
    clear hstart
    induction all generalizing start with
    | nil =>
      obtain rfl := Query.yields_pure.mp h
      exact ⟨fun kv hkv => .inl hkv, fun slug hslug => hslug.resolve_right (by simp)⟩
    | cons tagged all ih =>
      rw [List.foldlM_cons, Query.yields_bind] at h
      obtain ⟨next, hstep, hrest⟩ := h
      obtain ⟨hfrom, hkept⟩ := ih next hrest
      split at hstep
      · rename_i hselected
        rw [Query.yields_bind] at hstep
        obtain ⟨planned, hcompile, hstep⟩ := hstep
        obtain rfl := Query.yields_pure.mp hstep
        refine ⟨fun kv hkv => ?_, fun slug hslug => hkept slug ?_⟩
        · obtain hnext | ⟨other, hmem, hother⟩ := hfrom kv hkv
          · obtain rfl | hstart := BTreeMap.mem_insert hnext
            · exact .inr ⟨tagged, List.mem_cons_self .., hselected, rfl, hcompile⟩
            · exact .inl hstart
          · exact .inr ⟨other, List.mem_cons_of_mem _ hmem, hother⟩
        · rw [BTreeMap.get_insert]
          obtain hstart | ⟨other, hmem, hother, rfl⟩ := hslug
          · left
            split
            · rfl
            · exact hstart
          · obtain rfl | hmem := List.mem_cons.mp hmem
            · exact .inl (by simp)
            · exact .inr ⟨other, hmem, hother, rfl⟩
      · rename_i hskipped
        obtain rfl := Query.yields_pure.mp hstep
        refine ⟨fun kv hkv => ?_, fun slug hslug => hkept slug ?_⟩
        · refine (hfrom kv hkv).imp_right ?_
          rintro ⟨other, hmem, hother⟩
          exact ⟨other, List.mem_cons_of_mem _ hmem, hother⟩
        · refine hslug.imp_right ?_
          rintro ⟨other, hmem, hother, rfl⟩
          obtain rfl | hmem := List.mem_cons.mp hmem
          · exact absurd hother hskipped
          · exact ⟨other, hmem, hother, rfl⟩
  subst hstart
  refine ⟨fun kv hkv => (hfold.1 kv hkv).resolve_left List.not_mem_nil, fun tagged hmem hselected => ?_⟩
  exact Option.isSome_iff_exists.mp (hfold.2 _ (.inr ⟨tagged, hmem, hselected, rfl⟩))

/-- Rows that an index tells apart by their slugs still have different slugs when
they are sorted, and when they are read. -/
theorem slugs_of_rows {ρ α : Type} {u : Indexes ρ} {table : Table u} {owned : ρ → Bool} {slug : ρ → Slug}
    {slug_of : α → Slug} {all : List α}
    (hunique : ∀ a b, owned a = true → owned b = true → slug a = slug b → u.clash a b = true)
    (hall : List.Forall₂ (fun row item => slug_of item = slug row)
      (order_by_slug slug (table.select owned)) all) :
    all.Pairwise fun a b => slug_of a ≠ slug_of b := by
  have hrows : (table.select owned).Pairwise fun a b => slug a ≠ slug b := by
    refine (table.unique.sublist List.filter_sublist).imp_of_mem fun {a b} ha hb hclash heq => ?_
    rw [hunique a b (Table.mem_select.mp ha).2 (Table.mem_select.mp hb).2 heq] at hclash
    cases hclash
  have hsorted : (order_by_slug slug (table.select owned)).Pairwise fun a b => slug a ≠ slug b :=
    (List.perm_insertionSort _ _).symm.pairwise hrows fun {_ _} hne => hne.symm
  have hmap : List.Forall₂ (· = ·) (all.map slug_of)
      ((order_by_slug slug (table.select owned)).map slug) :=
    List.forall₂_map_left_iff.mpr (List.forall₂_map_right_iff.mpr hall.flip)
  rw [List.forall₂_eq_eq_eq] at hmap
  rw [← List.pairwise_map (R := (· ≠ ·)), hmap, List.pairwise_map]
  exact hsorted

/-- The slugs of the api_calls of an owner differ. -/
theorem slugs_of_api_calls {rows : Rows} {owner_id : Uuid} {all : List api_call.TaggedApiCall}
    (h : Query.Yields (· = rows) (api_call.list_all owner_id) all) :
    all.Pairwise fun a b => a.api_call.slug ≠ b.api_call.slug := by
  simp only [api_call.list_all, select, Query.yields_bind, Query.yields_select, Query.yields_mapM] at h
  obtain ⟨_, ⟨_, rfl, rfl⟩, hall⟩ := h
  refine slugs_of_rows (fun a b ha hb heq => ?_) (hall.imp fun row tagged htagged => ?_)
  · simp only [decide_eq_true_eq] at ha hb
    simp [api_calls.indexes, Indexes.or, Indexes.on, ha, hb, heq]
  · simp only [Query.yields_bind, api_call.assemble, Query.yields_pure] at htagged
    obtain ⟨_, _, _, _, _, _, rfl⟩ := htagged
    rfl

/-- The slugs of the scripts of an owner differ. -/
theorem slugs_of_scripts {rows : Rows} {owner_id : Uuid} {all : List script.TaggedScript}
    (h : Query.Yields (· = rows) (script.list_all owner_id) all) :
    all.Pairwise fun a b => a.script.slug ≠ b.script.slug := by
  simp only [script.list_all, select, Query.yields_bind, Query.yields_select, Query.yields_mapM] at h
  obtain ⟨_, ⟨_, rfl, rfl⟩, hall⟩ := h
  refine slugs_of_rows (fun a b ha hb heq => ?_) (hall.imp fun row tagged htagged => ?_)
  · simp only [decide_eq_true_eq] at ha hb
    simp [scripts.indexes, Indexes.or, Indexes.on, ha, hb, heq]
  · simp only [Query.yields_bind, script.assemble, Query.yields_pure] at htagged
    obtain ⟨_, _, _, _, _, _, rfl⟩ := htagged
    rfl

/-- Two items of one slug are one item. -/
theorem eq_of_slug {α : Type} {slug : α → Slug} {all : List α}
    (h : all.Pairwise fun a b => slug a ≠ slug b) {a b : α} (ha : a ∈ all) (hb : b ∈ all)
    (heq : slug a = slug b) : a = b := by
  by_contra hne
  have : Std.Symm fun a b : α => slug a ≠ slug b := ⟨fun _ _ h => h.symm⟩
  exact h.forall ha hb hne heq

/-- Names are claimed once. -/
theorem names_of_claims {tools : List PlannedTool} {seen claimed : BTreeSet String}
    (h : tools.foldlM (fun seen tool => claim_name seen tool.name) seen = .ok claimed) :
    (∀ tool ∈ tools, tool.name ∉ seen) ∧ tools.Pairwise fun a b => a.name ≠ b.name := by
  induction tools generalizing seen with
  | nil => exact ⟨by simp, .nil⟩
  | cons tool tools ih =>
    rw [List.foldlM_cons, except.bind_eq_ok] at h
    obtain ⟨next, hclaim, hrest⟩ := h
    unfold claim_name at hclaim
    split at hclaim
    · cases hclaim
    · rename_i hfresh
      obtain rfl := Except.ok.inj hclaim
      obtain ⟨hnew, hnames⟩ := ih hrest
      simp only [BTreeSet.mem_insert, not_or] at hnew
      refine ⟨?_, .cons (fun other hother => Ne.symm (hnew other hother).1) hnames⟩
      intro other hother
      obtain rfl | hother := List.mem_cons.mp hother
      · simpa using hfresh
      · exact (hnew other hother).2

/-- The name of a tool, by its target. -/
def tool_name (alias_by_target : BTreeMap String String) : ToolTarget → String
  | .ApiCall slug => (alias_by_target.get (target_key_api_call slug)).getD slug.as_str
  | .Script slug => (alias_by_target.get (target_key_script slug)).getD slug.as_str

theorem name_of_named_tools {alias_by_target : BTreeMap String String} {budgets : Budgets}
    {calls : BTreeMap Slug PlannedApiCall} {scripts : BTreeMap Slug ScriptDef} {tool : PlannedTool}
    (h : tool ∈ named_tools alias_by_target budgets calls scripts) :
    tool.name = tool_name alias_by_target tool.target := by
  unfold named_tools at h
  obtain h | h := List.mem_append.mp h
  · obtain ⟨kv, _, rfl⟩ := List.mem_map.mp h
    rfl
  · obtain ⟨kv, _, rfl⟩ := List.mem_map.mp h
    rfl

/-- The tools are those of the calls and the scripts, each under a name, and for
a target, of its own. -/
theorem build_tools_ok {aliases : BTreeMap String EndpointTarget} {budgets : Budgets}
    {calls : BTreeMap Slug PlannedApiCall} {scripts : BTreeMap Slug ScriptDef} {tools : List PlannedTool}
    (h : build_tools aliases budgets calls scripts = .ok tools) :
    (∃ alias_by_target, ∀ tool, tool ∈ tools ↔ tool ∈ named_tools alias_by_target budgets calls scripts) ∧
    (tools.Pairwise fun a b => a.name ≠ b.name) ∧
    tools.Pairwise fun a b => a.target ≠ b.target := by
  simp only [build_tools, except.bind_eq_ok, except.pure_eq_ok] at h
  obtain ⟨alias_by_target, _, claimed, hclaims, rfl⟩ := h
  obtain ⟨_, hnames⟩ := names_of_claims hclaims
  have htargets : (named_tools alias_by_target budgets calls scripts).Pairwise
      fun a b => a.target ≠ b.target := by
    refine hnames.imp_of_mem fun {a b} ha hb hne heq => hne ?_
    rw [name_of_named_tools ha, name_of_named_tools hb, heq]
  have hperm := List.perm_insertionSort (fun a b : PlannedTool => ¬ b.name < a.name)
    (named_tools alias_by_target budgets calls scripts)
  refine ⟨⟨alias_by_target, fun tool => hperm.mem_iff⟩, ?_, ?_⟩
  · exact hperm.symm.pairwise hnames fun {_ _} hne => hne.symm
  · exact hperm.symm.pairwise htargets fun {_ _} hne => hne.symm

theorem allowed_of_reachable_origins {calls : BTreeMap Slug PlannedApiCall} {origins : List Origin}
    (h : reachable_origins calls = .ok origins) {planned : PlannedApiCall} (hmem : planned ∈ calls.values) :
    Origin.contains planned.service.origin_allowlist planned.origin = true := by
  obtain ⟨_, _, hstep⟩ := except.exists_of_foldlM h hmem
  split at hstep
  · assumption
  · cases hstep

theorem le_of_assert_write_ceiling {calls : BTreeMap Slug PlannedApiCall} {write_ceiling : Access}
    (h : assert_write_ceiling calls write_ceiling = .ok ()) {planned : PlannedApiCall}
    (hmem : planned ∈ calls.values) : planned.api_call.access.le write_ceiling = true := by
  have hcall := except.of_forM h hmem
  split at hcall
  · assumption
  · cases hcall

theorem bound_of_check_provider {endpoint_scope : BTreeSet Slug} {planned : PlannedApiCall}
    {provider : AuthProvider} (h : check_provider endpoint_scope planned provider = .ok ()) :
    provider.bound_origin = planned.origin := by
  unfold check_provider at h
  split at h
  · cases h
  · rename_i heq
    exact not_not.mp heq

/-- A service is represented by a call that is on it. -/
theorem exists_representative {calls : BTreeMap Slug PlannedApiCall} {planned : PlannedApiCall}
    (hmem : planned ∈ calls.values) : ∃ first ∈ calls.values, first ∈ (representative calls).values ∧
      first.service.slug = planned.service.slug := by
  have hget : (representative calls).get planned.service.slug =
      calls.values.find? fun item => item.service.slug = planned.service.slug := by
    rw [representative, BTreeMap.get_foldl_or_insert]
    simp [BTreeMap.get]
  cases hfind : calls.values.find? fun item => item.service.slug = planned.service.slug with
  | none => exact absurd (List.find?_eq_none.mp hfind planned hmem) (by simp)
  | some first =>
    rw [hfind] at hget
    exact ⟨first, List.mem_of_find?_eq_some hfind,
      List.mem_map.mpr ⟨_, BTreeMap.mem_of_get hget, rfl⟩, by simpa using List.find?_some hfind⟩

theorem scoped_of_check_provider {endpoint_scope : BTreeSet Slug} {planned : PlannedApiCall}
    {provider : AuthProvider} (h : check_provider endpoint_scope planned provider = .ok ())
    (hscoped : endpoint_scope ≠ []) : endpoint_scope.contains provider.slug = true := by
  unfold check_provider at h
  split at h
  · cases h
  split at h
  · cases h
  · rename_i hin
    simpa [hscoped] using hin

/-- The provider that is found for a call's service is checked for one of the
calls on it. -/
theorem checked_of_assert_bound {owner_id : Uuid} {calls : BTreeMap Slug PlannedApiCall}
    {endpoint_scope : BTreeSet Slug} (h : Query.Yields P (assert_bound owner_id calls endpoint_scope) ())
    {planned : PlannedApiCall} (hmem : planned ∈ calls.values) :
    ∃ first ∈ calls.values, first.service.slug = planned.service.slug ∧ ∃ answer,
      Query.Yields P (auth_provider.get_for_service owner_id planned.service.slug) answer ∧
      ∀ provider, answer = some provider → check_provider endpoint_scope first provider = .ok () := by
  obtain ⟨first, hfirst, hrepresents, hslug⟩ := exists_representative hmem
  have hchecked := Query.Yields.of_forM h hrepresents
  rw [Query.yields_bind] at hchecked
  obtain ⟨answer, hanswer, hchecked⟩ := hchecked
  rw [yields_read, hslug] at hanswer
  refine ⟨first, hfirst, hslug, answer, hanswer, ?_⟩
  rintro provider rfl
  exact yields_check.mp hchecked

/-- A provider is bound to the origin of every call on its service: the checks
are made for one of them, and they all have one service. -/
theorem bound_of_assert_bound {rows : Rows} {owner_id : Uuid} {calls : BTreeMap Slug PlannedApiCall}
    {endpoint_scope : BTreeSet Slug}
    (hcalls : ∀ planned ∈ calls.values, Origin.of planned.service.base_url = .ok planned.origin ∧
      Query.Yields (· = rows) (service.get_by_slug owner_id planned.service.slug) (some planned.service))
    (h : Query.Yields (· = rows) (assert_bound owner_id calls endpoint_scope) ())
    {planned : PlannedApiCall} (hmem : planned ∈ calls.values) {provider : AuthProvider}
    (hprovider : Query.Yields (· = rows)
      (auth_provider.get_for_service owner_id planned.service.slug) (some provider)) :
    provider.bound_origin = planned.origin := by
  obtain ⟨first, hfirst, hslug, answer, hanswer, hchecked⟩ := checked_of_assert_bound h hmem
  have hbound := bound_of_check_provider (hchecked provider (hanswer.unique hprovider))
  obtain ⟨horigin, hservice⟩ := hcalls planned hmem
  obtain ⟨horigin', hservice'⟩ := hcalls first hfirst
  rw [hslug] at hservice'
  rw [Option.some.inj (hservice'.unique hservice), horigin] at horigin'
  rw [hbound, Except.ok.inj horigin']

/-- What a script may call is declared by it and selected. -/
theorem reachable_of_callable_by {calls : BTreeMap Slug PlannedApiCall} {scripts : BTreeMap Slug ScriptDef}
    {slug : Slug} {names : BTreeMap String Slug} (h : (callable_by calls scripts).get slug = some names) :
    ∃ script, scripts.get slug = some script ∧ ∀ kv ∈ names, kv ∈ script.callable ∧
      ∃ planned, calls.get kv.2 = some planned := by
  rw [callable_by, BTreeMap.get_map scripts (reachable calls), Option.map_eq_some_iff] at h
  obtain ⟨script, hscript, rfl⟩ := h
  refine ⟨script, hscript, fun kv hkv => ?_⟩
  obtain ⟨hdeclared, hselected⟩ := List.mem_filter.mp hkv
  exact ⟨hdeclared, Option.isSome_iff_exists.mp hselected⟩

theorem selected_scripts_ok (tag_expr : TagExpr) (all : List script.TaggedScript) :
    (∀ kv ∈ selected_scripts tag_expr all, ∃ tagged ∈ all, eval_tag_expr tagged.tags tag_expr = true ∧
      tagged.script = kv.2 ∧ kv.2.slug = kv.1) ∧
    ∀ tagged ∈ all, eval_tag_expr tagged.tags tag_expr = true →
      ∃ script, (selected_scripts tag_expr all).get tagged.script.slug = some script := by
  constructor
  · intro kv hkv
    obtain ⟨tagged, htagged, rfl⟩ := List.mem_map.mp (BTreeMap.mem_of_mem_collect hkv)
    obtain ⟨hmem, hselected⟩ := List.mem_filter.mp htagged
    exact ⟨tagged, hmem, hselected, rfl, rfl⟩
  · intro tagged hmem hselected
    have hpair : (tagged.script.slug, tagged.script) ∈ (all.filter fun tagged =>
        eval_tag_expr tagged.tags tag_expr).map fun tagged => (tagged.script.slug, tagged.script) :=
      List.mem_map.mpr ⟨tagged, List.mem_filter.mpr ⟨hmem, hselected⟩, rfl⟩
    exact BTreeMap.get_collect hpair

/-- The targets of the tools are the selected items. -/
theorem selected_iff {tag_expr : TagExpr} {all_api_calls : List api_call.TaggedApiCall}
    {all_scripts : List script.TaggedScript} {calls : BTreeMap Slug PlannedApiCall}
    (hfrom : ∀ kv ∈ calls, ∃ tagged ∈ all_api_calls, eval_tag_expr tagged.tags tag_expr = true ∧
      tagged.api_call.slug = kv.1)
    (hitems : ∀ tagged ∈ all_api_calls, eval_tag_expr tagged.tags tag_expr = true →
      ∃ planned, calls.get tagged.api_call.slug = some planned)
    (alias_by_target : BTreeMap String String) (budgets : Budgets) (target : ToolTarget) :
    Selected tag_expr all_api_calls all_scripts target ↔
      ∃ tool ∈ named_tools alias_by_target budgets calls (selected_scripts tag_expr all_scripts),
        tool.target = target := by
  obtain ⟨hscript_from, hscript_items⟩ := selected_scripts_ok tag_expr all_scripts
  constructor
  · rintro (⟨hmem, hselected⟩ | ⟨hmem, hselected⟩)
    · obtain ⟨planned, hplanned⟩ := hitems _ hmem hselected
      exact ⟨_, List.mem_append_left _ (List.mem_map.mpr ⟨_, BTreeMap.mem_of_get hplanned, rfl⟩), rfl⟩
    · obtain ⟨script, hscript⟩ := hscript_items _ hmem hselected
      exact ⟨_, List.mem_append_right _ (List.mem_map.mpr ⟨_, BTreeMap.mem_of_get hscript, rfl⟩), rfl⟩
  · rintro ⟨tool, htool, rfl⟩
    obtain htool | htool := List.mem_append.mp htool
    · obtain ⟨kv, hkv, rfl⟩ := List.mem_map.mp htool
      obtain ⟨tagged, hmem, hselected, hslug⟩ := hfrom kv hkv
      dsimp only
      rw [← hslug]
      exact .api_call hmem hselected
    · obtain ⟨kv, hkv, rfl⟩ := List.mem_map.mp htool
      obtain ⟨tagged, hmem, hselected, hscript, hslug⟩ := hscript_from kv hkv
      dsimp only
      rw [← hslug, ← hscript]
      exact .script hmem hselected

theorem budgets_of_named_tools {alias_by_target : BTreeMap String String} {budgets : Budgets}
    {calls : BTreeMap Slug PlannedApiCall} {scripts : BTreeMap Slug ScriptDef} {tool : PlannedTool}
    (h : tool ∈ named_tools alias_by_target budgets calls scripts) :
    WithinBudgets budgets tool.budgets := by
  obtain h | h := List.mem_append.mp h
  · obtain ⟨kv, _, rfl⟩ := List.mem_map.mp h
    exact withinBudgets_self _
  · obtain ⟨kv, _, rfl⟩ := List.mem_map.mp h
    exact withinBudgets_fold _ _

variable {sha256_hex : String → String}

/-- The calls of a plan. -/
theorem closedCall_of_build {rows : Rows} {owner_id : Uuid} {definition : EndpointDef}
    {all : List api_call.TaggedApiCall} {calls : BTreeMap Slug PlannedApiCall} {origins : List Origin}
    (hcalls : Query.Yields (· = rows) (compile_selected json owner_id definition.tag_expr all) calls)
    (horigins : reachable_origins calls = .ok origins)
    (hbound : Query.Yields (· = rows) (assert_bound owner_id calls definition.auth_providers) ())
    (hceiling : assert_write_ceiling calls definition.write_ceiling = .ok ())
    {kv : Slug × PlannedApiCall} (hkv : kv ∈ calls) :
    ClosedCall definition all (fun slug provider => Query.Yields (· = rows)
      (auth_provider.get_for_service owner_id slug) (some provider)) kv.1 kv.2 := by
  have hfrom := (compile_selected_ok hcalls).1
  have hvalue : kv.2 ∈ calls.values := List.mem_map.mpr ⟨kv, hkv, rfl⟩
  have hservices : ∀ planned ∈ calls.values, Origin.of planned.service.base_url = .ok planned.origin ∧
      Query.Yields (· = rows) (service.get_by_slug owner_id planned.service.slug)
        (some planned.service) := by
    intro planned hplanned
    obtain ⟨other, hother, rfl⟩ := List.mem_map.mp hplanned
    obtain ⟨tagged, _, _, _, hcompile⟩ := hfrom other hother
    obtain ⟨found, hfound, hcompiled⟩ := compile_api_call_ok hcompile
    obtain ⟨_, hservice, _, _, horigin⟩ := compile_on_ok hcompiled
    rw [hservice]
    refine ⟨horigin, ?_⟩
    rw [slug_of_get_by_slug hfound]
    exact hfound
  obtain ⟨tagged, hmem, hselected, hslug, hcompile⟩ := hfrom kv hkv
  obtain ⟨found, hfound, hcompiled⟩ := compile_api_call_ok hcompile
  obtain ⟨hcall, hservice, htemplate, hparams, horigin⟩ := compile_on_ok hcompiled
  exact {
    selected := ⟨tagged, hmem, hselected, hcall.symm, by rw [hcall, hslug]⟩
    origin := (hservices kv.2 hvalue).1
    allowed := allowed_of_reachable_origins horigins hvalue
    ceiling := le_of_assert_write_ceiling hceiling hvalue
    template := by rw [hcall]; exact htemplate
    params := by rw [hcall]; exact params_of_correspond hparams
    bound := fun provider hprovider => bound_of_assert_bound hservices hbound hvalue hprovider }

/-- A plan that is built is closed. -/
theorem closed_of_build_plan {rows : Rows} {owner_id : Uuid} {slug : Slug} {plan : EndpointPlan}
    (h : Query.Yields (· = rows) (build_plan json sha256_hex owner_id slug) plan) :
    ∃ definition all_api_calls all_scripts,
      Query.Yields (· = rows) (endpoint.get owner_id slug) (some definition) ∧
      Query.Yields (· = rows) (api_call.list_all owner_id) all_api_calls ∧
      Query.Yields (· = rows) (script.list_all owner_id) all_scripts ∧
      Closed definition all_api_calls all_scripts (fun slug provider => Query.Yields (· = rows)
        (auth_provider.get_for_service owner_id slug) (some provider)) plan := by
  simp only [build_plan, Query.yields_bind, yields_read, yields_some_or, yields_check,
    Query.yields_pure] at h
  obtain ⟨_, hendpoint, definition, rfl, all_api_calls, hall, all_scripts, hscripts, calls, hcalls,
    origins, horigins, ⟨⟩, hbound, ⟨⟩, hceiling, tools, htools, rfl⟩ := h
  refine ⟨definition, all_api_calls, all_scripts, hendpoint, hall, hscripts, ?_⟩
  obtain ⟨hfrom, hitems⟩ := compile_selected_ok hcalls
  obtain ⟨hscript_from, hscript_items⟩ := selected_scripts_ok definition.tag_expr all_scripts
  obtain ⟨⟨alias_by_target, htool⟩, hnames, htargets⟩ := build_tools_ok htools
  have htargets_of : ∀ target, Selected definition.tag_expr all_api_calls all_scripts target ↔
      ∃ tool ∈ tools, tool.target = target := by
    intro target
    simp only [htool]
    refine selected_iff (fun kv hkv => ?_) hitems alias_by_target definition.budgets target
    obtain ⟨tagged, hmem, hselected, hslug, _⟩ := hfrom kv hkv
    exact ⟨tagged, hmem, hselected, hslug⟩
  have hcall : ∀ kv ∈ calls, ClosedCall definition all_api_calls _ kv.1 kv.2 := fun kv hkv =>
    closedCall_of_build hcalls horigins hbound hceiling hkv
  exact {
    calls := hcall
    tools := fun tool hmem =>
      { selected := (htargets_of tool.target).mpr ⟨tool, hmem, rfl⟩
        budgets := budgets_of_named_tools ((htool tool).mp hmem) }
    names := hnames
    targets := by
      intro target hselected
      obtain ⟨tool, hmem, htarget⟩ := (htargets_of target).mp hselected
      refine ⟨tool, ⟨hmem, htarget⟩, ?_⟩
      rintro other ⟨hother, rfl⟩
      by_contra hne
      have : Std.Symm fun a b : PlannedTool => a.target ≠ b.target := ⟨fun _ _ h => h.symm⟩
      exact htargets.forall hother hmem hne htarget.symm
    api_calls := by
      intro tagged hmem hselected
      obtain ⟨planned, hplanned⟩ := hitems tagged hmem hselected
      obtain ⟨other, hother, _, hsame, hslug⟩ := (hcall _ (BTreeMap.mem_of_get hplanned)).selected
      rw [← hsame] at hslug
      rw [eq_of_slug (slugs_of_api_calls hall) hother hmem hslug] at hsame
      exact ⟨planned, hplanned, hsame.symm⟩
    tagged_scripts := by
      intro tagged hmem hselected
      obtain ⟨script, hscript⟩ := hscript_items tagged hmem hselected
      obtain ⟨other, hother, _, hsame, hslug⟩ := hscript_from _ (BTreeMap.mem_of_get hscript)
      rw [← hsame] at hslug
      obtain rfl := eq_of_slug (slugs_of_scripts hscripts) hother hmem hslug
      exact hscript.trans (congrArg some hsame.symm)
    scripts := hscript_from
    callable := fun _ _ => reachable_of_callable_by
    ceiling := rfl
    budgets := rfl }

/-- No two tools of a plan have one name. -/
theorem names_of_build_plan {owner_id : Uuid} {slug : Slug} {plan : EndpointPlan}
    (h : Query.Yields P (build_plan json sha256_hex owner_id slug) plan) :
    plan.tools.Pairwise fun a b => a.name ≠ b.name := by
  simp only [build_plan, Query.yields_bind, yields_read, yields_some_or, yields_check,
    Query.yields_pure] at h
  obtain ⟨_, _, _, rfl, _, _, _, _, _, _, _, _, ⟨⟩, _, ⟨⟩, _, tools, htools, rfl⟩ := h
  exact (build_tools_ok htools).2.1

/-- What a plan was checked against: the scope of the endpoint that was read for
it holds the provider that was found for each service. -/
theorem scoped_of_build_plan {owner_id : Uuid} {slug : Slug} {plan : EndpointPlan}
    (h : Query.Yields P (build_plan json sha256_hex owner_id slug) plan) :
    plan.owner_id = owner_id ∧ ∃ definition,
      Query.Yields P (endpoint.get owner_id slug) (some definition) ∧
      (definition.auth_providers ≠ [] → ∀ planned ∈ plan.calls.values, ∃ answer,
        Query.Yields P (auth_provider.get_for_service owner_id planned.service.slug) answer ∧
        ∀ provider, answer = some provider →
          definition.auth_providers.contains provider.slug = true) := by
  simp only [build_plan, Query.yields_bind, yields_read, yields_some_or, yields_check,
    Query.yields_pure] at h
  obtain ⟨_, hendpoint, definition, rfl, _, _, _, _, calls, _, _, _, ⟨⟩, hbound, ⟨⟩, _, _, _, rfl⟩ := h
  refine ⟨rfl, definition, hendpoint, fun hscoped planned hplanned => ?_⟩
  obtain ⟨first, _, _, answer, hanswer, hchecked⟩ := checked_of_assert_bound hbound hplanned
  exact ⟨answer, hanswer, fun provider heq => scoped_of_check_provider (hchecked provider heq) hscoped⟩

end

end api2mcp.resolve
