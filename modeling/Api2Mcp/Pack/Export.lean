import Api2Mcp.Pack.Import
import Api2Mcp.Resolve.Closed

namespace api2mcp.pack

open relational btree concurrent except
open api2mcp.model api2mcp.store api2mcp.entity

inductive ExportError where
  | EndpointNotFound (slug : String)
  | Store (message : String)
  | MissingApiCall (script api_call : String)
  deriving DecidableEq

/-- `impl Display for ExportError`. -/
def ExportError.to_string : ExportError → String
  | .EndpointNotFound slug => "endpoint " ++ fmt.debug slug ++ " does not exist"
  | .Store message => message
  | .MissingApiCall script api_call =>
    "script " ++ fmt.debug script ++ " declares api_call " ++ fmt.debug api_call ++ ", which does not exist"

/-- The reads an export makes, each a statement of its own. -/
abbrev Export (α : Type) := ExceptT ExportError (Query Rows) α

namespace export_endpoint

def store_err (e : StoreError) : ExportError := .Store e.to_string

/-- The api_calls that are named. -/
def api_call_targets (targets : List EndpointTarget) : List Slug :=
  targets.filterMap fun
    | .ApiCall s => some s
    | .Script _ => none

/-- The scripts that are named. -/
def script_targets (targets : List EndpointTarget) : List Slug :=
  targets.filterMap fun
    | .ApiCall _ => none
    | .Script s => some s

/-- What carries the tags that are asked for, and what has a name of its own. -/
def selected {α : Type} (tag_expr : TagExpr) (tags : α → BTreeSet Tag) (by_slug : BTreeMap Slug α)
    (targets : List Slug) : BTreeSet Slug :=
  (BTreeSet.collect ((by_slug.filter fun kv => eval_tag_expr (tags kv.2) tag_expr).map Prod.fst)).extend targets

section

variable (calls_by_slug : BTreeMap Slug api_call.TaggedApiCall) (scripts_by_slug : BTreeMap Slug script.TaggedScript)

/-- An api_call that a script declares has to be there. -/
def needed_call (script : Slug) (needed : BTreeSet Slug) (target : Slug) : Except ExportError (BTreeSet Slug) :=
  if calls_by_slug.contains_key target then .ok (needed.insert target)
  else .error (.MissingApiCall script.as_str target.as_str)

/-- A script takes along what it may call; a slug without a script is skipped. -/
def needed_by (needed : BTreeSet Slug) (slug : Slug) : Except ExportError (BTreeSet Slug) :=
  match BTreeMap.get scripts_by_slug slug with
  | none => .ok needed
  | some tagged =>
    tagged.script.callable.values.foldlM (needed_call calls_by_slug tagged.script.slug) needed

/-- The pack of what was read. -/
def collect (endpoint : EndpointDef) (all_services : List Service) : Except ExportError Pack := do
  let targets := endpoint.aliases.values
  let selected_calls := selected endpoint.tag_expr (·.tags) calls_by_slug (api_call_targets targets)
  let selected_scripts := selected endpoint.tag_expr (·.tags) scripts_by_slug (script_targets targets)
  let needed_calls ← selected_scripts.foldlM (needed_by calls_by_slug scripts_by_slug) selected_calls
  let needed_services := BTreeSet.collect (needed_calls.filterMap fun slug =>
    (calls_by_slug.get slug).map fun tagged => tagged.api_call.service_slug)
  let api_calls := BTreeMap.pick Slug.as_str (fun slug => (calls_by_slug.get slug).map fun tagged =>
    api_call_to_pack tagged.api_call tagged.tags) needed_calls
  let services := BTreeMap.pick Slug.as_str (fun slug => (all_services.find? fun s => s.slug = slug).map
    service_to_pack) needed_services
  let scripts := BTreeMap.pick Slug.as_str (fun slug => (scripts_by_slug.get slug).map fun tagged =>
    script_to_pack tagged.script tagged.tags) selected_scripts
  let tags := (BTreeSet.collect (api_calls.values.flatMap (·.tags))).extend (scripts.values.flatMap (·.tags))
  let portable_endpoint := { endpoint with auth_providers := [] }
  return { version := PACK_VERSION, services, api_calls, scripts
           endpoints := [(portable_endpoint.slug.as_str, endpoint_to_pack portable_endpoint)], tags }

end

end export_endpoint

open export_endpoint in
/-- An endpoint, all it selects and all that takes along, of one owner. -/
def export_endpoint (owner_id : Uuid) (slug : Slug) : Export Pack := do
  match ← ExceptT.adapt store_err (endpoint.get owner_id slug) with
  | none => throw (.EndpointNotFound slug.as_str)
  | some endpoint =>
    let all_calls ← ExceptT.adapt store_err (api_call.list_all owner_id)
    let all_scripts ← ExceptT.adapt store_err (script.list_all owner_id)
    let all_services ← ExceptT.adapt store_err (service.list owner_id)
    let calls_by_slug := BTreeMap.collect (all_calls.map fun c => (c.api_call.slug, c))
    let scripts_by_slug := BTreeMap.collect (all_scripts.map fun s => (s.script.slug, s))
    ExceptT.mk (pure (collect calls_by_slug scripts_by_slug endpoint all_services))

end api2mcp.pack

/-! What an owner's lists hold. -/

namespace api2mcp.store

open relational btree concurrent
open api2mcp.model api2mcp.entity

variable {rows : Rows} {owner_id : Uuid}

theorem mem_order_by_slug {ρ : Type} {slug : ρ → Slug} {rs : List ρ} {r : ρ} : r ∈ order_by_slug slug rs ↔ r ∈ rs :=
  (List.perm_insertionSort _ _).mem_iff

theorem service.mem_list {all : List Service} (h : Query.Yields (· = rows) (list owner_id) all) {s : Service} :
    s ∈ all ↔ Holds rows s ∧ s.owner_id = owner_id := by
  simp only [list, Query.yields_bind, yields_select, exists_eq_left', Query.yields_pure] at h
  subst h
  simp only [List.mem_map, mem_order_by_slug, Table.mem_select, decide_eq_true_eq]
  constructor
  · rintro ⟨row, ⟨hrow, howner⟩, rfl⟩
    exact ⟨⟨row, hrow, rfl⟩, howner⟩
  · rintro ⟨⟨row, hrow, rfl⟩, howner⟩
    exact ⟨row, ⟨hrow, howner⟩, rfl⟩

theorem api_call.yields_list_all {all : List TaggedApiCall} : Query.Yields (· = rows) (list_all owner_id) all ↔
    List.Forall₂ (fun row t => ∃ s ∈ rows.services.rows, s.id = row.service_id ∧ of_row rows row s.slug = t)
      (order_by_slug api_calls.Model.slug (rows.api_calls.select fun r => r.owner_id = owner_id)) all := by
  simp only [list_all, Query.yields_bind, yields_select, exists_eq_left', Query.yields_mapM, service.yields_slug_by_id,
    yields_assemble]
  have hrow : ∀ (row : api_calls.Model) (t : TaggedApiCall),
      (∃ slug, (∃ s ∈ rows.services.rows, s.id = row.service_id ∧ s.slug = slug) ∧ of_row rows row slug = t) ↔
        ∃ s ∈ rows.services.rows, s.id = row.service_id ∧ of_row rows row s.slug = t := by
    intro row t
    constructor
    · rintro ⟨_, ⟨s, hs, hid, rfl⟩, ht⟩
      exact ⟨s, hs, hid, ht⟩
    · rintro ⟨s, hs, hid, ht⟩
      exact ⟨_, ⟨s, hs, hid, rfl⟩, ht⟩
  simp only [hrow]

theorem api_call.mem_list_all {all : List TaggedApiCall} (h : Query.Yields (· = rows) (list_all owner_id) all)
    {t : TaggedApiCall} : t ∈ all ↔ Holds rows t ∧ t.api_call.owner_id = owner_id := by
  have hall := yields_list_all.mp h
  constructor
  · intro ht
    obtain ⟨row, hrow, s, hs, hid, rfl⟩ := pointwise.exists_left hall ht
    obtain ⟨hrow, howner⟩ := Table.mem_select.mp (mem_order_by_slug.mp hrow)
    exact ⟨⟨row, hrow, s, hs, hid, rfl⟩, of_decide_eq_true (p := row.owner_id = owner_id) howner⟩
  · rintro ⟨⟨row, hrow, s, hs, hid, rfl⟩, howner⟩
    have hlisted : row ∈ rows.api_calls.select fun r => r.owner_id = owner_id :=
      Table.mem_select.mpr ⟨hrow, decide_eq_true howner⟩
    obtain ⟨t, ht, s', hs', hid', rfl⟩ := pointwise.exists_right hall (mem_order_by_slug.mpr hlisted)
    obtain rfl : s' = s := Table.eq_of_clash hs' hs (service.clash_of_id (hid'.trans hid.symm))
    exact ht

theorem api_call.exists_list_all (hintact : Intact rows) : ∃ all, Query.Yields (· = rows) (list_all owner_id) all := by
  simp only [yields_list_all]
  refine pointwise.exists_iff.mpr fun row hrow => ?_
  obtain ⟨s, hs, hid⟩ := hintact.api_calls row (Table.mem_select.mp (mem_order_by_slug.mp hrow)).1
  exact ⟨_, s, hs, hid, rfl⟩

theorem script.yields_list_all {all : List TaggedScript} : Query.Yields (· = rows) (list_all owner_id) all ↔
    List.Forall₂ (fun row t => ∃ callable, Query.Yields (· = rows) (load_callable row.id) callable ∧
        of_row rows row callable = t)
      (order_by_slug scripts.Model.slug (rows.scripts.select fun r => r.owner_id = owner_id)) all := by
  simp only [list_all, Query.yields_bind, yields_select, exists_eq_left', Query.yields_mapM, yields_assemble]

theorem script.mem_list_all {all : List TaggedScript} (h : Query.Yields (· = rows) (list_all owner_id) all)
    {t : TaggedScript} : t ∈ all ↔ Holds rows t ∧ t.script.owner_id = owner_id := by
  have hall := yields_list_all.mp h
  constructor
  · intro ht
    obtain ⟨row, hrow, callable, hcallable, rfl⟩ := pointwise.exists_left hall ht
    obtain ⟨hrow, howner⟩ := Table.mem_select.mp (mem_order_by_slug.mp hrow)
    exact ⟨⟨row, hrow, callable, hcallable, rfl⟩, of_decide_eq_true (p := row.owner_id = owner_id) howner⟩
  · rintro ⟨⟨row, hrow, callable, hcallable, rfl⟩, howner⟩
    have hlisted : row ∈ rows.scripts.select fun r => r.owner_id = owner_id :=
      Table.mem_select.mpr ⟨hrow, decide_eq_true howner⟩
    obtain ⟨t, ht, callable', hcallable', rfl⟩ := pointwise.exists_right hall (mem_order_by_slug.mpr hlisted)
    rwa [hcallable.unique hcallable']

theorem script.exists_list_all (hintact : Intact rows) : ∃ all, Query.Yields (· = rows) (list_all owner_id) all := by
  simp only [yields_list_all]
  refine pointwise.exists_iff.mpr fun row _ => ?_
  obtain ⟨callable, hcallable⟩ := exists_callable hintact row.id
  exact ⟨_, callable, hcallable, rfl⟩

theorem service.find_in_list {all : List Service} (h : Query.Yields (· = rows) (list owner_id) all) {slug : Slug}
    {s : Service} : (all.find? fun s => s.slug = slug) = some s ↔ (Holds rows s ∧ s.owner_id = owner_id) ∧ s.slug = slug := by
  have hunique : ∀ {s s' : Service}, Holds rows s → Holds rows s' → s.owner_id = s'.owner_id → s.slug = s'.slug → s = s' := by
    rintro _ _ ⟨row, hrow, rfl⟩ ⟨row', hrow', rfl⟩ howner hslug
    rw [Table.eq_of_clash hrow hrow' (clash_of_key (Prod.ext howner hslug))]
  constructor
  · intro hfind
    exact ⟨(mem_list h).mp (List.mem_of_find?_eq_some hfind), by simpa using List.find?_some hfind⟩
  · rintro ⟨⟨hheld, howner⟩, rfl⟩
    have hlisted := (mem_list h).mpr ⟨hheld, howner⟩
    have hfound : (all.find? fun s' => s'.slug = s.slug).isSome = true :=
      List.find?_isSome.mpr ⟨s, hlisted, decide_eq_true rfl⟩
    obtain ⟨s', hfind⟩ := Option.isSome_iff_exists.mp hfound
    obtain ⟨hheld', howner'⟩ := (mem_list h).mp (List.mem_of_find?_eq_some hfind)
    rw [hfind, hunique hheld' hheld (howner'.trans howner.symm) (by simpa using List.find?_some hfind)]

/-- Items of different slugs, looked up by them. -/
theorem get_by_slug {α : Type} {slug : α → Slug} {all : List α} (h : all.Pairwise fun a b => slug a ≠ slug b)
    {s : Slug} {a : α} : BTreeMap.get (BTreeMap.collect (all.map fun a => (slug a, a))) s = some a ↔ a ∈ all ∧ slug a = s := by
  have hkeys : ((all.map fun a => (slug a, a)).map Prod.fst).Nodup := by
    rw [List.map_map]
    exact List.pairwise_map.mpr h
  constructor
  · intro hget
    obtain ⟨b, hb, heq⟩ := List.mem_map.mp (BTreeMap.mem_of_mem_collect (BTreeMap.mem_of_get hget))
    obtain ⟨rfl, rfl⟩ := Prod.mk.inj heq
    exact ⟨hb, rfl⟩
  · rintro ⟨ha, rfl⟩
    exact BTreeMap.get_of_mem_sorted (BTreeMap.sorted_collect _)
      ((BTreeMap.mem_collect hkeys).mpr (List.mem_map.mpr ⟨a, ha, rfl⟩))

end api2mcp.store

namespace api2mcp.pack

open relational btree concurrent except
open api2mcp.model api2mcp.store api2mcp.entity

namespace export_endpoint

theorem mem_selected {α : Type} {tag_expr : TagExpr} {tags : α → BTreeSet Tag} {by_slug : BTreeMap Slug α}
    (hsorted : by_slug.Sorted) {targets : List Slug} {slug : Slug} :
    slug ∈ selected tag_expr tags by_slug targets ↔
      (∃ a, by_slug.get slug = some a ∧ eval_tag_expr (tags a) tag_expr = true) ∨ slug ∈ targets := by
  rw [selected, BTreeSet.mem_extend, BTreeSet.mem_collect, List.mem_map]
  refine or_congr_left ?_
  constructor
  · rintro ⟨kv, hkv, rfl⟩
    obtain ⟨hkv, hselected⟩ := List.mem_filter.mp hkv
    exact ⟨kv.2, BTreeMap.get_of_mem_sorted hsorted hkv, hselected⟩
  · rintro ⟨a, hget, hselected⟩
    exact ⟨(slug, a), List.mem_filter.mpr ⟨BTreeMap.mem_of_get hget, hselected⟩, rfl⟩

theorem sorted_selected {α : Type} (tag_expr : TagExpr) (tags : α → BTreeSet Tag) (by_slug : BTreeMap Slug α)
    (targets : List Slug) : (selected tag_expr tags by_slug targets).Sorted :=
  BTreeSet.sorted_extend (BTreeSet.sorted_collect _) targets

theorem mem_api_call_targets {targets : List EndpointTarget} {slug : Slug} :
    slug ∈ api_call_targets targets ↔ .ApiCall slug ∈ targets := by
  rw [api_call_targets, List.mem_filterMap]
  constructor
  · rintro ⟨target, htarget, hslug⟩
    cases target with
    | ApiCall s =>
      obtain rfl := Option.some.inj hslug
      exact htarget
    | Script s => cases hslug
  · exact fun htarget => ⟨_, htarget, rfl⟩

theorem mem_script_targets {targets : List EndpointTarget} {slug : Slug} :
    slug ∈ script_targets targets ↔ .Script slug ∈ targets := by
  rw [script_targets, List.mem_filterMap]
  constructor
  · rintro ⟨target, htarget, hslug⟩
    cases target with
    | ApiCall s => cases hslug
    | Script s =>
      obtain rfl := Option.some.inj hslug
      exact htarget
  · exact fun htarget => ⟨_, htarget, rfl⟩

/-- What the script of a slug may call, if there is one. -/
def takes_along (scripts_by_slug : BTreeMap Slug script.TaggedScript) (slug : Slug) : List Slug :=
  match BTreeMap.get scripts_by_slug slug with
  | none => []
  | some tagged => tagged.script.callable.values

/-- Where every api_call that is declared is there, all of them are taken along. -/
theorem needed_eq {calls_by_slug : BTreeMap Slug api_call.TaggedApiCall}
    {scripts_by_slug : BTreeMap Slug script.TaggedScript} {slugs : List Slug}
    (hthere : ∀ slug ∈ slugs, ∀ target ∈ takes_along scripts_by_slug slug, calls_by_slug.contains_key target = true)
    (needed : BTreeSet Slug) : slugs.foldlM (needed_by calls_by_slug scripts_by_slug) needed =
      .ok (needed.extend (slugs.flatMap (takes_along scripts_by_slug))) := by
  have htargets : ∀ (script : Slug) (targets : List Slug) (needed : BTreeSet Slug),
      (∀ target ∈ targets, calls_by_slug.contains_key target = true) →
      targets.foldlM (needed_call calls_by_slug script) needed = .ok (needed.extend targets) := by
    intro script targets
    induction targets with
    | nil => exact fun _ _ => rfl
    | cons target targets ih =>
      intro needed hall
      rw [List.foldlM_cons, needed_call, if_pos (hall target List.mem_cons_self)]
      exact ih _ fun t ht => hall t (List.mem_cons_of_mem target ht)
  induction slugs generalizing needed with
  | nil => rfl
  | cons slug slugs ih =>
    have hhead : needed_by calls_by_slug scripts_by_slug needed slug =
        .ok (needed.extend (takes_along scripts_by_slug slug)) := by
      have hslug := hthere slug List.mem_cons_self
      unfold needed_by
      cases hget : BTreeMap.get scripts_by_slug slug with
      | none => simp [takes_along, hget, BTreeSet.extend]
      | some tagged =>
        have halong : takes_along scripts_by_slug slug = tagged.script.callable.values := by rw [takes_along, hget]
        rw [halong] at hslug ⊢
        exact htargets _ _ _ hslug
    rw [List.foldlM_cons, hhead, List.flatMap_cons]
    refine (ih (fun s hs => hthere s (List.mem_cons_of_mem slug hs)) _).trans ?_
    rw [BTreeSet.extend, BTreeSet.extend, BTreeSet.extend, List.foldl_append]

end export_endpoint

/-! What an export is of. -/

/-- What carries the tags that an endpoint asks for is selected, and what it has
a name for. -/
def Selects (e : EndpointDef) : Definition → Prop
  | .api_call t => t.api_call.owner_id = e.owner_id ∧
      (eval_tag_expr t.tags e.tag_expr = true ∨ .ApiCall t.api_call.slug ∈ e.aliases.values)
  | .script t => t.script.owner_id = e.owner_id ∧
      (eval_tag_expr t.tags e.tag_expr = true ∨ .Script t.script.slug ∈ e.aliases.values)
  | .service _ => False
  | .endpoint _ => False

/-- What an endpoint selects is needed, and what is named by what is needed. -/
inductive Needed (rows : Rows) (e : EndpointDef) : Definition → Prop
  | selected {d : Definition} (hheld : Holds rows d) (hselects : Selects e d) : Needed rows e d
  | named {d d' : Definition} (h : Needed rows e d) (hheld : Holds rows d') (hnamed : d'.key ∈ d.refs) :
      Needed rows e d'

/-- The endpoint without its scope, and all that it needs. -/
def Exported (rows : Rows) (e : EndpointDef) (d : Definition) : Prop :=
  d = .endpoint { e with auth_providers := [] } ∨ Needed rows e d

/-- The pack is of these definitions, each under its slug. -/
structure Pack.Carries (p : Pack) (P : Definition → Prop) : Prop where
  version : p.version = PACK_VERSION
  sorted : p.Sorted
  services : ∀ entry, entry ∈ p.services ↔ ∃ s, P (.service s) ∧ entry = (s.slug.as_str, service_to_pack s)
  api_calls : ∀ entry, entry ∈ p.api_calls ↔
    ∃ t, P (.api_call t) ∧ entry = (t.api_call.slug.as_str, api_call_to_pack t.api_call t.tags)
  scripts : ∀ entry, entry ∈ p.scripts ↔
    ∃ t, P (.script t) ∧ entry = (t.script.slug.as_str, script_to_pack t.script t.tags)
  endpoints : ∀ entry, entry ∈ p.endpoints ↔ ∃ e, P (.endpoint e) ∧ entry = (e.slug.as_str, endpoint_to_pack e)
  tags : p.tags = BTreeSet.collect (p.api_calls.values.flatMap (·.tags) ++ p.scripts.values.flatMap (·.tags))

/-- There is one pack of some definitions. -/
theorem Pack.Carries.unique {p p' : Pack} {P : Definition → Prop} (h : p.Carries P) (h' : p'.Carries P) : p = p' := by
  have hservices : p.services = p'.services := BTreeMap.eq_of_mem_iff h.sorted.services h'.sorted.services
    fun entry => (h.services entry).trans (h'.services entry).symm
  have hcalls : p.api_calls = p'.api_calls := BTreeMap.eq_of_mem_iff h.sorted.api_calls h'.sorted.api_calls
    fun entry => (h.api_calls entry).trans (h'.api_calls entry).symm
  have hscripts : p.scripts = p'.scripts := BTreeMap.eq_of_mem_iff h.sorted.scripts h'.sorted.scripts
    fun entry => (h.scripts entry).trans (h'.scripts entry).symm
  have hendpoints : p.endpoints = p'.endpoints := BTreeMap.eq_of_mem_iff h.sorted.endpoints h'.sorted.endpoints
    fun entry => (h.endpoints entry).trans (h'.endpoints entry).symm
  have htags : p.tags = p'.tags := by rw [h.tags, h'.tags, hcalls, hscripts]
  cases p
  cases p'
  simp only [Pack.mk.injEq]
  exact ⟨h.version.trans h'.version.symm, hservices, hcalls, hscripts, hendpoints, htags⟩

section

variable {rows : Rows} {e : EndpointDef}

theorem Needed.held {d : Definition} (h : Needed rows e d) : Holds rows d := by
  cases h with
  | selected hheld _ => exact hheld
  | named _ hheld _ => exact hheld

theorem Needed.owner {d : Definition} (h : Needed rows e d) : d.key.owner_id = e.owner_id := by
  induction h with
  | @selected d _ hselects =>
    cases d with
    | api_call t => exact hselects.1
    | script t => exact hselects.1
    | service s => cases hselects
    | endpoint e' => cases hselects
  | named _ _ hnamed ih => exact (Definition.refs_owner hnamed).trans ih

/-- An api_call names a service, and a script names api_calls. -/
theorem refs_cases {d d' : Definition} (h : d'.key ∈ d.refs) :
    (∃ t s, d = .api_call t ∧ d' = .service s ∧ t.api_call.service_slug = s.slug) ∨
      ∃ s t, d = .script s ∧ d' = .api_call t ∧ t.api_call.slug ∈ s.script.callable.values := by
  cases d with
  | service s => exact absurd h List.not_mem_nil
  | endpoint e => exact absurd h List.not_mem_nil
  | api_call t =>
    have hkey := List.mem_singleton.mp h
    cases d' with
    | service s => exact .inl ⟨t, s, rfl, rfl, (Key.service.inj hkey).2.symm⟩
    | _ => cases hkey
  | script s =>
    obtain ⟨kv, hkv, hkey⟩ := List.mem_map.mp h
    cases d' with
    | api_call t => exact .inr ⟨s, t, rfl, rfl, List.mem_map.mpr ⟨kv, hkv, (Key.api_call.inj hkey).2⟩⟩
    | _ => cases hkey

/-- What is needed is selected, is the service of an api_call that is needed, or
may be called by a script that is. -/
theorem needed_cases {d : Definition} (h : Needed rows e d) : Selects e d ∨
    (∃ t s, Needed rows e (.api_call t) ∧ d = .service s ∧ t.api_call.service_slug = s.slug) ∨
      ∃ s t, Needed rows e (.script s) ∧ d = .api_call t ∧ t.api_call.slug ∈ s.script.callable.values := by
  cases h with
  | selected _ hselects => exact .inl hselects
  | named h _ hnamed =>
    obtain ⟨t, s, rfl, rfl, hslug⟩ | ⟨s, t, rfl, rfl, hslug⟩ := refs_cases hnamed
    · exact .inr (.inl ⟨t, s, h, rfl, hslug⟩)
    · exact .inr (.inr ⟨s, t, h, rfl, hslug⟩)

/-- A script is needed only where it is selected. -/
theorem needed_script_iff {t : script.TaggedScript} :
    Needed rows e (.script t) ↔ Holds rows (.script t) ∧ Selects e (.script t) := by
  constructor
  · intro h
    obtain hselects | ⟨_, _, _, hkind, _⟩ | ⟨_, _, _, hkind, _⟩ := needed_cases h
    · exact ⟨h.held, hselects⟩
    · cases hkind
    · cases hkind
  · rintro ⟨hheld, hselects⟩
    exact .selected hheld hselects

/-- An api_call is needed where it is selected, and where a script of the
endpoint may call it. -/
theorem needed_api_call_iff {t : api_call.TaggedApiCall} :
    Needed rows e (.api_call t) ↔ Holds rows (.api_call t) ∧ t.api_call.owner_id = e.owner_id ∧
      (eval_tag_expr t.tags e.tag_expr = true ∨ .ApiCall t.api_call.slug ∈ e.aliases.values ∨
        ∃ s, Needed rows e (.script s) ∧ t.api_call.slug ∈ s.script.callable.values) := by
  constructor
  · intro h
    refine ⟨h.held, h.owner, ?_⟩
    obtain ⟨_, htagged | hnamed⟩ | ⟨_, _, _, hkind, _⟩ | ⟨s, t', hs, hkind, hslug⟩ := needed_cases h
    · exact .inl htagged
    · exact .inr (.inl hnamed)
    · cases hkind
    · obtain rfl := Definition.api_call.inj hkind
      exact .inr (.inr ⟨s, hs, hslug⟩)
  · rintro ⟨hheld, howner, htagged | hnamed | ⟨s, hs, hslug⟩⟩
    · exact .selected hheld ⟨howner, .inl htagged⟩
    · exact .selected hheld ⟨howner, .inr hnamed⟩
    · obtain ⟨kv, hkv, hslug⟩ := List.mem_map.mp hslug
      refine .named hs hheld (List.mem_map.mpr ⟨kv, hkv, ?_⟩)
      have hsowner : s.script.owner_id = e.owner_id := hs.owner
      rw [Definition.key, hsowner, howner, hslug]

/-- A service is needed where an api_call on it is. -/
theorem needed_service_iff {s : Service} :
    Needed rows e (.service s) ↔ Holds rows (.service s) ∧ s.owner_id = e.owner_id ∧
      ∃ t, Needed rows e (.api_call t) ∧ t.api_call.service_slug = s.slug := by
  constructor
  · intro h
    refine ⟨h.held, h.owner, ?_⟩
    obtain hselects | ⟨t, s', ht, hkind, hslug⟩ | ⟨_, _, _, hkind, _⟩ := needed_cases h
    · cases hselects
    · obtain rfl := Definition.service.inj hkind
      exact ⟨t, ht, hslug⟩
    · cases hkind
  · rintro ⟨hheld, howner, t, ht, hslug⟩
    refine .named ht hheld (List.mem_singleton.mpr ?_)
    have htowner : t.api_call.owner_id = e.owner_id := ht.owner
    rw [Definition.key, htowner, howner, hslug]

theorem not_needed_endpoint {e' : EndpointDef} : ¬ Needed rows e (.endpoint e') := by
  intro h
  obtain hselects | ⟨_, _, _, hkind, _⟩ | ⟨_, _, _, hkind, _⟩ := needed_cases h
  · cases hselects
  · cases hkind
  · cases hkind

/-- Whatever a definition names is there. -/
def Linked (rows : Rows) : Prop := ∀ d, Holds rows d → ∀ key ∈ d.refs, Has rows key

theorem exported_endpoint_iff {e' : EndpointDef} :
    Exported rows e (.endpoint e') ↔ e' = { e with auth_providers := [] } := by
  constructor
  · rintro (hsame | hneeded)
    · exact Definition.endpoint.inj hsame
    · exact absurd hneeded not_needed_endpoint
  · rintro rfl
    exact .inl rfl

theorem exported_iff {d : Definition} (h : ∀ e', d ≠ .endpoint e') : Exported rows e d ↔ Needed rows e d :=
  or_iff_right (h _)

namespace export_endpoint

theorem mem_takes_along {scripts_by_slug : BTreeMap Slug script.TaggedScript} {slug target : Slug} :
    target ∈ takes_along scripts_by_slug slug ↔
      ∃ t, BTreeMap.get scripts_by_slug slug = some t ∧ target ∈ t.script.callable.values := by
  unfold takes_along
  cases BTreeMap.get scripts_by_slug slug with
  | none => simp
  | some t => simp

/-- What is made of the items that are found under some slugs. -/
theorem mem_pick_by_slug {α β : Type} {f : Slug → Option α} {g : α → β} {slug : α → Slug} {keys : BTreeSet Slug}
    (hsorted : keys.Sorted) (hslug : ∀ s a, f s = some a → slug a = s) {P : α → Prop}
    (hP : ∀ a, P a ↔ f (slug a) = some a ∧ slug a ∈ keys) {entry : String × β} :
    entry ∈ BTreeMap.pick Slug.as_str (fun s => (f s).map g) keys ↔ ∃ a, P a ∧ entry = ((slug a).as_str, g a) := by
  rw [BTreeMap.mem_pick (fun _ _ h => Slug.ext_str h) hsorted]
  constructor
  · rintro ⟨s, hs, value, hvalue, rfl⟩
    obtain ⟨a, ha, rfl⟩ := Option.map_eq_some_iff.mp hvalue
    obtain rfl := hslug s a ha
    exact ⟨a, (hP a).mpr ⟨ha, hs⟩, rfl⟩
  · rintro ⟨a, ha, rfl⟩
    obtain ⟨hfound, hs⟩ := (hP a).mp ha
    exact ⟨slug a, hs, g a, by rw [hfound]; rfl, rfl⟩

section

variable {calls_by_slug : BTreeMap Slug api_call.TaggedApiCall} {scripts_by_slug : BTreeMap Slug script.TaggedScript}

/-- The scripts of the endpoint that are there are the ones it needs. -/
theorem needed_iff_selected_scripts (hsorted : scripts_by_slug.Sorted)
    (hscripts : ∀ slug t, scripts_by_slug.get slug = some t ↔
      (Holds rows (.script t) ∧ t.script.owner_id = e.owner_id) ∧ t.script.slug = slug) (t : script.TaggedScript) :
    Needed rows e (.script t) ↔ scripts_by_slug.get t.script.slug = some t ∧
      t.script.slug ∈ selected e.tag_expr (·.tags) scripts_by_slug (script_targets e.aliases.values) := by
  rw [needed_script_iff, hscripts, mem_selected hsorted, mem_script_targets]
  constructor
  · rintro ⟨hheld, howner, hselected⟩
    have hthere := (hscripts _ t).mpr ⟨⟨hheld, howner⟩, rfl⟩
    exact ⟨⟨⟨hheld, howner⟩, rfl⟩, hselected.imp_left fun htagged => ⟨t, hthere, htagged⟩⟩
  · rintro ⟨⟨⟨hheld, howner⟩, _⟩, hselected⟩
    refine ⟨hheld, howner, hselected.imp_left ?_⟩
    rintro ⟨t', ht', htagged⟩
    have hthere := (hscripts _ t).mpr ⟨⟨hheld, howner⟩, rfl⟩
    rwa [Option.some.inj (ht'.symm.trans hthere)] at htagged

/-- The api_calls that are there and are gathered are the ones the endpoint
needs. -/
theorem needed_iff_needed_calls (hsorted : scripts_by_slug.Sorted) (hcsorted : calls_by_slug.Sorted)
    (hscripts : ∀ slug t, scripts_by_slug.get slug = some t ↔
      (Holds rows (.script t) ∧ t.script.owner_id = e.owner_id) ∧ t.script.slug = slug)
    (hcalls : ∀ slug t, calls_by_slug.get slug = some t ↔
      (Holds rows (.api_call t) ∧ t.api_call.owner_id = e.owner_id) ∧ t.api_call.slug = slug)
    (t : api_call.TaggedApiCall) :
    Needed rows e (.api_call t) ↔ calls_by_slug.get t.api_call.slug = some t ∧
      t.api_call.slug ∈ (selected e.tag_expr (·.tags) calls_by_slug (api_call_targets e.aliases.values)).extend
        ((selected e.tag_expr (·.tags) scripts_by_slug (script_targets e.aliases.values)).flatMap
          (takes_along scripts_by_slug)) := by
  have hscript := needed_iff_selected_scripts hsorted hscripts
  rw [needed_api_call_iff, hcalls, BTreeSet.mem_extend, mem_selected hcsorted, mem_api_call_targets, List.mem_flatMap]
  constructor
  · rintro ⟨hheld, howner, hneeded⟩
    have hthere := (hcalls _ t).mpr ⟨⟨hheld, howner⟩, rfl⟩
    refine ⟨⟨⟨hheld, howner⟩, rfl⟩, ?_⟩
    obtain htagged | hnamed | ⟨s, hs, htarget⟩ := hneeded
    · exact .inl (.inl ⟨t, hthere, htagged⟩)
    · exact .inl (.inr hnamed)
    · obtain ⟨hget, hselected⟩ := (hscript s).mp hs
      exact .inr ⟨_, hselected, mem_takes_along.mpr ⟨s, hget, htarget⟩⟩
  · rintro ⟨⟨⟨hheld, howner⟩, _⟩, (⟨t', ht', htagged⟩ | hnamed) | ⟨slug, hselected, htaken⟩⟩
    · have hthere := (hcalls _ t).mpr ⟨⟨hheld, howner⟩, rfl⟩
      rw [Option.some.inj (ht'.symm.trans hthere)] at htagged
      exact ⟨hheld, howner, .inl htagged⟩
    · exact ⟨hheld, howner, .inr (.inl hnamed)⟩
    · obtain ⟨s, hget, htarget⟩ := mem_takes_along.mp htaken
      obtain ⟨_, rfl⟩ := (hscripts slug s).mp hget
      exact ⟨hheld, howner, .inr (.inr ⟨s, (hscript s).mpr ⟨hget, hselected⟩, htarget⟩)⟩

/-- The services that are there and have an api_call that is gathered are the
ones the endpoint needs. -/
theorem needed_iff_needed_services {services : List Service} {needed_calls : List Slug}
    (hservices : Query.Yields (· = rows) (service.list e.owner_id) services)
    (hcall : ∀ t, Needed rows e (.api_call t) ↔
      calls_by_slug.get t.api_call.slug = some t ∧ t.api_call.slug ∈ needed_calls)
    (hslug : ∀ slug t, calls_by_slug.get slug = some t → t.api_call.slug = slug) (s : Service) :
    Needed rows e (.service s) ↔ (services.find? fun s' => s'.slug = s.slug) = some s ∧
      s.slug ∈ BTreeSet.collect (needed_calls.filterMap fun slug =>
        (calls_by_slug.get slug).map fun tagged => tagged.api_call.service_slug) := by
  have hneeded : s.slug ∈ BTreeSet.collect (needed_calls.filterMap fun slug =>
        (calls_by_slug.get slug).map fun tagged => tagged.api_call.service_slug) ↔
      ∃ t, Needed rows e (.api_call t) ∧ t.api_call.service_slug = s.slug := by
    rw [BTreeSet.mem_collect, List.mem_filterMap]
    constructor
    · rintro ⟨slug, hmem, hmap⟩
      obtain ⟨t, hget, hservice⟩ := Option.map_eq_some_iff.mp hmap
      obtain rfl := hslug slug t hget
      exact ⟨t, (hcall t).mpr ⟨hget, hmem⟩, hservice⟩
    · rintro ⟨t, ht, hservice⟩
      obtain ⟨hget, hmem⟩ := (hcall t).mp ht
      exact ⟨_, hmem, Option.map_eq_some_iff.mpr ⟨t, hget, hservice⟩⟩
  rw [needed_service_iff, service.find_in_list hservices, hneeded]
  constructor
  · rintro ⟨hheld, howner, hcalled⟩
    exact ⟨⟨⟨hheld, howner⟩, rfl⟩, hcalled⟩
  · rintro ⟨⟨⟨hheld, howner⟩, _⟩, hcalled⟩
    exact ⟨hheld, howner, hcalled⟩

end

/-- What is made of what an owner's lists hold is the pack of what the endpoint
needs. -/
theorem collect_carries (hlinked : Linked rows) {calls : List api_call.TaggedApiCall}
    (hcalls : Query.Yields (· = rows) (api_call.list_all e.owner_id) calls) {scripts : List script.TaggedScript}
    (hscripts : Query.Yields (· = rows) (script.list_all e.owner_id) scripts) {services : List Service}
    (hservices : Query.Yields (· = rows) (service.list e.owner_id) services) :
    ∃ p, collect (BTreeMap.collect (calls.map fun c => (c.api_call.slug, c)))
        (BTreeMap.collect (scripts.map fun s => (s.script.slug, s))) e services = .ok p ∧
      p.Carries (Exported rows e) := by
  let calls_by_slug := BTreeMap.collect (calls.map fun c => (c.api_call.slug, c))
  let scripts_by_slug := BTreeMap.collect (scripts.map fun s => (s.script.slug, s))
  have hcsorted : calls_by_slug.Sorted := BTreeMap.sorted_collect _
  have hsorted : scripts_by_slug.Sorted := BTreeMap.sorted_collect _
  have hcall : ∀ slug t, calls_by_slug.get slug = some t ↔
      (Holds rows (.api_call t) ∧ t.api_call.owner_id = e.owner_id) ∧ t.api_call.slug = slug := fun slug t =>
    (get_by_slug (resolve.slugs_of_api_calls hcalls)).trans (and_congr_left' (api_call.mem_list_all hcalls))
  have hscript : ∀ slug t, scripts_by_slug.get slug = some t ↔
      (Holds rows (.script t) ∧ t.script.owner_id = e.owner_id) ∧ t.script.slug = slug := fun slug t =>
    (get_by_slug (resolve.slugs_of_scripts hscripts)).trans (and_congr_left' (script.mem_list_all hscripts))
  have hthere : ∀ slug ∈ selected e.tag_expr (·.tags) scripts_by_slug (script_targets e.aliases.values),
      ∀ target ∈ takes_along scripts_by_slug slug, calls_by_slug.contains_key target = true := by
    intro slug _ target htarget
    obtain ⟨t, hget, htarget⟩ := mem_takes_along.mp htarget
    obtain ⟨⟨hheld, howner⟩, _⟩ := (hscript slug t).mp hget
    obtain ⟨kv, hkv, rfl⟩ := List.mem_map.mp htarget
    obtain ⟨d, hd, hkey⟩ := hlinked _ hheld _ (List.mem_map_of_mem hkv)
    cases d with
    | api_call c =>
      obtain ⟨hcowner, hslug⟩ := Key.api_call.inj hkey
      exact Option.isSome_iff_exists.mpr ⟨c, (hcall _ c).mpr ⟨⟨hd, hcowner.trans howner⟩, hslug⟩⟩
    | _ => cases hkey
  have hneeded := needed_eq hthere (selected e.tag_expr (·.tags) calls_by_slug (api_call_targets e.aliases.values))
  refine ⟨_, except.bind_eq_ok.mpr ⟨_, hneeded, rfl⟩, ?_⟩
  refine ⟨rfl, ⟨?_, ?_, ?_, ?_⟩, fun entry => ?_, fun entry => ?_, fun entry => ?_, fun entry => ?_, ?_⟩
  · exact BTreeMap.sorted_collect _
  · exact BTreeMap.sorted_collect _
  · exact BTreeMap.sorted_collect _
  · exact List.pairwise_singleton _ _
  · have hcalled := needed_iff_needed_calls hsorted hcsorted hscript hcall
    refine mem_pick_by_slug (BTreeSet.sorted_collect _) (fun slug s hs => ((service.find_in_list hservices).mp hs).2)
      fun s => ?_
    rw [exported_iff (by rintro _ ⟨⟩)]
    exact needed_iff_needed_services hservices hcalled (fun slug t ht => ((hcall slug t).mp ht).2) s
  · refine mem_pick_by_slug (BTreeSet.sorted_extend (sorted_selected _ _ _ _) _)
      (fun slug t ht => ((hcall slug t).mp ht).2) fun t => ?_
    rw [exported_iff (by rintro _ ⟨⟩)]
    exact needed_iff_needed_calls hsorted hcsorted hscript hcall t
  · refine mem_pick_by_slug (sorted_selected _ _ _ _) (fun slug t ht => ((hscript slug t).mp ht).2) fun t => ?_
    rw [exported_iff (by rintro _ ⟨⟩)]
    exact needed_iff_selected_scripts hsorted hscript t
  · simp only [exported_endpoint_iff, exists_eq_left, List.mem_singleton]
  · exact (List.foldl_append ..).symm

end export_endpoint

/-- An export is of what the endpoint needs, and of nothing else. -/
theorem yields_export_endpoint (hintact : Intact rows) (hlinked : Linked rows) {owner_id : Uuid} {slug : Slug} {p : Pack} :
    Query.Yields (· = rows) (export_endpoint owner_id slug) p ↔
      ∃ e, Holds rows (.endpoint e) ∧ e.owner_id = owner_id ∧ e.slug = slug ∧ p.Carries (Exported rows e) := by
  rw [export_endpoint, Query.yields_bind]
  constructor
  · rintro ⟨found, hfound, hrest⟩
    rw [Query.yields_adapt] at hfound
    cases found with
    | none => exact absurd hrest Query.yields_throw
    | some e =>
      obtain ⟨hheld, rfl, rfl⟩ := endpoint.yields_get.mp hfound
      simp only [Query.yields_bind, Query.yields_adapt, Query.yields_mk_pure] at hrest
      obtain ⟨calls, hcalls, scripts, hscripts, services, hservices, hcollect⟩ := hrest
      obtain ⟨p', hcollect', hcarries⟩ := export_endpoint.collect_carries hlinked hcalls hscripts hservices
      obtain rfl := Except.ok.inj (hcollect.symm.trans hcollect')
      exact ⟨e, hheld, rfl, rfl, hcarries⟩
  · rintro ⟨e, hheld, rfl, rfl, hcarries⟩
    refine ⟨some e, Query.yields_adapt.mpr (endpoint.yields_get.mpr ⟨hheld, rfl, rfl⟩), ?_⟩
    obtain ⟨calls, hcalls⟩ := @api_call.exists_list_all rows e.owner_id hintact
    obtain ⟨scripts, hscripts⟩ := @script.exists_list_all rows e.owner_id hintact
    obtain ⟨services, hservices⟩ : ∃ all, Query.Yields (· = rows) (service.list e.owner_id) all :=
      ⟨_, Query.yields_eval.mpr rfl⟩
    obtain ⟨p', hcollect, hcarries'⟩ := export_endpoint.collect_carries hlinked hcalls hscripts hservices
    obtain rfl := hcarries.unique hcarries'
    simp only [Query.yields_bind, Query.yields_adapt, Query.yields_mk_pure]
    exact ⟨calls, hcalls, scripts, hscripts, services, hservices, hcollect⟩

end

end api2mcp.pack
