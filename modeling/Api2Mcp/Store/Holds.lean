import Api2Mcp.Collections.Sorted
import Api2Mcp.Store.Definitions

namespace api2mcp.store

open relational btree concurrent
open api2mcp.model api2mcp.entity

/-! What the rows say: the definitions they hold, each as a reader of these
rows sees it. -/

variable {rows : Rows}

@[simp] theorem yields_select {α : Type} {f : Rows → α} {a : α} :
    Query.Yields (· = rows) (select f) a ↔ f rows = a := by
  simp [select, Query.yields_select]

/-- A key that an index tells apart. -/
theorem eq_of_find {ρ : Type} {u : Indexes ρ} {t : Table u} {p : ρ → Bool}
    (huniq : ∀ a b, p a = true → p b = true → u.clash a b = true) {r : ρ} :
    t.find p = some r ↔ r ∈ t.rows ∧ p r = true :=
  ⟨Table.mem_of_find, fun ⟨hr, hp⟩ => Table.find_of_mem hr hp fun a _ ha => huniq a r ha hp⟩

namespace service

def Holds (rows : Rows) (s : Service) : Prop := ∃ row ∈ rows.services.rows, to_model row = s

theorem find_by_slug {owner_id : Uuid} {slug : Slug} {row : services.Model} :
    (rows.services.find fun r => r.owner_id = owner_id && r.slug = slug) = some row ↔
      row ∈ rows.services.rows ∧ row.owner_id = owner_id ∧ row.slug = slug := by
  rw [eq_of_find, Bool.and_eq_true, decide_eq_true_eq, decide_eq_true_eq]
  intro a b ha hb
  simp only [Bool.and_eq_true, decide_eq_true_eq] at ha hb
  simp [services.indexes, Indexes.or, Indexes.on, ha, hb]

theorem find_by_id {id : Uuid} {row : services.Model} :
    (rows.services.find fun r => r.id = id) = some row ↔ row ∈ rows.services.rows ∧ row.id = id := by
  rw [eq_of_find, decide_eq_true_eq]
  intro a b ha hb
  simp only [decide_eq_true_eq] at ha hb
  simp [services.indexes, Indexes.or, Indexes.on, ha, hb]

theorem yields_get_by_slug {owner_id : Uuid} {slug : Slug} {s : Service} :
    Query.Yields (· = rows) (get_by_slug owner_id slug) (some s) ↔
      Holds rows s ∧ s.owner_id = owner_id ∧ s.slug = slug := by
  simp only [get_by_slug, Query.yields_bind, yields_select, exists_eq_left', Query.yields_pure,
    Option.map_eq_some_iff, find_by_slug]
  constructor
  · rintro ⟨row, ⟨hrow, howner, hslug⟩, rfl⟩
    exact ⟨⟨row, hrow, rfl⟩, howner, hslug⟩
  · rintro ⟨⟨row, hrow, rfl⟩, howner, hslug⟩
    exact ⟨row, ⟨hrow, howner, hslug⟩, rfl⟩

theorem yields_id_by_slug {owner_id : Uuid} {slug : Slug} {id : Uuid} :
    Query.Yields (· = rows) (id_by_slug owner_id slug) id ↔
      ∃ row ∈ rows.services.rows, row.owner_id = owner_id ∧ row.slug = slug ∧ row.id = id := by
  simp only [id_by_slug, Query.yields_bind, yields_select, exists_eq_left', yields_ok_or,
    Option.map_eq_some_iff, find_by_slug]
  constructor
  · rintro ⟨row, ⟨hrow, howner, hslug⟩, rfl⟩
    exact ⟨row, hrow, howner, hslug, rfl⟩
  · rintro ⟨row, hrow, howner, hslug, rfl⟩
    exact ⟨row, ⟨hrow, howner, hslug⟩, rfl⟩

theorem yields_slug_by_id {id : Uuid} {slug : Slug} :
    Query.Yields (· = rows) (slug_by_id id) slug ↔
      ∃ row ∈ rows.services.rows, row.id = id ∧ row.slug = slug := by
  simp only [slug_by_id, Query.yields_bind, yields_select, exists_eq_left', yields_ok_or,
    Option.map_eq_some_iff, find_by_id, and_assoc]

end service

namespace tag

/-- The tags with these keys. -/
def named (rows : Rows) (ids : List Uuid) : BTreeSet Tag :=
  BTreeSet.collect ((rows.tags.select fun r => ids.contains r.id).map fun r => ⟨r.name⟩)

theorem mem_named {ids : List Uuid} {tag : Tag} :
    tag ∈ named rows ids ↔ ∃ r ∈ rows.tags.rows, r.id ∈ ids ∧ r.name = tag.name := by
  rw [named, BTreeSet.mem_collect, List.mem_map]
  constructor
  · rintro ⟨r, hr, rfl⟩
    obtain ⟨hr, hid⟩ := Table.mem_select.mp hr
    exact ⟨r, hr, by simpa using hid, rfl⟩
  · rintro ⟨r, hr, hid, hname⟩
    refine ⟨r, Table.mem_select.mpr ⟨hr, by simpa using hid⟩, ?_⟩
    rw [hname]

theorem yields_tags_by_ids {ids : List Uuid} {tags : BTreeSet Tag} :
    Query.Yields (· = rows) (tags_by_ids ids) tags ↔ named rows ids = tags := by
  unfold tags_by_ids
  split
  · rename_i hempty
    obtain rfl := List.isEmpty_iff.mp hempty
    simp [named, Table.select, BTreeSet.collect]
  · simp only [Query.yields_bind, yields_select, exists_eq_left', Query.yields_pure, named]

/-- The keys of the tags an api_call bears. -/
def ids_of_api_call (rows : Rows) (id : Uuid) : List Uuid :=
  (rows.api_call_tags.select fun r => r.api_call_id = id).map (·.tag_id)

/-- The keys of the tags a script bears. -/
def ids_of_script (rows : Rows) (id : Uuid) : List Uuid :=
  (rows.script_tags.select fun r => r.script_id = id).map (·.tag_id)

theorem yields_tags_for_api_call {id : Uuid} {tags : BTreeSet Tag} :
    Query.Yields (· = rows) (tags_for_api_call id) tags ↔ named rows (ids_of_api_call rows id) = tags := by
  simp only [tags_for_api_call, Query.yields_bind, yields_select, exists_eq_left', yields_tags_by_ids,
    ids_of_api_call]

theorem yields_tags_for_script {id : Uuid} {tags : BTreeSet Tag} :
    Query.Yields (· = rows) (tags_for_script id) tags ↔ named rows (ids_of_script rows id) = tags := by
  simp only [tags_for_script, Query.yields_bind, yields_select, exists_eq_left', yields_tags_by_ids,
    ids_of_script]

end tag

namespace api_call

/-- The params of a call, in the order of their positions. -/
def params_of (rows : Rows) (id : Uuid) : List Param :=
  ((rows.api_call_params.select fun r => r.api_call_id = id).insertionSort
    fun a b => a.position ≤ b.position).map param_to_model

/-- The call of a row. -/
def of_row (rows : Rows) (row : api_calls.Model) (service_slug : Slug) : TaggedApiCall where
  api_call := to_model row service_slug (params_of rows row.id)
  tags := tag.named rows (tag.ids_of_api_call rows row.id)

def Holds (rows : Rows) (tagged : TaggedApiCall) : Prop :=
  ∃ row ∈ rows.api_calls.rows, ∃ s ∈ rows.services.rows, s.id = row.service_id ∧
    of_row rows row s.slug = tagged

theorem find_by_slug {owner_id : Uuid} {slug : Slug} {row : api_calls.Model} :
    (rows.api_calls.find fun r => r.owner_id = owner_id && r.slug = slug) = some row ↔
      row ∈ rows.api_calls.rows ∧ row.owner_id = owner_id ∧ row.slug = slug := by
  rw [eq_of_find, Bool.and_eq_true, decide_eq_true_eq, decide_eq_true_eq]
  intro a b ha hb
  simp only [Bool.and_eq_true, decide_eq_true_eq] at ha hb
  simp [api_calls.indexes, Indexes.or, Indexes.on, ha, hb]

theorem find_on_service {owner_id service_id : Uuid} {slug : Slug} {row : api_calls.Model} :
    (rows.api_calls.find fun r =>
        r.owner_id = owner_id && r.service_id = service_id && r.slug = slug) = some row ↔
      row ∈ rows.api_calls.rows ∧ row.owner_id = owner_id ∧ row.service_id = service_id ∧
        row.slug = slug := by
  rw [eq_of_find]
  · simp only [Bool.and_eq_true, decide_eq_true_eq, and_assoc]
  · intro a b ha hb
    simp only [Bool.and_eq_true, decide_eq_true_eq] at ha hb
    simp [api_calls.indexes, Indexes.or, Indexes.on, ha, hb]

theorem find_by_id {id : Uuid} {row : api_calls.Model} :
    (rows.api_calls.find fun r => r.id = id) = some row ↔ row ∈ rows.api_calls.rows ∧ row.id = id := by
  rw [eq_of_find, decide_eq_true_eq]
  intro a b ha hb
  simp only [decide_eq_true_eq] at ha hb
  simp [api_calls.indexes, Indexes.or, Indexes.on, ha, hb]

theorem yields_assemble {row : api_calls.Model} {service_slug : Slug} {tagged : TaggedApiCall} :
    Query.Yields (· = rows) (assemble row service_slug) tagged ↔ of_row rows row service_slug = tagged := by
  simp only [assemble, load_params, Query.yields_bind, yields_select, exists_eq_left', Query.yields_pure,
    tag.yields_tags_for_api_call, of_row, params_of]

theorem yields_service_id {owner_id : Uuid} {service_slug : Slug} {id : Uuid} :
    Query.Yields (· = rows) (auth_provider.service_id owner_id service_slug) (some id) ↔
      ∃ s ∈ rows.services.rows, s.owner_id = owner_id ∧ s.slug = service_slug ∧ s.id = id := by
  rw [← service.yields_id_by_slug, Query.yields_eval, Query.yields_eval]
  unfold auth_provider.service_id
  rw [ExceptT.run_mk, Query.eval_bind]
  cases (service.id_by_slug owner_id service_slug).run.eval rows with
  | ok id' => simp
  | error e => cases e <;> simp

theorem yields_get {owner_id : Uuid} {service_slug slug : Slug} {tagged : TaggedApiCall} :
    Query.Yields (· = rows) (get owner_id service_slug slug) (some tagged) ↔
      ∃ row ∈ rows.api_calls.rows, ∃ s ∈ rows.services.rows, s.id = row.service_id ∧
        of_row rows row s.slug = tagged ∧ row.owner_id = owner_id ∧ row.slug = slug ∧
        s.owner_id = owner_id ∧ s.slug = service_slug := by
  unfold get
  rw [Query.yields_bind]
  constructor
  · rintro ⟨found, hservice, hcall⟩
    cases found with
    | none => simp at hcall
    | some service_id =>
      obtain ⟨s, hs, howner, hslug, rfl⟩ := yields_service_id.mp hservice
      rw [Query.yields_bind] at hcall
      obtain ⟨row, hrow, hcall⟩ := hcall
      rw [yields_select] at hrow
      cases row with
      | none => simp at hcall
      | some row =>
        rw [find_on_service] at hrow
        obtain ⟨hrow, hrowner, hrservice, hrslug⟩ := hrow
        dsimp only at hcall
        rw [Query.yields_bind] at hcall
        obtain ⟨_, hcall, hdone⟩ := hcall
        obtain rfl := Option.some.inj (Query.yields_pure.mp hdone)
        refine ⟨row, hrow, s, hs, hrservice.symm, ?_, hrowner, hrslug, howner, hslug⟩
        rw [hslug]
        exact yields_assemble.mp hcall
  · rintro ⟨row, hrow, s, hs, hservice, hcall, hrowner, hrslug, howner, hslug⟩
    refine ⟨some s.id, yields_service_id.mpr ⟨s, hs, howner, hslug, rfl⟩, ?_⟩
    dsimp only
    rw [Query.yields_bind]
    refine ⟨some row, ?_, ?_⟩
    · rw [yields_select, find_on_service]
      exact ⟨hrow, hrowner, hservice.symm, hrslug⟩
    · dsimp only
      rw [Query.yields_bind]
      refine ⟨tagged, yields_assemble.mpr ?_, Query.yields_pure.mpr rfl⟩
      rw [← hslug]
      exact hcall

theorem yields_slug_by_id {id : Uuid} {slug : Slug} :
    Query.Yields (· = rows) (slug_by_id id) slug ↔
      ∃ row ∈ rows.api_calls.rows, row.id = id ∧ row.slug = slug := by
  simp only [slug_by_id, Query.yields_bind, yields_select, exists_eq_left', yields_ok_or,
    Option.map_eq_some_iff, find_by_id, and_assoc]

end api_call

namespace script

/-- The params of a script, in the order of their positions. -/
def params_of (rows : Rows) (id : Uuid) : List Param :=
  ((rows.script_params.select fun r => r.script_id = id).insertionSort
    fun a b => a.position ≤ b.position).map param_to_model

/-- The script of a row. -/
def of_row (rows : Rows) (row : scripts.Model) (callable : BTreeMap String Slug) : TaggedScript where
  script := to_model row (params_of rows row.id) callable
  tags := tag.named rows (tag.ids_of_script rows row.id)

def Holds (rows : Rows) (tagged : TaggedScript) : Prop :=
  ∃ row ∈ rows.scripts.rows, ∃ callable, Query.Yields (· = rows) (load_callable row.id) callable ∧
    of_row rows row callable = tagged

theorem find_by_slug {owner_id : Uuid} {slug : Slug} {row : scripts.Model} :
    (rows.scripts.find fun r => r.owner_id = owner_id && r.slug = slug) = some row ↔
      row ∈ rows.scripts.rows ∧ row.owner_id = owner_id ∧ row.slug = slug := by
  rw [eq_of_find, Bool.and_eq_true, decide_eq_true_eq, decide_eq_true_eq]
  intro a b ha hb
  simp only [Bool.and_eq_true, decide_eq_true_eq] at ha hb
  simp [scripts.indexes, Indexes.or, Indexes.on, ha, hb]

/-- An entry is read from the row of the call it names. -/
theorem yields_load_callable {id : Uuid} {callable : BTreeMap String Slug} :
    Query.Yields (· = rows) (load_callable id) callable ↔
      ∃ pairs : List (String × Slug), BTreeMap.collect pairs = callable ∧
        List.Forall₂ (fun r pair => r.alias_name = pair.1 ∧
            ∃ c ∈ rows.api_calls.rows, c.id = r.api_call_id ∧ c.slug = pair.2)
          (rows.script_api_calls.select fun r => r.script_id = id) pairs := by
  have hentry : ∀ (r : script_api_calls.Model) (pair : String × Slug),
      Query.Yields (· = rows) (do
          let slug ← api_call.slug_by_id r.api_call_id
          return (r.alias_name, slug)) pair ↔
        r.alias_name = pair.1 ∧ ∃ c ∈ rows.api_calls.rows, c.id = r.api_call_id ∧ c.slug = pair.2 := by
    intro r pair
    simp only [Query.yields_bind, api_call.yields_slug_by_id, Query.yields_pure]
    constructor
    · rintro ⟨slug, hcall, rfl⟩
      exact ⟨rfl, hcall⟩
    · rintro ⟨hname, hcall⟩
      exact ⟨pair.2, hcall, by rw [hname]⟩
  simp only [load_callable, Query.yields_bind, yields_select, exists_eq_left', Query.yields_mapM,
    Query.yields_pure, hentry]
  exact exists_congr fun pairs => and_comm

theorem yields_assemble {row : scripts.Model} {tagged : TaggedScript} :
    Query.Yields (· = rows) (assemble row) tagged ↔
      ∃ callable, Query.Yields (· = rows) (load_callable row.id) callable ∧
        of_row rows row callable = tagged := by
  simp only [assemble, load_script_params, Query.yields_bind, yields_select, exists_eq_left',
    Query.yields_pure, tag.yields_tags_for_script, of_row, params_of]

theorem yields_get {owner_id : Uuid} {slug : Slug} {tagged : TaggedScript} :
    Query.Yields (· = rows) (get owner_id slug) (some tagged) ↔
      Holds rows tagged ∧ tagged.script.owner_id = owner_id ∧ tagged.script.slug = slug := by
  unfold get
  rw [Query.yields_bind]
  constructor
  · rintro ⟨found, hrow, hscript⟩
    rw [yields_select] at hrow
    cases found with
    | none => simp at hscript
    | some row =>
      obtain ⟨hrow, howner, hslug⟩ := find_by_slug.mp hrow
      dsimp only at hscript
      rw [Query.yields_bind] at hscript
      obtain ⟨_, hscript, hdone⟩ := hscript
      obtain rfl := Option.some.inj (Query.yields_pure.mp hdone)
      obtain ⟨callable, hcallable, rfl⟩ := yields_assemble.mp hscript
      exact ⟨⟨row, hrow, callable, hcallable, rfl⟩, howner, hslug⟩
  · rintro ⟨⟨row, hrow, callable, hcallable, rfl⟩, howner, hslug⟩
    refine ⟨some row, by rw [yields_select]; exact find_by_slug.mpr ⟨hrow, howner, hslug⟩, ?_⟩
    dsimp only
    rw [Query.yields_bind]
    exact ⟨_, yields_assemble.mpr ⟨callable, hcallable, rfl⟩, Query.yields_pure.mpr rfl⟩

theorem yields_id_by_slug {owner_id : Uuid} {slug : Slug} {id : Uuid} :
    Query.Yields (· = rows) (id_by_slug owner_id slug) id ↔
      ∃ row ∈ rows.scripts.rows, row.owner_id = owner_id ∧ row.slug = slug ∧ row.id = id := by
  simp only [id_by_slug, Query.yields_bind, yields_select, exists_eq_left', yields_ok_or,
    Option.map_eq_some_iff, find_by_slug, and_assoc]

end script

namespace endpoint

/-- The names of an endpoint's rows. -/
def aliases_of (rows : Rows) (id : Uuid) : BTreeMap String EndpointTarget :=
  BTreeMap.collect ((rows.endpoint_aliases.select fun r => r.endpoint_id = id).map
    fun r => (r.alias_name, r.target))

def Holds (rows : Rows) (e : EndpointDef) : Prop :=
  ∃ row ∈ rows.endpoints.rows, ∃ auth_providers,
    Query.Yields (· = rows) (load_auth_providers row.id) auth_providers ∧
      to_model row (aliases_of rows row.id) auth_providers = e

theorem find_by_slug {owner_id : Uuid} {slug : Slug} {row : endpoints.Model} :
    (rows.endpoints.find fun r => r.owner_id = owner_id && r.slug = slug) = some row ↔
      row ∈ rows.endpoints.rows ∧ row.owner_id = owner_id ∧ row.slug = slug := by
  rw [eq_of_find, Bool.and_eq_true, decide_eq_true_eq, decide_eq_true_eq]
  intro a b ha hb
  simp only [Bool.and_eq_true, decide_eq_true_eq] at ha hb
  simp [endpoints.indexes, Indexes.or, Indexes.on, ha, hb]

theorem yields_auth_provider_slug {id : Uuid} {slug : Slug} :
    Query.Yields (· = rows) (auth_provider.slug_by_id id) slug ↔
      ∃ p ∈ rows.auth_providers.rows, p.id = id ∧ p.slug = slug := by
  have hfind : ∀ p, (rows.auth_providers.find fun r => r.id = id) = some p ↔
      p ∈ rows.auth_providers.rows ∧ p.id = id := by
    intro p
    rw [eq_of_find, decide_eq_true_eq]
    intro a b ha hb
    simp only [decide_eq_true_eq] at ha hb
    simp [auth_providers.indexes, Indexes.or, Indexes.on, ha, hb]
  simp only [auth_provider.slug_by_id, Query.yields_bind, yields_select, exists_eq_left', yields_ok_or,
    Option.map_eq_some_iff, hfind, and_assoc]

theorem yields_load_auth_providers {id : Uuid} {providers : BTreeSet Slug} :
    Query.Yields (· = rows) (load_auth_providers id) providers ↔
      ∃ slugs : List Slug, BTreeSet.collect slugs = providers ∧
        List.Forall₂ (fun r slug => ∃ p ∈ rows.auth_providers.rows, p.id = r.auth_provider_id ∧ p.slug = slug)
          (rows.endpoint_auth_providers.select fun r => r.endpoint_id = id) slugs := by
  simp only [load_auth_providers, Query.yields_bind, yields_select, exists_eq_left', Query.yields_mapM,
    Query.yields_pure, yields_auth_provider_slug]
  exact exists_congr fun slugs => and_comm

theorem yields_assemble {row : endpoints.Model} {e : EndpointDef} :
    Query.Yields (· = rows) (assemble row) e ↔
      ∃ auth_providers, Query.Yields (· = rows) (load_auth_providers row.id) auth_providers ∧
        to_model row (aliases_of rows row.id) auth_providers = e := by
  simp only [assemble, load_aliases, Query.yields_bind, yields_select, exists_eq_left', Query.yields_pure,
    aliases_of]

theorem yields_get {owner_id : Uuid} {slug : Slug} {e : EndpointDef} :
    Query.Yields (· = rows) (get owner_id slug) (some e) ↔
      Holds rows e ∧ e.owner_id = owner_id ∧ e.slug = slug := by
  unfold get
  rw [Query.yields_bind]
  constructor
  · rintro ⟨found, hrow, hendpoint⟩
    rw [yields_select] at hrow
    cases found with
    | none => simp at hendpoint
    | some row =>
      obtain ⟨hrow, howner, hslug⟩ := find_by_slug.mp hrow
      dsimp only at hendpoint
      rw [Query.yields_bind] at hendpoint
      obtain ⟨_, hendpoint, hdone⟩ := hendpoint
      obtain rfl := Option.some.inj (Query.yields_pure.mp hdone)
      obtain ⟨providers, hproviders, rfl⟩ := yields_assemble.mp hendpoint
      exact ⟨⟨row, hrow, providers, hproviders, rfl⟩, howner, hslug⟩
  · rintro ⟨⟨row, hrow, providers, hproviders, rfl⟩, howner, hslug⟩
    refine ⟨some row, by rw [yields_select]; exact find_by_slug.mpr ⟨hrow, howner, hslug⟩, ?_⟩
    dsimp only
    rw [Query.yields_bind]
    exact ⟨_, yields_assemble.mpr ⟨providers, hproviders, rfl⟩, Query.yields_pure.mpr rfl⟩

theorem yields_id_by_slug {owner_id : Uuid} {slug : Slug} {id : Uuid} :
    Query.Yields (· = rows) (id_by_slug owner_id slug) id ↔
      ∃ row ∈ rows.endpoints.rows, row.owner_id = owner_id ∧ row.slug = slug ∧ row.id = id := by
  simp only [id_by_slug, Query.yields_bind, yields_select, exists_eq_left', yields_ok_or,
    Option.map_eq_some_iff, find_by_slug, and_assoc]

end endpoint

end api2mcp.store
