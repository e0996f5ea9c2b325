import Api2Mcp.Store.Upsert

namespace api2mcp.store

open relational btree concurrent except
open api2mcp.model api2mcp.entity

/-! The definitions of the store as one set: a create or an update puts what is
left of a definition in the place of the one of its name, and nothing else. -/

inductive Definition where
  | service (service : Service)
  | api_call (tagged : api_call.TaggedApiCall)
  | script (tagged : script.TaggedScript)
  | endpoint (endpoint : EndpointDef)

/-- Whose definition of what name. -/
inductive Key where
  | service (owner_id : Uuid) (slug : Slug)
  | api_call (owner_id : Uuid) (slug : Slug)
  | script (owner_id : Uuid) (slug : Slug)
  | endpoint (owner_id : Uuid) (slug : Slug)
  deriving DecidableEq

namespace Definition

def key : Definition → Key
  | service s => .service s.owner_id s.slug
  | api_call t => .api_call t.api_call.owner_id t.api_call.slug
  | script t => .script t.script.owner_id t.script.slug
  | endpoint e => .endpoint e.owner_id e.slug

/-- The sets and maps are in the order of their keys. -/
def Wf : Definition → Prop
  | service _ => True
  | api_call t => t.tags.Sorted
  | script t => t.tags.Sorted ∧ t.script.callable.Sorted
  | endpoint e => e.aliases.Sorted ∧ e.auth_providers.Sorted

/-- What is left of a definition that is stored. -/
def stored : Definition → Definition
  | service s => .service (store.service.stored s)
  | api_call t => .api_call ⟨store.api_call.stored t.api_call, t.tags⟩
  | script t => .script ⟨store.script.stored t.script, t.tags⟩
  | endpoint e => .endpoint (store.endpoint.stored e)

@[simp] theorem key_stored (d : Definition) : d.stored.key = d.key := by cases d <;> rfl

end Definition

def Holds (rows : Rows) : Definition → Prop
  | .service s => service.Holds rows s
  | .api_call t => api_call.Holds rows t
  | .script t => script.Holds rows t
  | .endpoint e => endpoint.Holds rows e

/-- `d` is put in the place of the definition of its name. -/
def Upserts (rows rows' : Rows) (d : Definition) : Prop :=
  ∀ x, Holds rows' x ↔ x = d.stored ∨ (Holds rows x ∧ x.key ≠ d.key)

variable {rows rows' : Rows}

/-- A definition of another name is what it was. -/
theorem upserts_other {x d : Definition} (hkey : x.key ≠ d.key) (h : Holds rows' x ↔ Holds rows x) :
    Holds rows' x ↔ x = d.stored ∨ (Holds rows x ∧ x.key ≠ d.key) := by
  rw [h]
  constructor
  · exact fun hx => .inr ⟨hx, hkey⟩
  · rintro (rfl | ⟨hx, _⟩)
    · exact absurd d.key_stored hkey
    · exact hx

namespace api_call

/-- A call's row still leads to the slug of its service, and its params and
tags are what they were. -/
theorem holds_congr (hcalls : rows'.api_calls = rows.api_calls)
    (hservices : ∀ row ∈ rows.api_calls.rows, ∀ P : Slug → Prop,
      (∃ s ∈ rows'.services.rows, s.id = row.service_id ∧ P s.slug) ↔
        ∃ s ∈ rows.services.rows, s.id = row.service_id ∧ P s.slug)
    (hread : ∀ row ∈ rows.api_calls.rows, ∀ slug, of_row rows' row slug = of_row rows row slug)
    {t : TaggedApiCall} : store.Holds rows' (.api_call t) ↔ store.Holds rows (.api_call t) := by
  change Holds rows' t ↔ Holds rows t
  unfold Holds
  rw [hcalls]
  refine exists_congr fun row => and_congr_right fun hrow => ?_
  rw [hservices row hrow fun slug => of_row rows' row slug = t]
  simp only [hread row hrow]

end api_call

namespace script

/-- A script's entries still lead to the slugs of their calls, and its params
and tags are what they were. -/
theorem holds_congr (hscripts : rows'.scripts = rows.scripts)
    (hcallable : rows'.script_api_calls = rows.script_api_calls)
    (hcalls : ∀ r ∈ rows.script_api_calls.rows, ∀ slug,
      (∃ c ∈ rows'.api_calls.rows, c.id = r.api_call_id ∧ c.slug = slug) ↔
        ∃ c ∈ rows.api_calls.rows, c.id = r.api_call_id ∧ c.slug = slug)
    (hread : ∀ row ∈ rows.scripts.rows, ∀ callable, of_row rows' row callable = of_row rows row callable)
    {t : TaggedScript} : store.Holds rows' (.script t) ↔ store.Holds rows (.script t) := by
  change Holds rows' t ↔ Holds rows t
  have hload : ∀ id c, Query.Yields (· = rows') (load_callable id) c ↔
      Query.Yields (· = rows) (load_callable id) c := by
    intro id c
    rw [yields_load_callable, yields_load_callable, hcallable]
    refine exists_congr fun pairs => and_congr_right fun _ => ?_
    have hrows : ∀ r ∈ rows.script_api_calls.select fun r => r.script_id = id, r ∈ rows.script_api_calls.rows :=
      fun r hr => (Table.mem_select.mp hr).1
    refine ⟨fun h => pointwise.imp_mem h fun r hr pair => ?_, fun h => pointwise.imp_mem h fun r hr pair => ?_⟩
    · exact And.imp_right (hcalls r (hrows r hr) pair.2).mp
    · exact And.imp_right (hcalls r (hrows r hr) pair.2).mpr
  unfold Holds
  rw [hscripts]
  refine exists_congr fun row => and_congr_right fun hrow => exists_congr fun c => ?_
  rw [hload, hread row hrow]

end script

namespace endpoint

/-- An endpoint's rows are what they were. -/
theorem holds_congr (hendpoints : rows'.endpoints = rows.endpoints)
    (haliases : rows'.endpoint_aliases = rows.endpoint_aliases)
    (hscopes : rows'.endpoint_auth_providers = rows.endpoint_auth_providers)
    (hproviders : rows'.auth_providers = rows.auth_providers) {e : EndpointDef} :
    store.Holds rows' (.endpoint e) ↔ store.Holds rows (.endpoint e) := by
  change Holds rows' e ↔ Holds rows e
  unfold Holds aliases_of
  simp only [yields_load_auth_providers, hendpoints, haliases, hscopes, hproviders]

end endpoint

namespace service

theorem holds_congr (hservices : rows'.services = rows.services) {s : Service} :
    store.Holds rows' (.service s) ↔ store.Holds rows (.service s) := by
  change Holds rows' s ↔ Holds rows s
  unfold Holds
  rw [hservices]

abbrev row_key (r : services.Model) : Uuid × Slug := (r.owner_id, r.slug)

theorem clash_of_id {a b : services.Model} (h : a.id = b.id) : services.indexes.clash a b = true := by
  simp [services.indexes, Indexes.or, Indexes.on, h]

theorem clash_of_key {a b : services.Model} (h : row_key a = row_key b) : services.indexes.clash a b = true := by
  obtain ⟨howner, hslug⟩ := Prod.mk.inj h
  simp [services.indexes, Indexes.or, Indexes.on, howner, hslug]

theorem upserts {s : Service} {id : Uuid} {table : Table services.indexes} (hintact : Intact rows)
    (h : Table.Upserted (·.id) row_key rows.services table (to_active_model s id)) :
    Upserts rows { rows with services := table } (.service s) := by
  intro x
  cases x with
  | service x =>
    have hread := h.holds_iff (P := fun row => to_model row = x) (R := x = stored s)
      (k := (x.owner_id, x.slug)) eq_comm (fun _ _ _ => Iff.rfl) fun row hrow => by rw [← hrow]; rfl
    simpa [Holds, store.Holds, Definition.stored, Definition.key, to_active_model, Prod.ext_iff] using hread
  | api_call t =>
    refine upserts_other (by rintro ⟨⟩) ?_
    refine api_call.holds_congr ?_ (fun row hrow P => ?_) fun _ _ _ => ?_
    · rfl
    · exact h.exists_iff (hintact.api_calls row hrow) (P := fun key => P key.2)
    · rfl
  | script t =>
    refine upserts_other (by rintro ⟨⟩) ?_
    refine script.holds_congr ?_ ?_ (fun _ _ _ => ?_) fun _ _ _ => ?_ <;> rfl
  | endpoint e =>
    refine upserts_other (by rintro ⟨⟩) ?_
    refine endpoint.holds_congr ?_ ?_ ?_ ?_ <;> rfl

end service

namespace api_call

abbrev row_key (r : api_calls.Model) : Uuid × Slug := (r.owner_id, r.slug)

theorem clash_of_id {a b : api_calls.Model} (h : a.id = b.id) : api_calls.indexes.clash a b = true := by
  simp [api_calls.indexes, Indexes.or, Indexes.on, h]

theorem clash_of_key {a b : api_calls.Model} (h : row_key a = row_key b) : api_calls.indexes.clash a b = true := by
  obtain ⟨howner, hslug⟩ := Prod.mk.inj h
  simp [api_calls.indexes, Indexes.or, Indexes.on, howner, hslug]

/-- The row of a call was written, its params and its tags were replaced. -/
theorem upserts {tag_id : Tag → Uuid} {call : ApiCall} {tags : BTreeSet Tag} {id service_id : Uuid}
    {table : Table api_calls.indexes} {mid : Rows} (hintact : Intact rows)
    (hintact' : Intact { rows with api_calls := table }) (hsorted : tags.Sorted)
    (hservice : ∃ s ∈ rows.services.rows, s.id = service_id ∧ s.slug = call.service_slug)
    (h : Table.Upserted (·.id) row_key rows.api_calls table (to_active_model call id service_id))
    (hparams : replace_params id call.params { rows with api_calls := table } = .ok mid)
    (htags : tag.set_api_call_tags tag_id id tags mid = .ok rows') :
    Upserts rows rows' (.api_call ⟨call, tags⟩) := by
  obtain ⟨hown, hothers, hgrow⟩ := parts_spec hintact' hsorted hparams htags
  have hfoot := tag.set_api_call_tags_footprint htags
  rw [replace_params_footprint hparams] at hfoot
  have hgrow : tag.Grow rows rows' := hgrow
  intro x
  cases x with
  | service x =>
    refine upserts_other (by rintro ⟨⟩) (service.holds_congr ?_)
    rw [hfoot]
  | api_call t =>
    have hcalls : rows'.api_calls = table := by rw [hfoot]
    have hservices : rows'.services = rows.services := by rw [hfoot]
    have hread := h.holds_iff
      (Q := fun row => ∃ s ∈ rows.services.rows, s.id = row.service_id ∧ of_row rows' row s.slug = t)
      (P := fun row => ∃ s ∈ rows.services.rows, s.id = row.service_id ∧ of_row rows row s.slug = t)
      (R := t = ⟨stored call, tags⟩) (k := (t.api_call.owner_id, t.api_call.slug)) ?_ ?_ ?_
    · simpa [Holds, store.Holds, Definition.stored, Definition.key, to_active_model, Prod.ext_iff, hcalls,
        hservices] using hread
    · obtain ⟨s, hs, hid, hslug⟩ := hservice
      constructor
      · rintro ⟨s', hs', hid', rfl⟩
        have heq : s' = s := Option.some.inj
          ((service.find_by_id.mpr ⟨hs', hid'⟩).symm.trans (service.find_by_id.mpr ⟨hs, hid⟩))
        rw [heq, hslug, hown service_id]
      · rintro rfl
        exact ⟨s, hs, hid, by rw [hslug, hown service_id]⟩
    · intro row _ hne
      simp only [hothers row hne]
      exact Iff.rfl
    · rintro row ⟨s, _, _, rfl⟩
      rfl
  | script t =>
    refine upserts_other (by rintro ⟨⟩) (script.holds_congr ?_ ?_ (fun r hr slug => ?_) fun row hrow callable => ?_)
    · rw [hfoot]
    · rw [hfoot]
    · have hcalls : rows'.api_calls = table := by rw [hfoot]
      rw [hcalls]
      exact h.exists_iff (hintact.script_api_calls r hr) (P := fun key => key.2 = slug)
    · have hparams : script.params_of rows' row.id = script.params_of rows row.id := by
        rw [hfoot]
        rfl
      have hids : tag.ids_of_script rows' row.id = tag.ids_of_script rows row.id := by
        rw [hfoot]
        rfl
      rw [script.of_row, script.of_row, hparams, script.named_of_script hintact hgrow hids]
  | endpoint e =>
    refine upserts_other (by rintro ⟨⟩) (endpoint.holds_congr ?_ ?_ ?_ ?_) <;> rw [hfoot]

/-- The call is found on the service it names. -/
theorem get_of_upserted {tag_id : Tag → Uuid} {call : ApiCall} {tags : BTreeSet Tag} {id service_id : Uuid}
    {table : Table api_calls.indexes} {mid : Rows} (hintact : Intact { rows with api_calls := table })
    (hsorted : tags.Sorted)
    (hservice : ∃ s ∈ rows.services.rows, s.id = service_id ∧ s.owner_id = call.owner_id ∧
      s.slug = call.service_slug)
    (h : Table.Upserted (·.id) row_key rows.api_calls table (to_active_model call id service_id))
    (hparams : replace_params id call.params { rows with api_calls := table } = .ok mid)
    (htags : tag.set_api_call_tags tag_id id tags mid = .ok rows') :
    Query.Yields (· = rows') (get call.owner_id call.service_slug call.slug) (some ⟨stored call, tags⟩) := by
  obtain ⟨hown, _, _⟩ := parts_spec hintact hsorted hparams htags
  have hfoot := tag.set_api_call_tags_footprint htags
  rw [replace_params_footprint hparams] at hfoot
  obtain ⟨s, hs, hid, howner, hslug⟩ := hservice
  refine yields_get.mpr ⟨to_active_model call id service_id, ?_, s, ?_, hid, ?_, rfl, rfl, howner, hslug⟩
  · rw [hfoot]
    exact h.mem_self
  · rw [hfoot]
    exact hs
  · rw [hslug, hown service_id]

end api_call

namespace script

abbrev row_key (r : scripts.Model) : Uuid × Slug := (r.owner_id, r.slug)

theorem clash_of_id {a b : scripts.Model} (h : a.id = b.id) : scripts.indexes.clash a b = true := by
  simp [scripts.indexes, Indexes.or, Indexes.on, h]

theorem clash_of_key {a b : scripts.Model} (h : row_key a = row_key b) : scripts.indexes.clash a b = true := by
  obtain ⟨howner, hslug⟩ := Prod.mk.inj h
  simp [scripts.indexes, Indexes.or, Indexes.on, howner, hslug]

/-- The row of a script was written, and what goes with it was replaced. -/
theorem upserts {tag_id : Tag → Uuid} {script : ScriptDef} {tags : BTreeSet Tag} {id : Uuid}
    {table : Table scripts.indexes} {first second : Rows} (hintact : Intact rows) (hsorted : tags.Sorted)
    (hcsorted : script.callable.Sorted)
    (h : Table.Upserted (·.id) row_key rows.scripts table (to_active_model script id))
    (hparams : replace_params id script.params { rows with scripts := table } = .ok first)
    (hcallable : replace_callable script.owner_id id script.callable first = .ok second)
    (htags : tag.set_script_tags tag_id id tags second = .ok rows') :
    Upserts rows rows' (.script ⟨script, tags⟩) := by
  have hintact' : Intact { rows with scripts := table } :=
    ⟨hintact.1, hintact.2, hintact.3, hintact.4, hintact.5, hintact.6⟩
  obtain ⟨hown, hothers, hgrow⟩ := parts_spec hintact' hsorted hcsorted hparams hcallable htags
  have hfoot := parts_footprint hparams hcallable htags
  have hgrow : tag.Grow rows rows' := hgrow
  intro x
  cases x with
  | service x =>
    refine upserts_other (by rintro ⟨⟩) (service.holds_congr ?_)
    rw [hfoot]
  | api_call t =>
    refine upserts_other (by rintro ⟨⟩) (api_call.holds_congr ?_ (fun row _ P => ?_) fun row _ slug => ?_)
    · rw [hfoot]
    · rw [hfoot]
    · have hparams : api_call.params_of rows' row.id = api_call.params_of rows row.id := by
        rw [hfoot]
        rfl
      have hids : tag.ids_of_api_call rows' row.id = tag.ids_of_api_call rows row.id := by
        rw [hfoot]
        rfl
      rw [api_call.of_row, api_call.of_row, hparams, api_call.named_of_call hintact hgrow hids]
  | script t =>
    have hscripts : rows'.scripts = table := by rw [hfoot]
    have hread := h.holds_iff
      (Q := fun row => ∃ c, Query.Yields (· = rows') (load_callable row.id) c ∧ of_row rows' row c = t)
      (P := fun row => ∃ c, Query.Yields (· = rows) (load_callable row.id) c ∧ of_row rows row c = t)
      (R := t = ⟨stored script, tags⟩) (k := (t.script.owner_id, t.script.slug)) (hown t) ?_ ?_
    · simpa [Holds, store.Holds, Definition.stored, Definition.key, to_active_model, Prod.ext_iff,
        hscripts] using hread
    · intro row _ hne
      obtain ⟨hload, hrow⟩ := hothers row hne
      refine exists_congr fun c => ?_
      rw [hload c, hrow c]
      exact and_congr_left' (load_callable_congr (by rfl) (by rfl) row.id c)
    · rintro row ⟨c, _, rfl⟩
      rfl
  | endpoint e =>
    refine upserts_other (by rintro ⟨⟩) (endpoint.holds_congr ?_ ?_ ?_ ?_) <;> rw [hfoot]

end script

namespace endpoint

abbrev row_key (r : endpoints.Model) : Uuid × Slug := (r.owner_id, r.slug)

theorem clash_of_id {a b : endpoints.Model} (h : a.id = b.id) : endpoints.indexes.clash a b = true := by
  simp [endpoints.indexes, Indexes.or, Indexes.on, h]

theorem clash_of_key {a b : endpoints.Model} (h : row_key a = row_key b) : endpoints.indexes.clash a b = true := by
  obtain ⟨howner, hslug⟩ := Prod.mk.inj h
  simp [endpoints.indexes, Indexes.or, Indexes.on, howner, hslug]

/-- The row of an endpoint was written, and what goes with it was replaced. -/
theorem upserts {endpoint : EndpointDef} {id : Uuid} {table : Table endpoints.indexes} {mid : Rows}
    (hasorted : endpoint.aliases.Sorted) (hpsorted : endpoint.auth_providers.Sorted)
    (h : Table.Upserted (·.id) row_key rows.endpoints table (to_active_model endpoint id))
    (haliases : replace_aliases id endpoint.aliases { rows with endpoints := table } = .ok mid)
    (hscope : replace_auth_providers endpoint.owner_id id endpoint.auth_providers mid = .ok rows') :
    Upserts rows rows' (.endpoint endpoint) := by
  obtain ⟨hown, hothers⟩ := parts_spec hasorted hpsorted haliases hscope
  have hfoot := replace_auth_providers_footprint hscope
  rw [replace_aliases_footprint haliases] at hfoot
  intro x
  cases x with
  | service x =>
    refine upserts_other (by rintro ⟨⟩) (service.holds_congr ?_)
    rw [hfoot]
  | api_call t =>
    refine upserts_other (by rintro ⟨⟩) (api_call.holds_congr ?_ (fun row _ P => ?_) fun row _ slug => ?_)
    · rw [hfoot]
    · rw [hfoot]
    · rw [hfoot]
      rfl
  | script t =>
    refine upserts_other (by rintro ⟨⟩) (script.holds_congr ?_ ?_ (fun r hr slug => ?_) fun row hrow callable => ?_)
    · rw [hfoot]
    · rw [hfoot]
    · rw [hfoot]
    · rw [hfoot]
      rfl
  | endpoint e =>
    have hendpoints : rows'.endpoints = table := by rw [hfoot]
    have hread := h.holds_iff
      (Q := fun row => ∃ p, Query.Yields (· = rows') (load_auth_providers row.id) p ∧
        to_model row (aliases_of rows' row.id) p = e)
      (P := fun row => ∃ p, Query.Yields (· = rows) (load_auth_providers row.id) p ∧
        to_model row (aliases_of rows row.id) p = e)
      (R := e = stored endpoint) (k := (e.owner_id, e.slug)) (hown e) ?_ ?_
    · simpa [Holds, store.Holds, Definition.stored, Definition.key, to_active_model, Prod.ext_iff,
        hendpoints] using hread
    · intro row _ hne
      obtain ⟨halias, hload⟩ := hothers row.id hne
      refine exists_congr fun p => ?_
      rw [hload p, halias]
      exact and_congr_left' (load_auth_providers_congr (by rfl) (by rfl) row.id p)
    · rintro row ⟨p, _, rfl⟩
      rfl

end endpoint

end api2mcp.store
