import Api2Mcp.Store.Accepts
import Mathlib.Logic.Equiv.List

namespace api2mcp.store

open relational btree concurrent except
open api2mcp.model api2mcp.entity

/-! Definitions looked up by their names and put in their places. -/

/-- The keys drawn for new rows: no row that is there has one of them. -/
structure NewKeys where
  id : Rows → Uuid
  tag_id : Rows → Tag → Uuid
  service_fresh : ∀ rows, ∀ r ∈ rows.services.rows, r.id ≠ id rows
  api_call_fresh : ∀ rows, ∀ r ∈ rows.api_calls.rows, r.id ≠ id rows
  script_fresh : ∀ rows, ∀ r ∈ rows.scripts.rows, r.id ≠ id rows
  endpoint_fresh : ∀ rows, ∀ r ∈ rows.endpoints.rows, r.id ≠ id rows
  tag_fresh : ∀ rows t, ∀ r ∈ rows.tags.rows, r.id ≠ tag_id rows t
  tag_injective : ∀ rows, Function.Injective (tag_id rows)

/-- A key above all of these. -/
def above : List Nat → Nat
  | [] => 0
  | id :: ids => id + above ids + 1

theorem lt_above {id : Nat} {ids : List Nat} (h : id ∈ ids) : id < above ids := by
  induction ids with
  | nil => cases h
  | cons first ids ih =>
    rw [above]
    obtain rfl | h := List.mem_cons.mp h
    · omega
    · have := ih h
      omega

/-- The keys of one kind of row, in a list. -/
theorem ne_above {ρ : Type} {key : ρ → Nat} {rs : List ρ} {before after : List Nat} {r : ρ} (h : r ∈ rs) :
    key r ≠ above (before ++ (rs.map key ++ after)) := by
  refine Nat.ne_of_lt (lt_above ?_)
  exact List.mem_append_right before (List.mem_append_left after (List.mem_map_of_mem h))

/-- The next keys that are free. -/
instance : Inhabited NewKeys where
  default := {
    id := fun rows => above (rows.services.rows.map (·.id) ++ (rows.api_calls.rows.map (·.id) ++
      (rows.scripts.rows.map (·.id) ++ (rows.endpoints.rows.map (·.id) ++ []))))
    tag_id := fun rows t => above (rows.tags.rows.map (·.id)) + Encodable.encode (t.name.as_str.toList.map Char.toNat)
    service_fresh := fun rows r hr => @ne_above _ _ _ [] _ r hr
    api_call_fresh := fun rows r hr => @ne_above _ _ _ (rows.services.rows.map (·.id)) _ r hr
    script_fresh := fun rows r hr => by
      have h := @ne_above _ (·.id) _ (rows.services.rows.map (·.id) ++ rows.api_calls.rows.map (·.id))
        (rows.endpoints.rows.map (·.id) ++ []) r hr
      rwa [List.append_assoc] at h
    endpoint_fresh := fun rows r hr => by
      have h := @ne_above _ (·.id) _ (rows.services.rows.map (·.id) ++ (rows.api_calls.rows.map (·.id) ++
        rows.scripts.rows.map (·.id))) [] r hr
      rwa [List.append_assoc, List.append_assoc] at h
    tag_fresh := fun rows t r hr => Nat.ne_of_lt (Nat.lt_add_right _ (lt_above (List.mem_map_of_mem hr)))
    tag_injective := fun rows a b h => by
      have hcodes := Encodable.encode_injective (Nat.add_left_cancel h)
      have hchars : a.name.as_str.toList = b.name.as_str.toList :=
        List.map_injective_iff.mpr (fun c d => Char.toNat_inj.mp) hcodes
      have hname := Slug.ext_str (String.toList_injective hchars)
      cases a
      cases b
      cases hname
      rfl }

variable {rows rows' : Rows} {tag_id : Tag → Uuid}

/-- A definition of that name is there. -/
def Has (rows : Rows) (key : Key) : Prop := ∃ x, Holds rows x ∧ x.key = key

theorem has_service_iff {owner_id : Uuid} {slug : Slug} :
    Has rows (.service owner_id slug) ↔ ∃ s ∈ rows.services.rows, s.owner_id = owner_id ∧ s.slug = slug := by
  constructor
  · rintro ⟨x, hx, hkey⟩
    cases x with
    | service x =>
      obtain ⟨row, hrow, rfl⟩ := hx
      obtain ⟨rfl, rfl⟩ := Key.service.inj hkey
      exact ⟨row, hrow, rfl, rfl⟩
    | _ => cases hkey
  · rintro ⟨row, hrow, rfl, rfl⟩
    exact ⟨.service (service.to_model row), ⟨row, hrow, rfl⟩, rfl⟩

theorem has_api_call_iff (hintact : Intact rows) {owner_id : Uuid} {slug : Slug} :
    Has rows (.api_call owner_id slug) ↔ ∃ c ∈ rows.api_calls.rows, c.owner_id = owner_id ∧ c.slug = slug := by
  constructor
  · rintro ⟨x, hx, hkey⟩
    cases x with
    | api_call x =>
      obtain ⟨row, hrow, s, hs, hid, rfl⟩ := hx
      obtain ⟨rfl, rfl⟩ := Key.api_call.inj hkey
      exact ⟨row, hrow, rfl, rfl⟩
    | _ => cases hkey
  · rintro ⟨row, hrow, rfl, rfl⟩
    obtain ⟨s, hs, hid⟩ := hintact.api_calls row hrow
    exact ⟨.api_call (api_call.of_row rows row s.slug), ⟨row, hrow, s, hs, hid, rfl⟩, rfl⟩

/-! Every definition that is there can be read. -/

theorem exists_bind {α β : Type} {q : Fetch α} {f : α → Fetch β} (hq : ∃ a, Query.Yields (· = rows) q a)
    (hf : ∀ a, Query.Yields (· = rows) q a → ∃ b, Query.Yields (· = rows) (f a) b) :
    ∃ b, Query.Yields (· = rows) (q >>= f) b := by
  obtain ⟨a, ha⟩ := hq
  obtain ⟨b, hb⟩ := hf a ha
  exact ⟨b, Query.yields_bind.mpr ⟨a, ha, hb⟩⟩

theorem exists_service_id (owner_id : Uuid) (slug : Slug) :
    ∃ found, Query.Yields (· = rows) (auth_provider.service_id owner_id slug) found := by
  have hread : (service.id_by_slug owner_id slug).run.eval rows =
      ((ok_or .NotFound ((rows.services.find fun r => r.owner_id = owner_id && r.slug = slug).map (·.id))).run :
        Query Rows (Except StoreError Uuid)).eval rows := rfl
  simp only [Query.yields_eval]
  rw [auth_provider.service_id, ExceptT.run_mk, Query.eval_bind, hread]
  cases rows.services.find fun r => r.owner_id = owner_id && r.slug = slug with
  | none => exact ⟨none, rfl⟩
  | some row => exact ⟨some row.id, rfl⟩

theorem exists_callable (hintact : Intact rows) (id : Uuid) :
    ∃ callable, Query.Yields (· = rows) (script.load_callable id) callable := by
  have hpairs : ∀ rs : List script_api_calls.Model, (∀ r ∈ rs, r ∈ rows.script_api_calls.rows) →
      ∃ pairs : List (String × Slug), List.Forall₂ (fun r pair => r.alias_name = pair.1 ∧
        ∃ c ∈ rows.api_calls.rows, c.id = r.api_call_id ∧ c.slug = pair.2) rs pairs := by
    intro rs
    induction rs with
    | nil => exact fun _ => ⟨[], .nil⟩
    | cons r rs ih =>
      intro hmem
      obtain ⟨pairs, hpairs⟩ := ih fun x hx => hmem x (List.mem_cons_of_mem r hx)
      obtain ⟨c, hc, hid⟩ := hintact.script_api_calls r (hmem r List.mem_cons_self)
      exact ⟨(r.alias_name, c.slug) :: pairs, .cons ⟨rfl, c, hc, hid, rfl⟩ hpairs⟩
  obtain ⟨pairs, hpairs⟩ := hpairs (rows.script_api_calls.select fun r => r.script_id = id)
    fun r hr => (Table.mem_select.mp hr).1
  exact ⟨_, script.yields_load_callable.mpr ⟨pairs, rfl, hpairs⟩⟩

theorem exists_auth_providers (hintact : Intact rows) (id : Uuid) :
    ∃ providers, Query.Yields (· = rows) (endpoint.load_auth_providers id) providers := by
  have hslugs : ∀ rs : List endpoint_auth_providers.Model, (∀ r ∈ rs, r ∈ rows.endpoint_auth_providers.rows) →
      ∃ slugs : List Slug, List.Forall₂ (fun r slug => ∃ p ∈ rows.auth_providers.rows,
        p.id = r.auth_provider_id ∧ p.slug = slug) rs slugs := by
    intro rs
    induction rs with
    | nil => exact fun _ => ⟨[], .nil⟩
    | cons r rs ih =>
      intro hmem
      obtain ⟨slugs, hslugs⟩ := ih fun x hx => hmem x (List.mem_cons_of_mem r hx)
      obtain ⟨p, hp, hid⟩ := hintact.endpoint_auth_providers r (hmem r List.mem_cons_self)
      exact ⟨p.slug :: slugs, .cons ⟨p, hp, hid, rfl⟩ hslugs⟩
  obtain ⟨slugs, hslugs⟩ := hslugs (rows.endpoint_auth_providers.select fun r => r.endpoint_id = id)
    fun r hr => (Table.mem_select.mp hr).1
  exact ⟨_, endpoint.yields_load_auth_providers.mpr ⟨slugs, rfl, hslugs⟩⟩

theorem has_script_iff (hintact : Intact rows) {owner_id : Uuid} {slug : Slug} :
    Has rows (.script owner_id slug) ↔ ∃ s ∈ rows.scripts.rows, s.owner_id = owner_id ∧ s.slug = slug := by
  constructor
  · rintro ⟨x, hx, hkey⟩
    cases x with
    | script x =>
      obtain ⟨row, hrow, _, _, rfl⟩ := hx
      obtain ⟨rfl, rfl⟩ := Key.script.inj hkey
      exact ⟨row, hrow, rfl, rfl⟩
    | _ => cases hkey
  · rintro ⟨row, hrow, rfl, rfl⟩
    obtain ⟨callable, hcallable⟩ := exists_callable hintact row.id
    exact ⟨.script (script.of_row rows row callable), ⟨row, hrow, callable, hcallable, rfl⟩, rfl⟩

theorem has_endpoint_iff (hintact : Intact rows) {owner_id : Uuid} {slug : Slug} :
    Has rows (.endpoint owner_id slug) ↔ ∃ e ∈ rows.endpoints.rows, e.owner_id = owner_id ∧ e.slug = slug := by
  constructor
  · rintro ⟨x, hx, hkey⟩
    cases x with
    | endpoint x =>
      obtain ⟨row, hrow, _, _, rfl⟩ := hx
      obtain ⟨rfl, rfl⟩ := Key.endpoint.inj hkey
      exact ⟨row, hrow, rfl, rfl⟩
    | _ => cases hkey
  · rintro ⟨row, hrow, rfl, rfl⟩
    obtain ⟨providers, hproviders⟩ := exists_auth_providers hintact row.id
    exact ⟨.endpoint (endpoint.to_model row (endpoint.aliases_of rows row.id) providers),
      ⟨row, hrow, providers, hproviders, rfl⟩, rfl⟩

/-- Whose definition it is. -/
def Key.owner_id : Key → Uuid
  | .service owner_id _ => owner_id
  | .api_call owner_id _ => owner_id
  | .script owner_id _ => owner_id
  | .endpoint owner_id _ => owner_id

namespace Definition

/-- The definitions that a definition names. -/
def refs : Definition → List Key
  | service _ => []
  | api_call t => [.service t.api_call.owner_id t.api_call.service_slug]
  | script t => t.script.callable.map fun kv => .api_call t.script.owner_id kv.2
  | endpoint _ => []

/-- What the tables take of a definition, whatever else they hold. -/
def Fits : Definition → Prop
  | service _ => True
  | api_call t => store.api_call.ck_method t.api_call.method = true ∧ store.api_call.ParamsFit t.api_call.params
  | script t => store.script.ParamsFit t.script.params
  | endpoint e => store.endpoint.AliasesFit e.aliases

/-- The auth providers that an endpoint names are its owner's. -/
def Scoped (rows : Rows) : Definition → Prop
  | endpoint e => ∀ slug ∈ e.auth_providers, ∃ p ∈ rows.auth_providers.rows, p.owner_id = e.owner_id ∧ p.slug = slug
  | _ => True

/-- An api_call of that name, if there is one, is on the service that is named. -/
def Unmoved (rows : Rows) : Definition → Prop
  | api_call t => ∀ c ∈ rows.api_calls.rows, c.owner_id = t.api_call.owner_id → c.slug = t.api_call.slug →
    ∃ s ∈ rows.services.rows, s.id = c.service_id ∧ s.owner_id = t.api_call.owner_id ∧
      s.slug = t.api_call.service_slug
  | _ => True

/-- What is read under a name is what the rows hold of that name; an api_call is
looked for on the service that is named. -/
theorem yields_get_iff {d x : Definition} :
    Query.Yields (· = rows) d.get (some x) ↔ Holds rows x ∧ x.key = d.key ∧ d.Unmoved rows := by
  cases d with
  | service s =>
    simp only [get, yields_read_as, Option.map_eq_some_iff, Unmoved, and_true]
    constructor
    · rintro ⟨_, h, s', rfl, rfl⟩
      obtain ⟨hholds, howner, hslug⟩ := store.service.yields_get_by_slug.mp h
      exact ⟨hholds, by rw [key, key, howner, hslug]⟩
    · rintro ⟨hholds, hkey⟩
      cases x with
      | service s' =>
        obtain ⟨howner, hslug⟩ := Key.service.inj hkey
        exact ⟨some s', store.service.yields_get_by_slug.mpr ⟨hholds, howner, hslug⟩, s', rfl, rfl⟩
      | _ => cases hkey
  | api_call t =>
    simp only [get, yields_read_as, Option.map_eq_some_iff, Unmoved]
    constructor
    · rintro ⟨_, h, t', rfl, rfl⟩
      obtain ⟨row, hrow, s, hs, hid, rfl, howner, hslug, hsowner, hsslug⟩ := store.api_call.yields_get.mp h
      refine ⟨⟨row, hrow, s, hs, hid, rfl⟩, by rw [key, key, ← howner, ← hslug]; rfl, fun c hc hcowner hcslug => ?_⟩
      have hsame : c = row := Table.eq_of_clash hc hrow
        (store.api_call.clash_of_key (Prod.ext (hcowner.trans howner.symm) (hcslug.trans hslug.symm)))
      exact ⟨s, hs, hsame ▸ hid, hsowner, hsslug⟩
    · rintro ⟨hholds, hkey, hunmoved⟩
      cases x with
      | api_call t' =>
        obtain ⟨row, hrow, s, hs, hid, rfl⟩ := hholds
        obtain ⟨howner, hslug⟩ := Key.api_call.inj hkey
        obtain ⟨s', hs', hid', hsowner, hsslug⟩ := hunmoved row hrow howner hslug
        have hsame : s' = s := Table.eq_of_clash hs' hs (store.service.clash_of_id (hid'.trans hid.symm))
        subst hsame
        exact ⟨_, store.api_call.yields_get.mpr ⟨row, hrow, s', hs, hid, rfl, howner, hslug, hsowner, hsslug⟩, _, rfl,
          rfl⟩
      | _ => cases hkey
  | script t =>
    simp only [get, yields_read_as, Option.map_eq_some_iff, Unmoved, and_true]
    constructor
    · rintro ⟨_, h, t', rfl, rfl⟩
      obtain ⟨hholds, howner, hslug⟩ := store.script.yields_get.mp h
      exact ⟨hholds, by rw [key, key, howner, hslug]⟩
    · rintro ⟨hholds, hkey⟩
      cases x with
      | script t' =>
        obtain ⟨howner, hslug⟩ := Key.script.inj hkey
        exact ⟨some t', store.script.yields_get.mpr ⟨hholds, howner, hslug⟩, t', rfl, rfl⟩
      | _ => cases hkey
  | endpoint e =>
    simp only [get, yields_read_as, Option.map_eq_some_iff, Unmoved, and_true]
    constructor
    · rintro ⟨_, h, e', rfl, rfl⟩
      obtain ⟨hholds, howner, hslug⟩ := store.endpoint.yields_get.mp h
      exact ⟨hholds, by rw [key, key, howner, hslug]⟩
    · rintro ⟨hholds, hkey⟩
      cases x with
      | endpoint e' =>
        obtain ⟨howner, hslug⟩ := Key.endpoint.inj hkey
        exact ⟨some e', store.endpoint.yields_get.mpr ⟨hholds, howner, hslug⟩, e', rfl, rfl⟩
      | _ => cases hkey

/-- A read under a name does not fail. -/
theorem exists_get (hintact : Intact rows) (d : Definition) : ∃ found, Query.Yields (· = rows) d.get found := by
  cases d with
  | service s => exact ⟨_, Query.yields_eval.mpr rfl⟩
  | api_call t =>
    refine exists_bind (exists_bind (exists_service_id _ _) fun found _ => ?_) fun _ _ => ⟨_, Query.yields_pure.mpr rfl⟩
    cases found with
    | none => exact ⟨none, Query.yields_pure.mpr rfl⟩
    | some service_id =>
      refine exists_bind ⟨_, yields_select.mpr rfl⟩ fun found _ => ?_
      cases found with
      | none => exact ⟨none, Query.yields_pure.mpr rfl⟩
      | some row =>
        exact exists_bind ⟨_, store.api_call.yields_assemble.mpr rfl⟩ fun _ _ => ⟨_, Query.yields_pure.mpr rfl⟩
  | script t =>
    refine exists_bind (exists_bind ⟨_, yields_select.mpr rfl⟩ fun found _ => ?_) fun _ _ => ⟨_, Query.yields_pure.mpr rfl⟩
    cases found with
    | none => exact ⟨none, Query.yields_pure.mpr rfl⟩
    | some row =>
      obtain ⟨callable, hcallable⟩ := exists_callable hintact row.id
      exact exists_bind ⟨_, store.script.yields_assemble.mpr ⟨callable, hcallable, rfl⟩⟩ fun _ _ =>
        ⟨_, Query.yields_pure.mpr rfl⟩
  | endpoint e =>
    refine exists_bind (exists_bind ⟨_, yields_select.mpr rfl⟩ fun found _ => ?_) fun _ _ => ⟨_, Query.yields_pure.mpr rfl⟩
    cases found with
    | none => exact ⟨none, Query.yields_pure.mpr rfl⟩
    | some row =>
      obtain ⟨providers, hproviders⟩ := exists_auth_providers hintact row.id
      exact exists_bind ⟨_, store.endpoint.yields_assemble.mpr ⟨providers, hproviders, rfl⟩⟩ fun _ _ =>
        ⟨_, Query.yields_pure.mpr rfl⟩

end Definition

/-- A definition is created, under new keys, where nothing of its name was
found, and updated where something was. -/
def Definition.put (keys : NewKeys) (rows : Rows) (d : Definition) : Option Definition → Fetch Write
  | none => d.create (keys.tag_id rows) (keys.id rows)
  | some _ => d.update (keys.tag_id rows)

/-- What is there of its name is looked up, and the definition is put. -/
def Puts (keys : NewKeys) (found : Option Definition) (d : Definition) (rows rows' : Rows) : Prop :=
  Query.Yields (· = rows) d.get found ∧ Performs (d.put keys rows found) rows rows'

namespace script

/-- What the parts of a script were found to be when it was stored. -/
theorem taken_of_performs {script : ScriptDef} {tags : BTreeSet Tag} {id : Uuid} (hcsorted : script.callable.Sorted)
    (h : Performs (create tag_id script tags id) rows rows' ∨ Performs (update tag_id script tags) rows rows') :
    ParamsFit script.params ∧
      (∀ kv ∈ script.callable, ∃ c ∈ rows.api_calls.rows, c.owner_id = script.owner_id ∧ c.slug = kv.2) ∧
      rows'.services = rows.services ∧ rows'.api_calls = rows.api_calls ∧ rows'.auth_providers = rows.auth_providers := by
  have hparts : ∀ {table : Table scripts.indexes} {key : Uuid} {first second : Rows},
      replace_params key script.params { rows with scripts := table } = .ok first →
      replace_callable script.owner_id key script.callable first = .ok second →
      ParamsFit script.params ∧
        ∀ kv ∈ script.callable, ∃ c ∈ rows.api_calls.rows, c.owner_id = script.owner_id ∧ c.slug = kv.2 := by
    intro table key first second hparams hcallable
    have hnamed := (replace_callable_ok_iff hcsorted).mp ⟨second, hcallable⟩
    rw [replace_params_footprint hparams] at hnamed
    exact ⟨replace_params_ok_iff.mp ⟨first, hparams⟩, hnamed⟩
  obtain ⟨write, hwrite, happly⟩ | ⟨write, hwrite, happly⟩ := h
  · rw [create_yields hwrite] at happly
    have hfoot := insert_footprint happly
    simp only [Write.apply, insert, bind_eq_ok, db_err_eq_ok] at happly
    obtain ⟨table, _, first, hparams, second, hcallable, _⟩ := happly
    obtain ⟨hfit, hnamed⟩ := hparts hparams hcallable
    exact ⟨hfit, hnamed, by rw [hfoot], by rw [hfoot], by rw [hfoot]⟩
  · obtain ⟨key, rfl⟩ := update_yields hwrite
    have hfoot := set_footprint happly
    simp only [Write.apply, set, bind_eq_ok, db_err_eq_ok] at happly
    obtain ⟨_, _, table, _, first, hparams, second, hcallable, _⟩ := happly
    obtain ⟨hfit, hnamed⟩ := hparts hparams hcallable
    exact ⟨hfit, hnamed, by rw [hfoot], by rw [hfoot], by rw [hfoot]⟩

end script

namespace endpoint

/-- What the parts of an endpoint were found to be when it was stored. -/
theorem taken_of_performs {e : EndpointDef} {id : Uuid} (hasorted : e.aliases.Sorted)
    (hpsorted : e.auth_providers.Sorted) (h : Performs (create e id) rows rows' ∨ Performs (update e) rows rows') :
    AliasesFit e.aliases ∧
      (∀ slug ∈ e.auth_providers, ∃ p ∈ rows.auth_providers.rows, p.owner_id = e.owner_id ∧ p.slug = slug) ∧
      rows'.services = rows.services ∧ rows'.api_calls = rows.api_calls ∧ rows'.auth_providers = rows.auth_providers := by
  have hparts : ∀ {table : Table endpoints.indexes} {key : Uuid} {mid last : Rows},
      replace_aliases key e.aliases { rows with endpoints := table } = .ok mid →
      replace_auth_providers e.owner_id key e.auth_providers mid = .ok last →
      AliasesFit e.aliases ∧
        ∀ slug ∈ e.auth_providers, ∃ p ∈ rows.auth_providers.rows, p.owner_id = e.owner_id ∧ p.slug = slug := by
    intro table key mid last haliases hscope
    have hnamed := (replace_auth_providers_ok_iff hpsorted).mp ⟨last, hscope⟩
    rw [replace_aliases_footprint haliases] at hnamed
    exact ⟨(replace_aliases_ok_iff hasorted).mp ⟨mid, haliases⟩, hnamed⟩
  obtain ⟨write, hwrite, happly⟩ | ⟨write, hwrite, happly⟩ := h
  · rw [create_yields hwrite] at happly
    have hfoot := insert_footprint happly
    simp only [Write.apply, insert, bind_eq_ok, db_err_eq_ok] at happly
    obtain ⟨table, _, mid, haliases, hscope⟩ := happly
    obtain ⟨hfit, hnamed⟩ := hparts haliases hscope
    exact ⟨hfit, hnamed, by rw [hfoot], by rw [hfoot], by rw [hfoot]⟩
  · obtain ⟨key, rfl⟩ := update_yields hwrite
    have hfoot := set_footprint happly
    simp only [Write.apply, set, bind_eq_ok, db_err_eq_ok] at happly
    obtain ⟨_, _, table, _, mid, haliases, hscope⟩ := happly
    obtain ⟨hfit, hnamed⟩ := hparts haliases hscope
    exact ⟨hfit, hnamed, by rw [hfoot], by rw [hfoot], by rw [hfoot]⟩

end endpoint

theorem NewKeys.keys_free (keys : NewKeys) (rows : Rows) : tag.KeysFree (keys.tag_id rows) rows :=
  fun t r hr hid => absurd hid (keys.tag_fresh rows t r hr)

theorem Puts.performs {keys : NewKeys} {found : Option Definition} {d : Definition}
    (h : Puts keys found d rows rows') : Performs (d.create (keys.tag_id rows) (keys.id rows)) rows rows' ∨
      Performs (d.update (keys.tag_id rows)) rows rows' := by
  obtain ⟨_, hput⟩ := h
  cases found with
  | none => exact .inl hput
  | some _ => exact .inr hput

namespace Definition

variable {keys : NewKeys} {found : Option Definition}

/-- What was found to be so when a definition was stored. -/
theorem taken_of_puts (hintact : Intact rows) {d : Definition} (hwf : d.Wf) (h : Puts keys found d rows rows') :
    d.Fits ∧ d.Scoped rows ∧ d.Unmoved rows ∧ ∀ key ∈ d.refs, Has rows key := by
  have hperforms := h.performs
  cases d with
  | service s => exact ⟨trivial, trivial, trivial, fun key hkey => absurd hkey List.not_mem_nil⟩
  | api_call t =>
    have hwritten : ∃ id mid service_id, (api_call t).Unmoved rows ∧
        store.api_call.Written (keys.tag_id rows) t.api_call t.tags id rows rows' mid service_id := by
      obtain ⟨hget, hput⟩ := h
      cases found with
      | none =>
        obtain ⟨mid, service_id, hwritten⟩ := store.api_call.written_of_create hintact hput
        refine ⟨_, mid, service_id, fun c hc howner hslug => ?_, hwritten⟩
        exact absurd ((hwritten.upserted.same c hc).mpr (Prod.ext howner hslug)) (keys.api_call_fresh rows c hc)
      | some x =>
        obtain ⟨id, mid, service_id, hwritten⟩ := store.api_call.written_of_update hintact hput
        exact ⟨id, mid, service_id, (yields_get_iff.mp hget).2.2, hwritten⟩
    obtain ⟨id, mid, service_id, hunmoved, hwritten⟩ := hwritten
    refine ⟨⟨hwritten.method, store.api_call.replace_params_ok_iff.mp ⟨mid, hwritten.params⟩⟩, trivial, hunmoved, ?_⟩
    obtain ⟨s, hs, _, howner, hslug⟩ := hwritten.service
    intro key hkey
    rw [List.mem_singleton.mp hkey]
    exact has_service_iff.mpr ⟨s, hs, howner, hslug⟩
  | script t =>
    obtain ⟨hfit, hnamed, _⟩ := store.script.taken_of_performs hwf.2 hperforms
    refine ⟨hfit, trivial, trivial, fun key hkey => ?_⟩
    obtain ⟨kv, hkv, rfl⟩ := List.mem_map.mp hkey
    exact (has_api_call_iff hintact).mpr (hnamed kv hkv)
  | endpoint e =>
    obtain ⟨hfit, hnamed, _⟩ := store.endpoint.taken_of_performs hwf.1 hwf.2 hperforms
    exact ⟨hfit, hnamed, trivial, fun key hkey => absurd hkey List.not_mem_nil⟩

theorem exists_puts (hintact : Intact rows) {d : Definition} (hwf : d.Wf) (hfits : d.Fits) (hscoped : d.Scoped rows)
    (hunmoved : d.Unmoved rows) (hrefs : ∀ key ∈ d.refs, Has rows key) : ∃ found rows', Puts keys found d rows rows' := by
  obtain ⟨found, hget⟩ := exists_get hintact d
  have hfree := keys.keys_free rows
  have hinj := keys.tag_injective rows
  cases found with
  | none =>
    have hnone : ¬ Has rows d.key := by
      rintro ⟨x, hx, hkey⟩
      have hread := yields_get_iff.mpr ⟨hx, hkey, hunmoved⟩
      cases hget.unique hread
    have hcreate : ∃ rows', Performs (d.create (keys.tag_id rows) (keys.id rows)) rows rows' := by
      cases d with
      | service s =>
        obtain ⟨found, hread, hsame⟩ := yields_read_as.mp hget
        rw [Option.map_eq_none_iff] at hsame
        refine store.service.create_ok (hsame ▸ hread) (keys.service_fresh rows) fun r hr hkey => hnone ?_
        exact has_service_iff.mpr ⟨r, hr, congrArg Prod.fst hkey, congrArg Prod.snd hkey⟩
      | api_call t =>
        obtain ⟨found, hread, hsame⟩ := yields_read_as.mp hget
        rw [Option.map_eq_none_iff] at hsame
        refine store.api_call.create_ok hinj hfree hwf (hsame ▸ hread) ?_ (keys.api_call_fresh rows)
          (fun r hr hkey => hnone ?_) hfits.1 hfits.2
        · exact has_service_iff.mp (hrefs _ (List.mem_singleton.mpr rfl))
        · exact (has_api_call_iff hintact).mpr ⟨r, hr, congrArg Prod.fst hkey, congrArg Prod.snd hkey⟩
      | script t =>
        obtain ⟨found, hread, hsame⟩ := yields_read_as.mp hget
        rw [Option.map_eq_none_iff] at hsame
        refine store.script.create_ok hinj hfree hwf.1 hwf.2 (hsame ▸ hread) (keys.script_fresh rows)
          (fun r hr hkey => hnone ?_) hfits fun kv hkv => ?_
        · exact (has_script_iff hintact).mpr ⟨r, hr, congrArg Prod.fst hkey, congrArg Prod.snd hkey⟩
        · exact (has_api_call_iff hintact).mp (hrefs _ (List.mem_map_of_mem hkv))
      | endpoint e =>
        obtain ⟨found, hread, hsame⟩ := yields_read_as.mp hget
        rw [Option.map_eq_none_iff] at hsame
        refine store.endpoint.create_ok hwf.1 hwf.2 (hsame ▸ hread) (keys.endpoint_fresh rows)
          (fun r hr hkey => hnone ?_) hfits hscoped
        exact (has_endpoint_iff hintact).mpr ⟨r, hr, congrArg Prod.fst hkey, congrArg Prod.snd hkey⟩
    obtain ⟨rows', hcreate⟩ := hcreate
    exact ⟨none, rows', hget, hcreate⟩
  | some x =>
    obtain ⟨hx, hkey, _⟩ := yields_get_iff.mp hget
    have hhas : Has rows d.key := ⟨x, hx, hkey⟩
    have hupdate : ∃ rows', Performs (d.update (keys.tag_id rows)) rows rows' := by
      cases d with
      | service s =>
        obtain ⟨r, hr, howner, hslug⟩ := has_service_iff.mp hhas
        exact store.service.update_ok hr howner hslug
      | api_call t =>
        obtain ⟨r, hr, howner, hslug⟩ := (has_api_call_iff hintact).mp hhas
        obtain ⟨s, hs, hid, hsowner, hsslug⟩ := hunmoved r hr howner hslug
        exact store.api_call.update_ok hinj hfree hwf hr howner hslug hs hid hsowner hsslug hfits.1 hfits.2
      | script t =>
        obtain ⟨r, hr, howner, hslug⟩ := (has_script_iff hintact).mp hhas
        refine store.script.update_ok hinj hfree hwf.1 hwf.2 hr howner hslug hfits fun kv hkv => ?_
        exact (has_api_call_iff hintact).mp (hrefs _ (List.mem_map_of_mem hkv))
      | endpoint e =>
        obtain ⟨r, hr, howner, hslug⟩ := (has_endpoint_iff hintact).mp hhas
        exact store.endpoint.update_ok hwf.1 hwf.2 hr howner hslug hfits hscoped
    obtain ⟨rows', hupdate⟩ := hupdate
    exact ⟨some x, rows', hget, hupdate⟩

/-- The tables take back what is after of a definition that they took. -/
theorem Fits.stored {d : Definition} (h : d.Fits) : d.stored.Fits := by
  cases d with
  | service s => trivial
  | api_call t =>
    obtain ⟨hmethod, hparams, happart⟩ := h
    refine ⟨hmethod, fun q hq => ?_, ?_⟩
    · obtain ⟨p, hp, rfl⟩ := List.mem_map.mp ((List.perm_insertionSort _ _).mem_iff.mp hq)
      exact hparams p hp
    · refine (List.perm_insertionSort _ _).symm.pairwise (List.pairwise_map.mpr happart) fun {p q} hpq => ?_
      exact ⟨hpq.1.symm, hpq.2.symm⟩
  | script t =>
    obtain ⟨_, happart⟩ := h
    refine ⟨fun q hq => ?_, ?_⟩
    · obtain ⟨p, _, rfl⟩ := List.mem_map.mp ((List.perm_insertionSort _ _).mem_iff.mp hq)
      rfl
    · refine (List.perm_insertionSort _ _).symm.pairwise (List.pairwise_map.mpr happart) fun {p q} hpq => ?_
      exact ⟨hpq.1.symm, hpq.2.symm⟩
  | endpoint e => exact h

theorem refs_stored (d : Definition) : d.stored.refs = d.refs := by
  cases d <;> rfl

end Definition

namespace Puts

variable {keys : NewKeys} {found : Option Definition} {d : Definition}

theorem intact (h : Puts keys found d rows rows') (hintact : Intact rows) : Intact rows' := by
  obtain ⟨_, _, happly⟩ | ⟨_, _, happly⟩ := h.performs
  · exact hintact.apply happly
  · exact hintact.apply happly

theorem upserts (h : Puts keys found d rows rows') (hintact : Intact rows) (hwf : d.Wf) : Upserts rows rows' d :=
  h.performs.elim (Definition.upserts_of_create hintact hwf) (Definition.upserts_of_update hintact hwf)

theorem get (h : Puts keys found d rows rows') (hintact : Intact rows) (hwf : d.Wf) :
    Query.Yields (· = rows') d.get (some d.stored) := Definition.get_of_performs hintact hwf h.performs

theorem upserted (h : Puts keys found (.service s) rows rows') : ∃ id,
    Table.Upserted (·.id) service.row_key rows.services rows'.services (service.to_active_model s id) ∧
      rows' = { rows with services := rows'.services } := by
  obtain hcreate | hupdate := h.performs
  · exact ⟨_, service.upserted_of_create hcreate⟩
  · exact service.upserted_of_update hupdate

theorem written {t : api_call.TaggedApiCall} (h : Puts keys found (.api_call t) rows rows') (hintact : Intact rows) :
    ∃ id mid service_id,
      api_call.Written (keys.tag_id rows) t.api_call t.tags id rows rows' mid service_id := by
  obtain hcreate | hupdate := h.performs
  · exact ⟨_, api_call.written_of_create hintact hcreate⟩
  · exact api_call.written_of_update hintact hupdate

theorem auth_providers (h : Puts keys found d rows rows') (hintact : Intact rows) (hwf : d.Wf) :
    rows'.auth_providers = rows.auth_providers := by
  cases d with
  | service s =>
    obtain ⟨_, _, hrows⟩ := h.upserted
    rw [hrows]
  | api_call t =>
    obtain ⟨_, _, _, hwritten⟩ := h.written hintact
    exact hwritten.kept.2
  | script t => exact (script.taken_of_performs hwf.2 h.performs).2.2.2.2
  | endpoint e => exact (endpoint.taken_of_performs hwf.1 hwf.2 h.performs).2.2.2.2

/-- A call of another name stands where it stood. -/
theorem unmoved_iff (h : Puts keys found d rows rows') (hintact : Intact rows) (hwf : d.Wf) {other : Definition}
    (hkey : other.key ≠ d.key) : other.Unmoved rows' ↔ other.Unmoved rows := by
  cases other with
  | api_call t =>
    unfold Definition.Unmoved
    dsimp only
    cases d with
    | service s =>
      obtain ⟨_, hupserted, hrows⟩ := h.upserted
      have hcalls : rows'.api_calls = rows.api_calls := by rw [hrows]
      rw [hcalls]
      refine forall₂_congr fun c hc => imp_congr_right fun _ => imp_congr_right fun _ => ?_
      exact hupserted.exists_iff (hintact.api_calls c hc)
        (P := fun key => key.1 = t.api_call.owner_id ∧ key.2 = t.api_call.service_slug)
    | api_call t' =>
      obtain ⟨id, _, service_id, hwritten⟩ := h.written hintact
      have hmem : ∀ c : api_calls.Model, c.owner_id = t.api_call.owner_id → c.slug = t.api_call.slug →
          (c ∈ rows'.api_calls.rows ↔ c ∈ rows.api_calls.rows) := by
        intro c howner hslug
        have hother : api_call.row_key c ≠ api_call.row_key (api_call.to_active_model t'.api_call id service_id) := by
          intro hsame
          obtain ⟨howner', hslug'⟩ := Prod.mk.inj hsame
          exact hkey (by rw [Definition.key, Definition.key, ← howner, ← hslug, howner', hslug']; rfl)
        rw [hwritten.upserted.mem, or_iff_right fun hsame => hother (congrArg _ hsame), and_iff_left hother]
      rw [hwritten.kept.1]
      constructor
      · intro hplaced c hc howner hslug
        exact hplaced c ((hmem c howner hslug).mpr hc) howner hslug
      · intro hplaced c hc howner hslug
        exact hplaced c ((hmem c howner hslug).mp hc) howner hslug
    | script t' =>
      obtain ⟨_, _, hservices, hcalls, _⟩ := script.taken_of_performs hwf.2 h.performs
      rw [hservices, hcalls]
    | endpoint e =>
      obtain ⟨_, _, hservices, hcalls, _⟩ := endpoint.taken_of_performs hwf.1 hwf.2 h.performs
      rw [hservices, hcalls]
  | _ => exact Iff.rfl

end Puts

/-! Definitions that are put in turn. -/

inductive PutsAll (keys : NewKeys) : List (Option Definition) → List Definition → Rows → Rows → Prop
  | nil (rows : Rows) : PutsAll keys [] [] rows rows
  | cons {found : Option Definition} {founds : List (Option Definition)} {d : Definition} {ds : List Definition}
      {rows mid rows' : Rows} (head : Puts keys found d rows mid) (rest : PutsAll keys founds ds mid rows') :
      PutsAll keys (found :: founds) (d :: ds) rows rows'

/-- Each definition names others only that are known, or stand before it. -/
def Closed : (Key → Prop) → List Definition → Prop
  | _, [] => True
  | known, d :: ds => (∀ key ∈ d.refs, known key) ∧ Closed (fun key => key = d.key ∨ known key) ds

theorem Definition.refs_owner {d : Definition} {key : Key} (h : key ∈ d.refs) : key.owner_id = d.key.owner_id := by
  cases d with
  | service s => exact absurd h List.not_mem_nil
  | api_call t =>
    rw [List.mem_singleton.mp h]
    rfl
  | script t =>
    obtain ⟨kv, _, rfl⟩ := List.mem_map.mp h
    rfl
  | endpoint e => exact absurd h List.not_mem_nil

theorem Closed.imp {known known' : Key → Prop} {ds : List Definition} (h : Closed known ds)
    (hknown : ∀ key, known key → known' key) : Closed known' ds := by
  induction ds generalizing known known' with
  | nil => trivial
  | cons d ds ih => exact ⟨fun key hkey => hknown key (h.1 key hkey), ih h.2 fun key => Or.imp_right (hknown key)⟩

/-- What names only what is known need not stand in order. -/
theorem Closed.of_refs {known : Key → Prop} {ds : List Definition} (h : ∀ d ∈ ds, ∀ key ∈ d.refs, known key) :
    Closed known ds := by
  induction ds generalizing known with
  | nil => trivial
  | cons d ds ih =>
    exact ⟨h d List.mem_cons_self, ih fun d' hd' key hkey => .inr (h d' (List.mem_cons_of_mem d hd') key hkey)⟩

theorem Closed.append {known : Key → Prop} {ds es : List Definition} (hds : Closed known ds)
    (hes : Closed (fun key => (∃ d ∈ ds, d.key = key) ∨ known key) es) : Closed known (ds ++ es) := by
  induction ds generalizing known with
  | nil =>
    refine hes.imp fun key hkey => hkey.resolve_left ?_
    rintro ⟨d, hd, _⟩
    exact absurd hd List.not_mem_nil
  | cons d ds ih =>
    refine ⟨hds.1, ih hds.2 (hes.imp fun key hkey => ?_)⟩
    obtain ⟨d', hd', rfl⟩ | hknown := hkey
    · obtain rfl | hd' := List.mem_cons.mp hd'
      · exact .inr (.inl rfl)
      · exact .inl ⟨d', hd', rfl⟩
    · exact .inr (.inr hknown)

theorem Upserts.has_iff {d : Definition} (h : Upserts rows rows' d) (key : Key) :
    Has rows' key ↔ key = d.key ∨ Has rows key := by
  constructor
  · rintro ⟨x, hx, rfl⟩
    obtain rfl | ⟨hx, _⟩ := (h x).mp hx
    · exact .inl d.key_stored
    · exact .inr ⟨x, hx, rfl⟩
  · intro hkey
    by_cases hsame : key = d.key
    · exact ⟨d.stored, (h _).mpr (.inl rfl), d.key_stored.trans hsame.symm⟩
    · obtain ⟨x, hx, rfl⟩ := hkey.resolve_left hsame
      exact ⟨x, (h x).mpr (.inr ⟨hx, hsame⟩), rfl⟩

namespace PutsAll

variable {keys : NewKeys} {founds : List (Option Definition)} {ds : List Definition}

theorem length_eq (h : PutsAll keys founds ds rows rows') : founds.length = ds.length := by
  induction h with
  | nil => rfl
  | cons _ _ ih => rw [List.length_cons, List.length_cons, ih]

theorem append_iff {es : List Definition} :
    PutsAll keys founds (ds ++ es) rows rows' ↔
      ∃ fs gs mid, fs ++ gs = founds ∧ PutsAll keys fs ds rows mid ∧ PutsAll keys gs es mid rows' := by
  induction ds generalizing founds rows with
  | nil =>
    constructor
    · exact fun h => ⟨[], founds, rows, rfl, .nil rows, h⟩
    · rintro ⟨_, gs, _, rfl, hfirst, hrest⟩
      cases hfirst
      exact hrest
  | cons d ds ih =>
    constructor
    · intro h
      cases h with
      | @cons found founds _ _ _ mid _ head rest =>
        obtain ⟨fs, gs, last, rfl, hfirst, hrest⟩ := ih.mp rest
        exact ⟨found :: fs, gs, last, rfl, .cons head hfirst, hrest⟩
    · rintro ⟨_, gs, last, rfl, hfirst, hrest⟩
      cases hfirst with
      | cons head rest => exact .cons head (ih.mpr ⟨_, gs, last, rfl, rest, hrest⟩)

theorem intact (h : PutsAll keys founds ds rows rows') (hintact : Intact rows) : Intact rows' := by
  induction h with
  | nil => exact hintact
  | cons head _ ih => exact ih (head.intact hintact)

theorem auth_providers (h : PutsAll keys founds ds rows rows') (hintact : Intact rows) (hwf : ∀ d ∈ ds, d.Wf) :
    rows'.auth_providers = rows.auth_providers := by
  induction h with
  | nil => rfl
  | cons head _ ih =>
    rw [ih (head.intact hintact) fun d hd => hwf d (List.mem_cons_of_mem _ hd)]
    exact head.auth_providers hintact (hwf _ List.mem_cons_self)

theorem has_iff (h : PutsAll keys founds ds rows rows') (hintact : Intact rows) (hwf : ∀ d ∈ ds, d.Wf) (key : Key) :
    Has rows' key ↔ (∃ d ∈ ds, d.key = key) ∨ Has rows key := by
  induction h with
  | nil => simp
  | @cons found founds d ds rows mid rows' head _ ih =>
    have hmid := head.upserts hintact (hwf d List.mem_cons_self)
    rw [ih (head.intact hintact) fun d' hd' => hwf d' (List.mem_cons_of_mem d hd'), hmid.has_iff, List.exists_mem_cons_iff,
      eq_comm (a := key), or_assoc, or_left_comm]

/-- Definitions of other names are what they were. -/
theorem holds_other (h : PutsAll keys founds ds rows rows') (hintact : Intact rows) (hwf : ∀ d ∈ ds, d.Wf)
    {x : Definition} (hx : ∀ d ∈ ds, x.key ≠ d.key) : Holds rows' x ↔ Holds rows x := by
  induction h with
  | nil => rfl
  | @cons found founds d ds rows mid rows' head _ ih =>
    rw [ih (head.intact hintact) (fun d' hd' => hwf d' (List.mem_cons_of_mem d hd'))
      fun d' hd' => hx d' (List.mem_cons_of_mem d hd')]
    rw [head.upserts hintact (hwf d List.mem_cons_self) x]
    have hne := hx d List.mem_cons_self
    constructor
    · rintro (rfl | ⟨hheld, _⟩)
      · exact absurd d.key_stored hne
      · exact hheld
    · exact fun hheld => .inr ⟨hheld, hne⟩

theorem unmoved_other (h : PutsAll keys founds ds rows rows') (hintact : Intact rows) (hwf : ∀ d ∈ ds, d.Wf)
    {x : Definition} (hx : ∀ d ∈ ds, x.key ≠ d.key) : x.Unmoved rows' ↔ x.Unmoved rows := by
  induction h with
  | nil => rfl
  | @cons found founds d ds rows mid rows' head _ ih =>
    rw [ih (head.intact hintact) (fun d' hd' => hwf d' (List.mem_cons_of_mem d hd'))
      fun d' hd' => hx d' (List.mem_cons_of_mem d hd')]
    exact head.unmoved_iff hintact (hwf d List.mem_cons_self) (hx d List.mem_cons_self)

/-- What is left of each definition can be read at the end. -/
theorem get (h : PutsAll keys founds ds rows rows') (hintact : Intact rows) (hwf : ∀ d ∈ ds, d.Wf)
    (hdistinct : ds.Pairwise fun d d' => d.key ≠ d'.key) {d : Definition} (hd : d ∈ ds) :
    Query.Yields (· = rows') d.get (some d.stored) := by
  induction h with
  | nil => cases hd
  | @cons found founds first ds rows mid rows' head rest ih =>
    obtain ⟨hfirst, hrest⟩ := List.pairwise_cons.mp hdistinct
    have hmid := head.intact hintact
    have hwf' : ∀ d' ∈ ds, d'.Wf := fun d' hd' => hwf d' (List.mem_cons_of_mem first hd')
    obtain rfl | hd := List.mem_cons.mp hd
    · obtain ⟨hheld, _, hunmoved⟩ := Definition.yields_get_iff.mp (head.get hintact (hwf d List.mem_cons_self))
      refine Definition.yields_get_iff.mpr ⟨?_, d.key_stored, (rest.unmoved_other hmid hwf' hfirst).mpr hunmoved⟩
      refine (rest.holds_other hmid hwf' fun d' hd' => ?_).mpr hheld
      rw [d.key_stored]
      exact hfirst d' hd'
    · exact ih hmid hwf' hrest hd

/-- Definitions of different names can be put in turn exactly when the tables
take each, and each names what is there or was put before it. -/
theorem exists_iff (hintact : Intact rows) (hwf : ∀ d ∈ ds, d.Wf)
    (hdistinct : ds.Pairwise fun d d' => d.key ≠ d'.key) :
    (∃ founds rows', PutsAll keys founds ds rows rows') ↔
      (∀ d ∈ ds, d.Fits ∧ d.Scoped rows ∧ d.Unmoved rows) ∧ Closed (Has rows) ds := by
  induction ds generalizing rows with
  | nil => exact iff_of_true ⟨[], rows, .nil rows⟩ ⟨fun d hd => absurd hd List.not_mem_nil, trivial⟩
  | cons d ds ih =>
    obtain ⟨hfirst, hrest⟩ := List.pairwise_cons.mp hdistinct
    have hwfd := hwf d List.mem_cons_self
    have hwf' : ∀ d' ∈ ds, d'.Wf := fun d' hd' => hwf d' (List.mem_cons_of_mem d hd')
    have hstep : ∀ {found mid}, Puts keys found d rows mid →
        ((∃ founds rows', PutsAll keys founds ds mid rows') ↔
          (∀ d' ∈ ds, d'.Fits ∧ d'.Scoped rows ∧ d'.Unmoved rows) ∧
            Closed (fun key => key = d.key ∨ Has rows key) ds) := by
      intro found mid hput
      have hhas : Has mid = fun key => key = d.key ∨ Has rows key :=
        funext fun key => propext ((hput.upserts hintact hwfd).has_iff key)
      rw [ih (hput.intact hintact) hwf' hrest, hhas]
      refine and_congr_left' (forall₂_congr fun d' hd' => and_congr_right fun _ => and_congr ?_ ?_)
      · unfold Definition.Scoped
        rw [hput.auth_providers hintact hwfd]
      · exact hput.unmoved_iff hintact hwfd (hfirst d' hd').symm
    constructor
    · rintro ⟨_, rows', hall⟩
      cases hall with
      | cons head rest =>
        obtain ⟨hfits, hscoped, hunmoved, hrefs⟩ := Definition.taken_of_puts hintact hwfd head
        obtain ⟨htaken, hclosed⟩ := (hstep head).mp ⟨_, rows', rest⟩
        refine ⟨fun d' hd' => ?_, hrefs, hclosed⟩
        obtain rfl | hd' := List.mem_cons.mp hd'
        · exact ⟨hfits, hscoped, hunmoved⟩
        · exact htaken d' hd'
    · rintro ⟨htaken, hrefs, hclosed⟩
      obtain ⟨hfits, hscoped, hunmoved⟩ := htaken d List.mem_cons_self
      obtain ⟨found, mid, head⟩ := @Definition.exists_puts rows keys hintact d hwfd hfits hscoped hunmoved hrefs
      obtain ⟨founds, rows', rest⟩ := (hstep head).mpr
        ⟨fun d' hd' => htaken d' (List.mem_cons_of_mem d hd'), hclosed⟩
      exact ⟨found :: founds, rows', .cons head rest⟩

end PutsAll

end api2mcp.store
