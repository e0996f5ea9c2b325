import Api2Mcp.Concurrent.Pool
import Api2Mcp.Store.Sound
import Mathlib.Data.Fin.VecNotation
import Mathlib.Tactic.FinCases

namespace api2mcp.store

open relational btree concurrent except
open api2mcp.model api2mcp.entity

/-! What an owner has is changed by no method that is called for another. -/

theorem Upserts.other {rows rows' : Rows} {d x : Definition} (h : Upserts rows rows' d) (hkey : x.key ≠ d.key) :
    Holds rows' x ↔ Holds rows x := by
  rw [h x]
  constructor
  · rintro (rfl | ⟨hheld, _⟩)
    · exact absurd d.key_stored hkey
    · exact hheld
  · exact fun hheld => .inr ⟨hheld, hkey⟩

section

variable {names : Names} {owner_id : Uuid} {rows rows' : Rows} {tag_id : Tag → Uuid}

/-! A write under a key that was drawn for a definition puts it in its place,
whatever was read before the transaction began. -/

theorem service.upserts_of_insert {s : Service} {id : Uuid} (h : Sound names rows)
    (happly : insert s id rows = .ok rows') : Upserts rows rows' (.service s) := by
  simp only [insert, bind_eq_ok, db_err_eq_ok, pure_eq_ok] at happly
  obtain ⟨table, hinsert, rfl⟩ := happly
  exact upserts h.toIntact (Table.upserted_of_insert hinsert (fun _ _ => clash_of_id) fun _ _ => clash_of_key)

theorem service.upserts_of_set {s : Service} {id : Uuid} (h : Sound names rows)
    (hkey : names.key id = .service s.owner_id s.slug) (happly : set s id rows = .ok rows') :
    Upserts rows rows' (.service s) := by
  simp only [set, bind_eq_ok, db_err_eq_ok, require_eq_ok, pure_eq_ok] at happly
  obtain ⟨_, hfound, table, hmodify, rfl⟩ := happly
  obtain ⟨row, hrow, hid⟩ := require_find hfound
  have hname := (h.proper.services row hrow).1
  rw [hid, hkey] at hname
  obtain ⟨howner, hslug⟩ := Key.service.inj hname
  exact upserts h.toIntact (Table.upserted_of_modify hmodify (fun _ _ => clash_of_id) (fun _ _ => clash_of_key)
    hrow hid (Prod.ext howner.symm hslug.symm))

namespace api_call

theorem exists_service {service_id : Uuid} {call : ApiCall} (h : Sound names rows)
    (hservice : names.key service_id = .service call.owner_id call.service_slug)
    (hfound : (rows.services.find fun r => r.id = service_id).isSome = true) :
    ∃ s ∈ rows.services.rows, s.id = service_id ∧ s.slug = call.service_slug := by
  obtain ⟨s, hs, hid⟩ := require_find hfound
  have hname := (h.proper.services s hs).1
  rw [hid, hservice] at hname
  exact ⟨s, hs, hid, (Key.service.inj hname).2.symm⟩

theorem upserts_of_insert {call : ApiCall} {tags : BTreeSet Tag} {id service_id : Uuid} (h : Sound names rows)
    (hsorted : tags.Sorted) (hservice : names.key service_id = .service call.owner_id call.service_slug)
    (happly : insert tag_id call tags id service_id rows = .ok rows') :
    Upserts rows rows' (.api_call ⟨call, tags⟩) := by
  simp only [insert, bind_eq_ok, db_err_eq_ok, require_eq_ok] at happly
  obtain ⟨_, hfound, _, _, table, hinsert, mid, hparams, htags⟩ := happly
  refine upserts h.toIntact ?_ hsorted (exists_service h hservice hfound)
    (Table.upserted_of_insert hinsert (fun _ _ => clash_of_id) fun _ _ => clash_of_key) hparams htags
  exact { h.toIntact with
    api_calls := h.api_calls.insert hinsert (require_find hfound)
    script_api_calls := h.script_api_calls.of_grow fun r hr => (Table.mem_of_insert hinsert).mpr (.inl hr) }

theorem upserts_of_set {call : ApiCall} {tags : BTreeSet Tag} {id service_id : Uuid} (h : Sound names rows)
    (hsorted : tags.Sorted) (hkey : names.key id = .api_call call.owner_id call.slug)
    (hservice : names.key service_id = .service call.owner_id call.service_slug)
    (happly : set tag_id call tags id service_id rows = .ok rows') :
    Upserts rows rows' (.api_call ⟨call, tags⟩) := by
  simp only [set, bind_eq_ok, db_err_eq_ok, require_eq_ok] at happly
  obtain ⟨_, hfound, _, hcall, _, _, table, hmodify, mid, hparams, htags⟩ := happly
  obtain ⟨row, hrow, hid⟩ := require_find hcall
  have hname := (h.proper.api_calls row hrow).1
  rw [hid, hkey] at hname
  obtain ⟨howner, hslug⟩ := Key.api_call.inj hname
  refine upserts h.toIntact ?_ hsorted (exists_service h hservice hfound)
    (Table.upserted_of_modify hmodify (fun _ _ => clash_of_id) (fun _ _ => clash_of_key) hrow hid
      (Prod.ext howner.symm hslug.symm)) hparams htags
  exact { h.toIntact with
    api_calls := h.api_calls.modify hmodify fun _ _ => require_find hfound
    script_api_calls := h.script_api_calls.of_modify hmodify fun r hr => (of_decide_eq_true hr).symm }

end api_call

namespace script

theorem upserts_of_insert {script : ScriptDef} {tags : BTreeSet Tag} {id : Uuid} (h : Sound names rows)
    (hwf : (Definition.script ⟨script, tags⟩).Wf) (happly : insert tag_id script tags id rows = .ok rows') :
    Upserts rows rows' (.script ⟨script, tags⟩) := by
  simp only [insert, bind_eq_ok, db_err_eq_ok] at happly
  obtain ⟨table, hinsert, first, hparams, second, hcallable, htags⟩ := happly
  exact upserts h.toIntact hwf.1 hwf.2
    (Table.upserted_of_insert hinsert (fun _ _ => clash_of_id) fun _ _ => clash_of_key) hparams hcallable htags

theorem upserts_of_set {script : ScriptDef} {tags : BTreeSet Tag} {id : Uuid} (h : Sound names rows)
    (hwf : (Definition.script ⟨script, tags⟩).Wf) (hkey : names.key id = .script script.owner_id script.slug)
    (happly : set tag_id script tags id rows = .ok rows') : Upserts rows rows' (.script ⟨script, tags⟩) := by
  simp only [set, bind_eq_ok, db_err_eq_ok, require_eq_ok] at happly
  obtain ⟨_, hfound, table, hmodify, first, hparams, second, hcallable, htags⟩ := happly
  obtain ⟨row, hrow, hid⟩ := require_find hfound
  have hname := (h.proper.scripts row hrow).1
  rw [hid, hkey] at hname
  obtain ⟨howner, hslug⟩ := Key.script.inj hname
  exact upserts h.toIntact hwf.1 hwf.2
    (Table.upserted_of_modify hmodify (fun _ _ => clash_of_id) (fun _ _ => clash_of_key) hrow hid
      (Prod.ext howner.symm hslug.symm)) hparams hcallable htags

end script

namespace endpoint

theorem upserts_of_insert {e : EndpointDef} {id : Uuid} (hwf : (Definition.endpoint e).Wf)
    (happly : insert e id rows = .ok rows') : Upserts rows rows' (.endpoint e) := by
  simp only [insert, bind_eq_ok, db_err_eq_ok] at happly
  obtain ⟨table, hinsert, mid, haliases, hscope⟩ := happly
  exact upserts hwf.1 hwf.2
    (Table.upserted_of_insert hinsert (fun _ _ => clash_of_id) fun _ _ => clash_of_key) haliases hscope

theorem upserts_of_set {e : EndpointDef} {id : Uuid} (h : Sound names rows) (hwf : (Definition.endpoint e).Wf)
    (hkey : names.key id = .endpoint e.owner_id e.slug) (happly : set e id rows = .ok rows') :
    Upserts rows rows' (.endpoint e) := by
  simp only [set, bind_eq_ok, db_err_eq_ok, require_eq_ok] at happly
  obtain ⟨_, hfound, table, hmodify, mid, haliases, hscope⟩ := happly
  obtain ⟨row, hrow, hid⟩ := require_find hfound
  have hname : names.key row.id = .endpoint row.owner_id row.slug := h.proper.endpoints row hrow
  rw [hid, hkey] at hname
  obtain ⟨howner, hslug⟩ := Key.endpoint.inj hname
  exact upserts hwf.1 hwf.2
    (Table.upserted_of_modify hmodify (fun _ _ => clash_of_id) (fun _ _ => clash_of_key) hrow hid
      (Prod.ext howner.symm hslug.symm)) haliases hscope

end endpoint

/-! What is left of the others' definitions, kind by kind. -/

theorem service.holds_others
    (hrows : ∀ r : services.Model, r.owner_id ≠ owner_id → (r ∈ rows'.services.rows ↔ r ∈ rows.services.rows))
    {s : Service} (hother : s.owner_id ≠ owner_id) : store.Holds rows' (.service s) ↔ store.Holds rows (.service s) :=
  Table.exists_congr (fun r => r.owner_id ≠ owner_id) (by rintro r rfl; exact hother)
    (by rintro r rfl; exact hother) hrows fun _ _ _ => Iff.rfl

theorem api_call.holds_others
    (hrows : ∀ r : api_calls.Model, r.owner_id ≠ owner_id → (r ∈ rows'.api_calls.rows ↔ r ∈ rows.api_calls.rows))
    (hservices : ∀ r ∈ rows.api_calls.rows, r.owner_id ≠ owner_id → ∀ s : services.Model, s.id = r.service_id →
      (s ∈ rows'.services.rows ↔ s ∈ rows.services.rows))
    (hread : ∀ r ∈ rows.api_calls.rows, r.owner_id ≠ owner_id → ∀ slug, of_row rows' r slug = of_row rows r slug)
    {t : TaggedApiCall} (hother : t.api_call.owner_id ≠ owner_id) :
    store.Holds rows' (.api_call t) ↔ store.Holds rows (.api_call t) := by
  refine Table.exists_congr (fun r => r.owner_id ≠ owner_id) ?_ ?_ hrows fun r hr hok => ?_
  · rintro r ⟨s, _, _, rfl⟩
    exact hother
  · rintro r ⟨s, _, _, rfl⟩
    exact hother
  · refine exists_congr fun s => ?_
    rw [hread r hr hok]
    constructor
    · rintro ⟨hs, hid, heq⟩
      exact ⟨(hservices r hr hok s hid).mp hs, hid, heq⟩
    · rintro ⟨hs, hid, heq⟩
      exact ⟨(hservices r hr hok s hid).mpr hs, hid, heq⟩

theorem script.holds_others
    (hrows : ∀ r : scripts.Model, r.owner_id ≠ owner_id → (r ∈ rows'.scripts.rows ↔ r ∈ rows.scripts.rows))
    (hload : ∀ r ∈ rows.scripts.rows, r.owner_id ≠ owner_id → ∀ callable,
      Query.Yields (· = rows') (load_callable r.id) callable ↔ Query.Yields (· = rows) (load_callable r.id) callable)
    (hread : ∀ r ∈ rows.scripts.rows, r.owner_id ≠ owner_id → ∀ callable, of_row rows' r callable = of_row rows r callable)
    {t : TaggedScript} (hother : t.script.owner_id ≠ owner_id) :
    store.Holds rows' (.script t) ↔ store.Holds rows (.script t) := by
  refine Table.exists_congr (fun r => r.owner_id ≠ owner_id) ?_ ?_ hrows fun r hr hok => ?_
  · rintro r ⟨callable, _, rfl⟩
    exact hother
  · rintro r ⟨callable, _, rfl⟩
    exact hother
  · refine exists_congr fun callable => ?_
    rw [hload r hr hok, hread r hr hok]

theorem endpoint.holds_others
    (hrows : ∀ r : endpoints.Model, r.owner_id ≠ owner_id → (r ∈ rows'.endpoints.rows ↔ r ∈ rows.endpoints.rows))
    (haliases : ∀ r ∈ rows.endpoints.rows, r.owner_id ≠ owner_id → aliases_of rows' r.id = aliases_of rows r.id)
    (hload : ∀ r ∈ rows.endpoints.rows, r.owner_id ≠ owner_id → ∀ providers,
      Query.Yields (· = rows') (load_auth_providers r.id) providers ↔
        Query.Yields (· = rows) (load_auth_providers r.id) providers)
    {e : EndpointDef} (hother : e.owner_id ≠ owner_id) :
    store.Holds rows' (.endpoint e) ↔ store.Holds rows (.endpoint e) := by
  refine Table.exists_congr (fun r => r.owner_id ≠ owner_id) ?_ ?_ hrows fun r hr hok => ?_
  · rintro r ⟨providers, _, rfl⟩
    exact hother
  · rintro r ⟨providers, _, rfl⟩
    exact hother
  · refine exists_congr fun providers => ?_
    rw [hload r hr hok, haliases r hr hok]

/-- What a script may call is read from entries that stay, each of a call that
stays. -/
theorem script.load_callable_others {id : Uuid}
    (hjoin : (rows'.script_api_calls.select fun r => r.script_id = id) =
      rows.script_api_calls.select fun r => r.script_id = id)
    (hcalls : ∀ j ∈ rows.script_api_calls.rows, j.script_id = id → ∀ c : api_calls.Model, c.id = j.api_call_id →
      (c ∈ rows'.api_calls.rows ↔ c ∈ rows.api_calls.rows)) (callable : BTreeMap String Slug) :
    Query.Yields (· = rows') (load_callable id) callable ↔ Query.Yields (· = rows) (load_callable id) callable := by
  rw [yields_load_callable, yields_load_callable, hjoin]
  refine exists_congr fun pairs => and_congr_right fun _ => ?_
  have hentry : ∀ j ∈ rows.script_api_calls.select fun r => r.script_id = id,
      ∀ c : api_calls.Model, c.id = j.api_call_id → (c ∈ rows'.api_calls.rows ↔ c ∈ rows.api_calls.rows) := by
    intro j hj
    obtain ⟨hj, hid⟩ := Table.mem_select.mp hj
    exact hcalls j hj (of_decide_eq_true hid)
  constructor
  · intro h
    refine pointwise.imp_mem h ?_
    rintro j hj pair ⟨hname, c, hc, hid, hslug⟩
    exact ⟨hname, c, (hentry j hj c hid).mp hc, hid, hslug⟩
  · intro h
    refine pointwise.imp_mem h ?_
    rintro j hj pair ⟨hname, c, hc, hid, hslug⟩
    exact ⟨hname, c, (hentry j hj c hid).mpr hc, hid, hslug⟩

/-- The scope of an endpoint is read from entries that stay, each of a provider
that keeps its slug. -/
theorem endpoint.load_auth_providers_others {id : Uuid}
    (hjoin : (rows'.endpoint_auth_providers.select fun r => r.endpoint_id = id) =
      rows.endpoint_auth_providers.select fun r => r.endpoint_id = id)
    (hproviders : ∀ j ∈ rows.endpoint_auth_providers.rows, j.endpoint_id = id → ∀ slug,
      (∃ p ∈ rows'.auth_providers.rows, p.id = j.auth_provider_id ∧ p.slug = slug) ↔
        ∃ p ∈ rows.auth_providers.rows, p.id = j.auth_provider_id ∧ p.slug = slug) (providers : BTreeSet Slug) :
    Query.Yields (· = rows') (load_auth_providers id) providers ↔
      Query.Yields (· = rows) (load_auth_providers id) providers := by
  rw [yields_load_auth_providers, yields_load_auth_providers, hjoin]
  refine exists_congr fun slugs => and_congr_right fun _ => ?_
  have hentry : ∀ j ∈ rows.endpoint_auth_providers.select fun r => r.endpoint_id = id, ∀ slug,
      (∃ p ∈ rows'.auth_providers.rows, p.id = j.auth_provider_id ∧ p.slug = slug) ↔
        ∃ p ∈ rows.auth_providers.rows, p.id = j.auth_provider_id ∧ p.slug = slug := by
    intro j hj
    obtain ⟨hj, hid⟩ := Table.mem_select.mp hj
    exact hproviders j hj (of_decide_eq_true hid)
  exact ⟨fun h => pointwise.imp_mem h fun j hj slug => (hentry j hj slug).mp,
    fun h => pointwise.imp_mem h fun j hj slug => (hentry j hj slug).mpr⟩

/-! The parts of a row that a delete leaves. -/

theorem api_call.of_row_delete {p : api_calls.Model → Bool} {r : api_calls.Model}
    (hgone : ((rows.api_calls.select p).map (·.id)).contains r.id = false) (slug : Slug) :
    of_row (delete p rows) r slug = of_row rows r slug := by
  have hparams : params_of (delete p rows) r.id = params_of rows r.id := by
    unfold params_of
    rw [delete, Table.select_delete fun j _ hj => ?_]
    rw [of_decide_eq_true hj]
    exact hgone
  have hids : tag.ids_of_api_call (delete p rows) r.id = tag.ids_of_api_call rows r.id := by
    unfold tag.ids_of_api_call
    rw [delete, Table.select_delete fun j _ hj => ?_]
    rw [of_decide_eq_true hj]
    exact hgone
  rw [of_row, of_row, hparams, hids]
  rfl

theorem script.of_row_delete {id : Uuid} {r : scripts.Model} (hne : r.id ≠ id) (callable : BTreeMap String Slug) :
    of_row (delete id rows) r callable = of_row rows r callable := by
  have hkept : ∀ i, decide (i = r.id) = true → decide (i = id) = false := by
    intro i hi
    rw [of_decide_eq_true hi]
    exact decide_eq_false hne
  have hparams : params_of (delete id rows) r.id = params_of rows r.id := by
    unfold params_of
    rw [delete, Table.select_delete fun j _ => hkept j.script_id]
  have hids : tag.ids_of_script (delete id rows) r.id = tag.ids_of_script rows r.id := by
    unfold tag.ids_of_script
    rw [delete, Table.select_delete fun j _ => hkept j.script_id]
  rw [of_row, of_row, hparams, hids]
  rfl

theorem endpoint.aliases_of_delete {id : Uuid} {r : endpoints.Model} (hne : r.id ≠ id) :
    aliases_of (delete id rows) r.id = aliases_of rows r.id := by
  unfold aliases_of
  rw [delete, Table.select_delete fun j _ hj => ?_]
  rw [of_decide_eq_true hj]
  exact decide_eq_false hne

/-! A delete, with its cascade, stays with the owner of what it begins with. -/

/-- A service row goes. -/
theorem service.others_of_delete {id : Uuid} (h : Proper names rows) (hid : (names.key id).owner_id = owner_id)
    {d : Definition} (hother : d.key.owner_id ≠ owner_id) :
    store.Holds { rows with services := rows.services.delete fun r => r.id = id } d ↔ store.Holds rows d := by
  have hkept : ∀ i, (names.key i).owner_id ≠ owner_id → ∀ s : services.Model, s.id = i →
      (s ∈ (rows.services.delete fun r => r.id = id).rows ↔ s ∈ rows.services.rows) := by
    intro i hi s hs
    rw [Table.mem_delete]
    refine and_iff_left (decide_eq_false ?_)
    rintro rfl
    exact hi (hs ▸ hid)
  cases d with
  | service s =>
    refine holds_others (fun r howner => ⟨fun hr => (Table.mem_delete.mp hr).1, fun hr => ?_⟩) hother
    refine (hkept r.id ?_ r rfl).mpr hr
    rw [(h.services r hr).1]
    exact howner
  | api_call t =>
    refine api_call.holds_others (fun _ _ => ?_) (fun r hr howner s hs => ?_) (fun _ _ _ _ => ?_) hother
    · rfl
    · refine hkept r.service_id ?_ s hs
      rw [(h.api_calls r hr).2.1]
      exact howner
    · rfl
  | script t => refine script.holds_congr ?_ ?_ (fun _ _ _ => ?_) (fun _ _ _ => ?_) <;> rfl
  | endpoint e => refine endpoint.holds_congr ?_ ?_ ?_ ?_ <;> rfl

theorem auth_provider.others_of_delete {p : auth_providers.Model → Bool} (h : Proper names rows)
    (hp : ∀ r ∈ rows.auth_providers.rows, p r = true → r.owner_id = owner_id) {d : Definition}
    (hother : d.key.owner_id ≠ owner_id) : store.Holds (delete p rows) d ↔ store.Holds rows d := by
  cases d with
  | service s => exact service.holds_congr rfl
  | api_call t => refine api_call.holds_congr ?_ (fun _ _ _ => ?_) (fun _ _ _ => ?_) <;> rfl
  | script t => refine script.holds_congr ?_ ?_ (fun _ _ _ => ?_) (fun _ _ _ => ?_) <;> rfl
  | endpoint e =>
    refine endpoint.holds_others (fun _ _ => ?_) (fun _ _ _ => ?_) (fun r hr howner => ?_) hother
    · rfl
    · rfl
    have hscope : ∀ j ∈ rows.endpoint_auth_providers.rows, j.endpoint_id = r.id →
        ∀ a ∈ rows.auth_providers.rows, a.id = j.auth_provider_id → p a = false := by
      intro j hj hid a ha hprovider
      rw [← Bool.not_eq_true]
      intro hgone
      have hname : (names.key j.endpoint_id).owner_id = (names.provider j.auth_provider_id).1 :=
        h.endpoint_auth_providers j hj
      have hkey : names.key r.id = .endpoint r.owner_id r.slug := h.endpoints r hr
      rw [hid, hkey, ← hprovider, (h.auth_providers a ha).1] at hname
      exact howner (hname.trans (hp a ha hgone))
    refine endpoint.load_auth_providers_others (Table.select_delete fun j hj hid => ?_) fun j hj hid slug => ?_
    · rw [← Bool.not_eq_true, List.contains_iff_mem]
      intro hgone
      obtain ⟨a, ha, hprovider⟩ := List.mem_map.mp hgone
      obtain ⟨ha, hpa⟩ := Table.mem_select.mp ha
      rw [hscope j hj (of_decide_eq_true hid) a ha hprovider] at hpa
      cases hpa
    · constructor
      · rintro ⟨a, ha, hprovider, hslug⟩
        exact ⟨a, (Table.mem_delete.mp ha).1, hprovider, hslug⟩
      · rintro ⟨a, ha, hprovider, hslug⟩
        exact ⟨a, Table.mem_delete.mpr ⟨ha, hscope j hj hid a ha hprovider⟩, hprovider, hslug⟩

theorem api_call.others_of_delete {p : api_calls.Model → Bool} (h : Proper names rows)
    (hp : ∀ r ∈ rows.api_calls.rows, p r = true → r.owner_id = owner_id) {d : Definition}
    (hother : d.key.owner_id ≠ owner_id) : store.Holds (delete p rows) d ↔ store.Holds rows d := by
  have hkept : ∀ i, (names.key i).owner_id ≠ owner_id → ∀ c ∈ rows.api_calls.rows, c.id = i → p c = false := by
    intro i hi c hc hid
    rw [← Bool.not_eq_true]
    intro hgone
    have howner := hp c hc hgone
    rw [← hid, (h.api_calls c hc).1] at hi
    exact hi howner
  have hgone : ∀ i, (names.key i).owner_id ≠ owner_id →
      ((rows.api_calls.select p).map (·.id)).contains i = false := by
    intro i hi
    rw [← Bool.not_eq_true, List.contains_iff_mem]
    intro hmem
    obtain ⟨c, hc, hid⟩ := List.mem_map.mp hmem
    obtain ⟨hc, hpc⟩ := Table.mem_select.mp hc
    rw [hkept i hi c hc hid] at hpc
    cases hpc
  cases d with
  | service s => exact service.holds_congr rfl
  | api_call t =>
    have hkey : ∀ r ∈ rows.api_calls.rows, r.owner_id ≠ owner_id → (names.key r.id).owner_id ≠ owner_id := by
      intro r hr howner
      rw [(h.api_calls r hr).1]
      exact howner
    refine holds_others (fun r howner => ?_) (fun _ _ _ _ _ => ?_) (fun r hr howner slug => ?_) hother
    · exact ⟨fun hr => (Table.mem_delete.mp hr).1, fun hr =>
        Table.mem_delete.mpr ⟨hr, hkept r.id (hkey r hr howner) r hr rfl⟩⟩
    · rfl
    · exact of_row_delete (hgone r.id (hkey r hr howner)) slug
  | script t =>
    have hcall : ∀ r ∈ rows.scripts.rows, r.owner_id ≠ owner_id → ∀ j ∈ rows.script_api_calls.rows,
        j.script_id = r.id → (names.key j.api_call_id).owner_id ≠ owner_id := by
      intro r hr howner j hj hid
      have hname : (names.key j.script_id).owner_id = (names.key j.api_call_id).owner_id := h.script_api_calls j hj
      rw [hid, (h.scripts r hr).1] at hname
      exact hname ▸ howner
    refine script.holds_others (fun _ _ => ?_) (fun r hr howner => ?_) (fun _ _ _ _ => ?_) hother
    · rfl
    swap
    · rfl
    have hcall := hcall r hr howner
    refine script.load_callable_others (Table.select_delete fun j hj hid => ?_) fun j hj hid c hc => ?_
    · exact hgone j.api_call_id (hcall j hj (of_decide_eq_true hid))
    · exact ⟨fun hmem => (Table.mem_delete.mp hmem).1, fun hmem =>
        Table.mem_delete.mpr ⟨hmem, hkept j.api_call_id (hcall j hj hid) c hmem hc⟩⟩
  | endpoint e => refine endpoint.holds_congr ?_ ?_ ?_ ?_ <;> rfl

theorem service.others_of_cascade {id : Uuid} (h : Proper names rows) (hid : (names.key id).owner_id = owner_id)
    {d : Definition} (hother : d.key.owner_id ≠ owner_id) : store.Holds (delete id rows) d ↔ store.Holds rows d := by
  have hservices : Proper names { rows with services := rows.services.delete fun r => r.id = id } :=
    { h with services := h.services.delete _ }
  have hproviders := auth_provider.proper_of_delete (p := fun r => r.service_id = id) hservices
  rw [← service.others_of_delete h hid hother, ← auth_provider.others_of_delete hservices ?_ hother]
  · refine api_call.others_of_delete hproviders (fun r hr hservice => ?_) hother
    rw [← (h.api_calls r hr).2.1, of_decide_eq_true hservice, hid]
  · intro r hr hservice
    rw [← (h.auth_providers r hr).2, of_decide_eq_true hservice, hid]

theorem script.others_of_delete {id : Uuid} (h : Proper names rows) (hid : (names.key id).owner_id = owner_id)
    {d : Definition} (hother : d.key.owner_id ≠ owner_id) : store.Holds (delete id rows) d ↔ store.Holds rows d := by
  cases d with
  | service s => exact service.holds_congr rfl
  | api_call t => refine api_call.holds_congr ?_ (fun _ _ _ => ?_) (fun _ _ _ => ?_) <;> rfl
  | script t =>
    have hne : ∀ r ∈ rows.scripts.rows, r.owner_id ≠ owner_id → r.id ≠ id := by
      rintro r hr howner rfl
      rw [(h.scripts r hr).1] at hid
      exact howner hid
    have hkept : ∀ r ∈ rows.scripts.rows, r.owner_id ≠ owner_id → ∀ i, decide (i = r.id) = true → decide (i = id) = false := by
      intro r hr howner i hi
      rw [of_decide_eq_true hi]
      exact decide_eq_false (hne r hr howner)
    refine holds_others (fun r howner => ⟨fun hr => (Table.mem_delete.mp hr).1, fun hr => ?_⟩) (fun r hr howner => ?_)
      (fun r hr howner callable => ?_) hother
    · exact Table.mem_delete.mpr ⟨hr, decide_eq_false (hne r hr howner)⟩
    · refine load_callable_others (Table.select_delete fun j _ => ?_) fun _ _ _ _ _ => Iff.rfl
      exact hkept r hr howner j.script_id
    · exact of_row_delete (hne r hr howner) callable
  | endpoint e => refine endpoint.holds_congr ?_ ?_ ?_ ?_ <;> rfl

theorem endpoint.others_of_delete {id : Uuid} (h : Proper names rows) (hid : (names.key id).owner_id = owner_id)
    {d : Definition} (hother : d.key.owner_id ≠ owner_id) : store.Holds (delete id rows) d ↔ store.Holds rows d := by
  cases d with
  | service s => exact service.holds_congr rfl
  | api_call t => refine api_call.holds_congr ?_ (fun _ _ _ => ?_) (fun _ _ _ => ?_) <;> rfl
  | script t => refine script.holds_congr ?_ ?_ (fun _ _ _ => ?_) (fun _ _ _ => ?_) <;> rfl
  | endpoint e =>
    have hne : ∀ r ∈ rows.endpoints.rows, r.owner_id ≠ owner_id → r.id ≠ id := by
      rintro r hr howner rfl
      have hkey : names.key r.id = .endpoint r.owner_id r.slug := h.endpoints r hr
      rw [hkey] at hid
      exact howner hid
    have hkept : ∀ r ∈ rows.endpoints.rows, r.owner_id ≠ owner_id → ∀ i, decide (i = r.id) = true → decide (i = id) = false := by
      intro r hr howner i hi
      rw [of_decide_eq_true hi]
      exact decide_eq_false (hne r hr howner)
    refine holds_others (fun r howner => ⟨fun hr => (Table.mem_delete.mp hr).1, fun hr => ?_⟩) (fun r hr howner => ?_)
      (fun r hr howner => ?_) hother
    · exact Table.mem_delete.mpr ⟨hr, decide_eq_false (hne r hr howner)⟩
    · exact aliases_of_delete (hne r hr howner)
    · refine load_auth_providers_others (Table.select_delete fun j _ => ?_) fun _ _ _ _ => Iff.rfl
      exact hkept r hr howner j.endpoint_id

/-! What a delete leaves of the definitions that stay. -/

/-- A script may lose some of what it calls, an endpoint some of what it is
scoped to. -/
inductive Trims : Definition → Definition → Prop
  | service (s : Service) : Trims (.service s) (.service s)
  | api_call (t : api_call.TaggedApiCall) : Trims (.api_call t) (.api_call t)
  | script (t : script.TaggedScript) {callable : BTreeMap String Slug} (hfewer : ∀ kv ∈ callable, kv ∈ t.script.callable) :
    Trims (.script t) (.script ⟨{ t.script with callable }, t.tags⟩)
  | endpoint (e : EndpointDef) {auth_providers : BTreeSet Slug} (hfewer : ∀ slug ∈ auth_providers, slug ∈ e.auth_providers) :
    Trims (.endpoint e) (.endpoint { e with auth_providers })

theorem Trims.refl (d : Definition) : Trims d d := by
  cases d with
  | service s => exact .service s
  | api_call t => exact .api_call t
  | script t => exact .script t fun _ hkv => hkv
  | endpoint e => exact .endpoint e fun _ hslug => hslug

theorem Trims.trans {d d' d'' : Definition} (h : Trims d d') (h' : Trims d' d'') : Trims d d'' := by
  cases h with
  | service s => exact h'
  | api_call t => exact h'
  | script t hfewer =>
    cases h' with
    | script _ hfewer' => exact .script t fun kv hkv => hfewer kv (hfewer' kv hkv)
  | endpoint e hfewer =>
    cases h' with
    | endpoint _ hfewer' => exact .endpoint e fun slug hslug => hfewer slug (hfewer' slug hslug)

theorem Trims.key {d d' : Definition} (h : Trims d d') : d'.key = d.key := by
  cases h <;> rfl

namespace auth_provider

abbrev row_key (r : auth_providers.Model) : Uuid × Slug := (r.owner_id, r.slug)

theorem clash_of_id {a b : auth_providers.Model} (h : a.id = b.id) : auth_providers.indexes.clash a b = true := by
  simp [auth_providers.indexes, Indexes.or, Indexes.on, h]

theorem clash_of_key {a b : auth_providers.Model} (h : row_key a = row_key b) :
    auth_providers.indexes.clash a b = true := by
  obtain ⟨howner, hslug⟩ := Prod.mk.inj h
  simp [auth_providers.indexes, Indexes.or, Indexes.on, howner, hslug]

theorem holds_of_upserted {table : Table auth_providers.indexes} {r : auth_providers.Model} (hintact : Intact rows)
    (h : Table.Upserted (·.id) row_key rows.auth_providers table r) {d : Definition} :
    Holds { rows with auth_providers := table } d ↔ Holds rows d := by
  cases d with
  | service s => exact service.holds_congr rfl
  | api_call t => refine api_call.holds_congr ?_ (fun _ _ _ => ?_) (fun _ _ _ => ?_) <;> rfl
  | script t => refine script.holds_congr ?_ ?_ (fun _ _ _ => ?_) (fun _ _ _ => ?_) <;> rfl
  | endpoint e =>
    refine exists_congr fun row => and_congr_right fun _ => exists_congr fun providers => and_congr_left' ?_
    refine endpoint.load_auth_providers_others ?_ (fun j hj _ slug => ?_) providers
    · rfl
    · exact h.exists_iff (hintact.endpoint_auth_providers j hj) (P := fun key => key.2 = slug)

theorem holds_of_insert {p : AuthProvider} {id service_id : Uuid} (h : Sound names rows)
    (happly : insert p id service_id rows = .ok rows') {d : Definition} : Holds rows' d ↔ Holds rows d := by
  simp only [insert, bind_eq_ok, db_err_eq_ok, pure_eq_ok] at happly
  obtain ⟨_, _, table, hinsert, rfl⟩ := happly
  exact holds_of_upserted h.toIntact
    (Table.upserted_of_insert hinsert (fun _ _ => clash_of_id) fun _ _ => clash_of_key)

theorem holds_of_set {p : AuthProvider} {id service_id : Uuid} (h : Sound names rows)
    (hprovides : names.Provides owner_id id service_id p) (happly : set p id service_id rows = .ok rows')
    {d : Definition} : Holds rows' d ↔ Holds rows d := by
  simp only [set, bind_eq_ok, db_err_eq_ok, require_eq_ok, pure_eq_ok] at happly
  obtain ⟨_, _, _, hfound, table, hmodify, rfl⟩ := happly
  obtain ⟨row, hrow, hid⟩ := require_find hfound
  have hname := (h.proper.auth_providers row hrow).1
  rw [hid, (Provides.row hprovides).1] at hname
  obtain ⟨howner, hslug⟩ := Prod.mk.inj hname
  have hkey : row_key row = row_key (to_active_model p id service_id) := Prod.ext howner.symm hslug.symm
  exact holds_of_upserted h.toIntact
    (Table.upserted_of_modify hmodify (fun _ _ => clash_of_id) (fun _ _ => clash_of_key) hrow hid hkey)

end auth_provider

/-- The definition that a write puts in its place. -/
def Write.puts : Write → Option Definition
  | create_service s _ => some (.service s)
  | update_service s _ => some (.service s)
  | create_api_call _ c tags _ _ => some (.api_call ⟨c, tags⟩)
  | update_api_call _ c tags _ _ => some (.api_call ⟨c, tags⟩)
  | create_script _ s tags _ => some (.script ⟨s, tags⟩)
  | update_script _ s tags _ => some (.script ⟨s, tags⟩)
  | create_endpoint e _ => some (.endpoint e)
  | update_endpoint e _ => some (.endpoint e)
  | _ => none

theorem Sound.upserts {write : Write} {d : Definition} (h : Sound names rows) (hof : write.Of names owner_id)
    (happly : write.apply rows = .ok rows') (hputs : write.puts = some d) :
    Upserts rows rows' d ∧ d.key.owner_id = owner_id := by
  cases write with
  | create_service s id =>
    obtain rfl := Option.some.inj hputs
    exact ⟨service.upserts_of_insert h happly, hof.2.1⟩
  | update_service s id =>
    obtain rfl := Option.some.inj hputs
    exact ⟨service.upserts_of_set h hof.1 happly, hof.2.1⟩
  | create_api_call tag_id c tags id service_id =>
    obtain rfl := Option.some.inj hputs
    obtain ⟨⟨hkey, rfl, hwf⟩, hservice⟩ := hof
    exact ⟨api_call.upserts_of_insert h hwf hservice happly, rfl⟩
  | update_api_call tag_id c tags id service_id =>
    obtain rfl := Option.some.inj hputs
    obtain ⟨⟨hkey, rfl, hwf⟩, hservice⟩ := hof
    exact ⟨api_call.upserts_of_set h hwf hkey hservice happly, rfl⟩
  | create_script tag_id s tags id =>
    obtain rfl := Option.some.inj hputs
    exact ⟨script.upserts_of_insert h hof.2.2 happly, hof.2.1⟩
  | update_script tag_id s tags id =>
    obtain rfl := Option.some.inj hputs
    exact ⟨script.upserts_of_set h hof.2.2 hof.1 happly, hof.2.1⟩
  | create_endpoint e id =>
    obtain rfl := Option.some.inj hputs
    exact ⟨endpoint.upserts_of_insert hof.2.2 happly, hof.2.1⟩
  | update_endpoint e id =>
    obtain rfl := Option.some.inj hputs
    exact ⟨endpoint.upserts_of_set h hof.2.2 hof.1 happly, hof.2.1⟩
  | _ => cases hputs

/-- A write for one owner leaves what the others have. -/
theorem Sound.others_kept {write : Write} (h : Sound names rows) (hof : write.Of names owner_id)
    (happly : write.apply rows = .ok rows') {d : Definition} (hother : d.key.owner_id ≠ owner_id) :
    Holds rows' d ↔ Holds rows d := by
  cases hputs : write.puts with
  | some x =>
    obtain ⟨hupserts, howner⟩ := h.upserts hof happly hputs
    exact hupserts.other fun heq => hother (heq ▸ howner)
  | none =>
    cases write with
    | delete_service id =>
      cases happly
      exact service.others_of_cascade h.proper hof hother
    | create_auth_provider p id service_id => exact auth_provider.holds_of_insert h happly
    | update_auth_provider p id service_id => exact auth_provider.holds_of_set h hof happly
    | delete_auth_provider id =>
      cases happly
      refine auth_provider.others_of_delete h.proper (fun r hr hid => ?_) hother
      rw [← hof, ← of_decide_eq_true hid, (h.proper.auth_providers r hr).1]
    | delete_api_call id =>
      cases happly
      refine api_call.others_of_delete h.proper (fun r hr hid => ?_) hother
      rw [← hof, ← of_decide_eq_true hid, (h.proper.api_calls r hr).1]
      rfl
    | delete_script id =>
      cases happly
      exact script.others_of_delete h.proper hof hother
    | delete_endpoint id =>
      cases happly
      exact endpoint.others_of_delete h.proper hof hother
    | _ => cases hputs

end

/-! The store methods under way. -/

/-- Any number of store methods, all of them about to start. -/
def start {ι : Type} (db : Db) (methods : ι → Method) : Pool ι Stmt Db (Except StoreError Unit) where
  store := db
  task i := write_after (methods i).decide

/-- The definition that a method is asked to store. -/
def Method.puts : Method → Option Definition
  | create _ _ d => some d
  | update _ d => some d
  | _ => none

/-- What a statement of a method makes of the rows: what they were, or what a
write for its owner makes of them, which puts nothing but what the method is
asked to. -/
def WritesFor (names : Names) (m : Method) (db db' : Db) : Prop :=
  db'.rows = db.rows ∨ ∃ write : Write, write.Of names m.owner_id ∧ (∀ d, write.puts = some d → m.puts = some d) ∧
    write.apply db.rows = .ok db'.rows

section

variable {ι : Type} {methods : ι → Method} {db : Db} {names : Names}

theorem Method.decides_puts {m : Method} {write : Write} (h : Query.Yields (Sound names) m.decide write) {d : Definition}
    (hputs : write.puts = some d) : m.puts = some d := by
  cases m with
  | create tag_id id d =>
    cases d with
    | service s =>
      rw [service.create_yields h] at hputs
      exact hputs
    | api_call t =>
      obtain ⟨service_id, rfl, _⟩ := api_call.decides_create h
      exact hputs
    | script t =>
      rw [script.create_yields h] at hputs
      exact hputs
    | endpoint e =>
      rw [endpoint.create_yields h] at hputs
      exact hputs
  | update tag_id d =>
    cases d with
    | service s =>
      obtain ⟨id, rfl, _⟩ := service.decides_update h
      exact hputs
    | api_call t =>
      obtain ⟨id, service_id, rfl, _⟩ := api_call.decides_update h
      exact hputs
    | script t =>
      obtain ⟨id, rfl, _⟩ := script.decides_update h
      exact hputs
    | endpoint e =>
      obtain ⟨id, rfl, _⟩ := endpoint.decides_update h
      exact hputs
  | delete_service owner_id slug =>
    obtain ⟨id, rfl, _⟩ := service.decides_delete h
    cases hputs
  | delete_api_call owner_id service_slug slug =>
    obtain ⟨id, rfl, _⟩ := api_call.decides_delete h
    cases hputs
  | delete_script owner_id slug =>
    obtain ⟨id, rfl, _⟩ := script.decides_delete h
    cases hputs
  | delete_endpoint owner_id slug =>
    obtain ⟨id, rfl, _⟩ := endpoint.decides_delete h
    cases hputs
  | create_auth_provider provider id =>
    obtain ⟨service_id, rfl, _⟩ := auth_provider.decides_create h
    cases hputs
  | update_auth_provider provider =>
    obtain ⟨id, service_id, rfl, _⟩ := auth_provider.decides_update h
    cases hputs
  | delete_auth_provider owner_id service_slug slug =>
    obtain ⟨id, rfl, _⟩ := auth_provider.decides_delete h
    cases hputs

theorem Method.under {m : Method} (hwf : m.Wf) (hdrawn : m.DrawnFor names) :
    (write_after m.decide).Under (fun db => Sound names db.rows) fun _ => WritesFor names m := by
  refine Query.under_task_bind (fun _ _ => .inl rfl) fun answer hsees => ?_
  cases answer with
  | error e => exact .done _
  | ok write =>
    have hsees : Query.Yields (Sound names) m.decide write := by
      refine hsees.mono ?_
      rintro rows ⟨db, hsound, rfl⟩
      exact hsound
    have htransact : (transact write).All
        (Commits fun w => w.Of names m.owner_id ∧ ∀ d, w.puts = some d → m.puts = some d) :=
      commits_transact ⟨Method.decides hwf hdrawn hsees, fun d => Method.decides_puts hsees⟩
    refine htransact.under fun l act hcommits db _ => ?_
    obtain ⟨hsame, _⟩ | ⟨w, rows, hw, _, happly, hrows⟩ := hcommits.cases db
    · exact .inl hsame
    · exact .inr ⟨w, hw.1, hw.2, hrows ▸ happly⟩

theorem WritesFor.sound {m : Method} {db db' : Db} (h : WritesFor names m db db') (hsound : Sound names db.rows) :
    Sound names db'.rows := by
  obtain hsame | ⟨write, hof, _, happly⟩ := h
  · rwa [hsame]
  · exact hsound.apply hof happly

variable [DecidableEq ι]

theorem start_under (hwf : ∀ i, (methods i).Wf) (hdrawn : ∀ i, (methods i).DrawnFor names) (hempty : db.rows = {})
    (sched : List ι) : ((start db methods).run sched).Under (fun db => Sound names db.rows)
      fun i _ => WritesFor names (methods i) := by
  refine Pool.Under.run (fun i _ s s' hsound h => h.sound hsound) ⟨?_, fun i => Method.under (hwf i) (hdrawn i)⟩ sched
  change Sound names db.rows
  rw [hempty]
  exact Sound.empty names

/-- The rows to which a run of store methods leads that begins with nothing. -/
def Reached (rows : Rows) : Prop :=
  ∃ (ι : Type) (_ : DecidableEq ι) (methods : ι → Method) (db : Db) (sched : List ι), DrawnOnce methods ∧
    (∀ i, (methods i).Wf) ∧ db.rows = {} ∧ ((start db methods).run sched).store.rows = rows

/-- No method has run yet. -/
theorem reached_empty : Reached {} := by
  refine ⟨Empty, inferInstance, fun i => i.elim, ⟨{}, none, false, 0, []⟩, [], fun i => i.elim, fun i => i.elim, rfl, rfl⟩

theorem Reached.sound {rows : Rows} (h : Reached rows) : ∃ names, Sound names rows := by
  obtain ⟨ι, _, methods, db, sched, hdrawn, hwf, hempty, rfl⟩ := h
  obtain ⟨names, hnames⟩ := exists_names hdrawn
  exact ⟨names, (start_under hwf hnames hempty sched).1⟩

/-- Whatever methods run, and however their statements alternate, a turn of one
that is called for an owner leaves what every other owner has. -/
theorem others_untouched (hdrawn : DrawnOnce methods) (hwf : ∀ i, (methods i).Wf) (hempty : db.rows = {})
    (sched : List ι) (i : ι) {d : Definition} (hother : d.key.owner_id ≠ (methods i).owner_id) :
    Holds (((start db methods).run sched).step i).store.rows d ↔ Holds ((start db methods).run sched).store.rows d := by
  obtain ⟨names, hnames⟩ := exists_names hdrawn
  have hunder := start_under hwf hnames hempty sched
  obtain hsame | ⟨_, hsame | ⟨write, hof, _, happly⟩⟩ := hunder.turn i
  · rw [hsame]
  · rw [hsame]
  · exact hunder.1.others_kept hof happly hother

theorem not_holds_empty (d : Definition) : ¬ Holds {} d := by
  intro hd
  cases d with
  | service s =>
    obtain ⟨row, hrow, _⟩ := hd
    cases hrow
  | api_call t =>
    obtain ⟨row, hrow, _⟩ := hd
    cases hrow
  | script t =>
    obtain ⟨row, hrow, _⟩ := hd
    cases hrow
  | endpoint e =>
    obtain ⟨row, hrow, _⟩ := hd
    cases hrow

end

/-! Two owners create a script each. -/

def sample_script (owner_id : Uuid) : Definition := .script
  { script := { owner_id, slug := .crm, source := "42", params := [], callable := [], budgets := {}, description := none }
    tags := [] }

def sample_methods : Fin 2 → Method := ![.create (fun _ => 0) 7 (sample_script 1), .create (fun _ => 0) 8 (sample_script 2)]

def sample_db : Db where
  rows := {}
  generation := none
  meta_locked := false
  now := 0
  log := []

/-- The second method is about to commit. -/
def sample_sched : List (Fin 2) := (List.finRange 2).flatMap fun i => List.replicate (5 - i.val) i

theorem sample_drawn : DrawnOnce sample_methods := by
  intro i j id hi hj
  fin_cases i <;> fin_cases j
  · rfl
  · exact absurd (hi.trans hj.symm) (by decide)
  · exact absurd (hi.trans hj.symm) (by decide)
  · rfl

theorem sample_wf (i : Fin 2) : (sample_methods i).Wf := by
  fin_cases i <;> exact ⟨.nil, .nil⟩

theorem sample_held : Holds ((start sample_db sample_methods).run sample_sched).store.rows (sample_script 1) :=
  ⟨_, List.mem_cons_self, [], Query.yields_eval.mpr rfl, rfl⟩

/-- The first owner's script is there when the second owner's is created. -/
theorem sample_untouched :
    Holds (((start sample_db sample_methods).run sample_sched).step 1).store.rows (sample_script 1) :=
  (others_untouched sample_drawn sample_wf rfl sample_sched 1 (by decide)).mpr sample_held

section

variable {ι : Type} {methods : ι → Method} {db : Db} [DecidableEq ι]

end

end api2mcp.store
