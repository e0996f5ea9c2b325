import Api2Mcp.Store.Decisions
import Api2Mcp.Store.Puts

namespace api2mcp.store

open relational btree concurrent except
open api2mcp.model api2mcp.entity

/-! What holds of the rows whichever store methods run, and however their
statements come to alternate. -/

/-- The store methods that write, with the keys drawn for what they create. -/
inductive Method where
  | create (tag_id : Tag → Uuid) (id : Uuid) (d : Definition)
  | update (tag_id : Tag → Uuid) (d : Definition)
  | delete_service (owner_id : Uuid) (slug : Slug)
  | delete_api_call (owner_id : Uuid) (service_slug slug : Slug)
  | delete_script (owner_id : Uuid) (slug : Slug)
  | delete_endpoint (owner_id : Uuid) (slug : Slug)
  | create_auth_provider (provider : AuthProvider) (id : Uuid)
  | update_auth_provider (provider : AuthProvider)
  | delete_auth_provider (owner_id : Uuid) (service_slug slug : Slug)

namespace Method

/-- What the method reads to decide on its write. -/
def decide : Method → Fetch Write
  | create tag_id id d => d.create tag_id id
  | update tag_id d => d.update tag_id
  | delete_service owner_id slug => service.remove owner_id slug
  | delete_api_call owner_id service_slug slug => api_call.remove owner_id service_slug slug
  | delete_script owner_id slug => script.remove owner_id slug
  | delete_endpoint owner_id slug => endpoint.remove owner_id slug
  | create_auth_provider provider id => auth_provider.create provider id
  | update_auth_provider provider => auth_provider.update provider
  | delete_auth_provider owner_id service_slug slug => auth_provider.remove owner_id service_slug slug

/-- Whom the method is called for. -/
def owner_id : Method → Uuid
  | create _ _ d => d.key.owner_id
  | update _ d => d.key.owner_id
  | delete_service owner_id _ => owner_id
  | delete_api_call owner_id _ _ => owner_id
  | delete_script owner_id _ => owner_id
  | delete_endpoint owner_id _ => owner_id
  | create_auth_provider provider _ => provider.owner_id
  | update_auth_provider provider => provider.owner_id
  | delete_auth_provider owner_id _ _ => owner_id

/-- The sets and maps it is given are in the order of their keys. -/
def Wf : Method → Prop
  | create _ _ d => d.Wf
  | update _ d => d.Wf
  | _ => True

/-- The key that is drawn for a new row. -/
def drawn : Method → Option Uuid
  | create _ id _ => some id
  | create_auth_provider _ id => some id
  | _ => none

end Method

/-- No key is drawn twice. -/
def DrawnOnce {ι : Type} (methods : ι → Method) : Prop :=
  ∀ i j id, (methods i).drawn = some id → (methods j).drawn = some id → i = j

/-- What each key was drawn for: the code keeps no such record. -/
structure Names where
  key : Uuid → Key
  provider : Uuid → Uuid × Slug

/-- The key that the method draws was drawn for what it creates. -/
def Method.DrawnFor (names : Names) : Method → Prop
  | create _ id d => names.key id = d.key
  | create_auth_provider provider id => names.provider id = (provider.owner_id, provider.slug)
  | _ => True

theorem exists_names {ι : Type} {methods : ι → Method} (hdrawn : DrawnOnce methods) :
    ∃ names : Names, ∀ i, (methods i).DrawnFor names := by
  have hkey : ∀ id, ∃ k, ∀ i tag_id d, methods i = .create tag_id id d → k = d.key := by
    intro id
    by_cases h : ∃ i tag_id d, methods i = .create tag_id id d
    · obtain ⟨i, tag_id, d, hi⟩ := h
      refine ⟨d.key, fun j tag_id' d' hj => ?_⟩
      obtain rfl := hdrawn i j id (by rw [hi]; rfl) (by rw [hj]; rfl)
      obtain ⟨_, _, rfl⟩ := Method.create.inj (hi.symm.trans hj)
      rfl
    · exact ⟨.service 0 .crm, fun i tag_id d hi => absurd ⟨i, tag_id, d, hi⟩ h⟩
  have hprovider : ∀ id, ∃ p, ∀ i (provider : AuthProvider), methods i = .create_auth_provider provider id →
      p = (provider.owner_id, provider.slug) := by
    intro id
    by_cases h : ∃ i provider, methods i = .create_auth_provider provider id
    · obtain ⟨i, provider, hi⟩ := h
      refine ⟨(provider.owner_id, provider.slug), fun j provider' hj => ?_⟩
      obtain rfl := hdrawn i j id (by rw [hi]; rfl) (by rw [hj]; rfl)
      obtain ⟨rfl, _⟩ := Method.create_auth_provider.inj (hi.symm.trans hj)
      rfl
    · exact ⟨(0, .crm), fun i provider hi => absurd ⟨i, provider, hi⟩ h⟩
  choose key hkey using hkey
  choose provider hprovider using hprovider
  refine ⟨⟨key, provider⟩, fun i => ?_⟩
  cases hi : methods i with
  | create tag_id id d => exact hkey id i tag_id d hi
  | create_auth_provider p id => exact hprovider id i p hi
  | _ => trivial

/-- Each row stands under a key that was drawn for it, next to rows of its own
owner, and passes the checks of its table. -/
structure Proper (names : Names) (rows : Rows) : Prop where
  services : rows.services.Each fun r =>
    names.key r.id = .service r.owner_id r.slug ∧ r.rate_limit_per_min < 2 ^ 31
  auth_providers : rows.auth_providers.Each fun r =>
    names.provider r.id = (r.owner_id, r.slug) ∧ (names.key r.service_id).owner_id = r.owner_id
  api_calls : rows.api_calls.Each fun r =>
    names.key r.id = .api_call r.owner_id r.slug ∧ (names.key r.service_id).owner_id = r.owner_id ∧
      api_call.ck_method r.method = true
  api_call_params : rows.api_call_params.Each fun r =>
    r.location ≠ .Local ∧ (r.fixed_value = none ∨ r.required = false)
  scripts : rows.scripts.Each fun r =>
    names.key r.id = .script r.owner_id r.slug ∧ FitsColumns (script.to_model r [] []).budgets
  script_api_calls : rows.script_api_calls.Each fun r =>
    (names.key r.script_id).owner_id = (names.key r.api_call_id).owner_id
  endpoints : rows.endpoints.Each fun r => names.key r.id = .endpoint r.owner_id r.slug
  endpoint_auth_providers : rows.endpoint_auth_providers.Each fun r =>
    (names.key r.endpoint_id).owner_id = (names.provider r.auth_provider_id).1

/-- The rows that the store methods leave. -/
structure Sound (names : Names) (rows : Rows) : Prop extends Intact rows where
  proper : Proper names rows

theorem Sound.empty (names : Names) : Sound names {} := by
  refine { Intact.empty with proper := ?_ }
  constructor <;> exact fun _ hmem => absurd hmem List.not_mem_nil

/-- The key was drawn for the definition, and the owner is its. -/
def Names.Puts (names : Names) (owner_id id : Uuid) (d : Definition) : Prop :=
  names.key id = d.key ∧ d.key.owner_id = owner_id ∧ d.Wf

/-- The key was drawn for the provider, and the owner is its. -/
def Names.Provides (names : Names) (owner_id id service_id : Uuid) (provider : AuthProvider) : Prop :=
  names.provider id = (owner_id, provider.slug) ∧ provider.owner_id = owner_id ∧
    names.key service_id = .service owner_id provider.service_slug

/-- The write is one for this owner. -/
def Write.Of (names : Names) (owner_id : Uuid) : Write → Prop
  | create_service s id => names.Puts owner_id id (.service s)
  | update_service s id => names.Puts owner_id id (.service s)
  | delete_service id => (names.key id).owner_id = owner_id
  | create_auth_provider provider id service_id => names.Provides owner_id id service_id provider
  | update_auth_provider provider id service_id => names.Provides owner_id id service_id provider
  | delete_auth_provider id => (names.provider id).1 = owner_id
  | create_api_call _ call tags id service_id =>
    names.Puts owner_id id (.api_call ⟨call, tags⟩) ∧ names.key service_id = .service owner_id call.service_slug
  | update_api_call _ call tags id service_id =>
    names.Puts owner_id id (.api_call ⟨call, tags⟩) ∧ names.key service_id = .service owner_id call.service_slug
  | delete_api_call id => (names.key id).owner_id = owner_id
  | create_script _ s tags id => names.Puts owner_id id (.script ⟨s, tags⟩)
  | update_script _ s tags id => names.Puts owner_id id (.script ⟨s, tags⟩)
  | delete_script id => (names.key id).owner_id = owner_id
  | create_endpoint e id => names.Puts owner_id id (.endpoint e)
  | update_endpoint e id => names.Puts owner_id id (.endpoint e)
  | delete_endpoint id => (names.key id).owner_id = owner_id

/-! A method decides on a write for its owner, even if the rows change between
its reads. -/

section

variable {names : Names} {owner_id id : Uuid} {slug : Slug}

namespace service

theorem key_of_id_by_slug (h : Query.Yields (Sound names) (id_by_slug owner_id slug) id) :
    names.key id = .service owner_id slug := by
  simp only [id_by_slug, Query.yields_bind, select, Query.yields_select, yields_ok_or, Option.map_eq_some_iff] at h
  obtain ⟨_, ⟨rows, hsound, hfind⟩, row, rfl, rfl⟩ := h
  obtain ⟨hrow, rfl, rfl⟩ := find_by_slug.mp hfind
  exact (hsound.proper.services row hrow).1

theorem decides_update {service : Service} {write : Write}
    (h : Query.Yields (Sound names) (update service) write) :
    ∃ id, write = .update_service service id ∧ names.key id = .service service.owner_id service.slug := by
  simp only [update, Query.yields_bind, Query.yields_pure] at h
  obtain ⟨id, hid, rfl⟩ := h
  exact ⟨id, rfl, key_of_id_by_slug hid⟩

theorem decides_delete {write : Write} (h : Query.Yields (Sound names) (remove owner_id slug) write) :
    ∃ id, write = .delete_service id ∧ names.key id = .service owner_id slug := by
  simp only [remove, Query.yields_bind, Query.yields_pure] at h
  obtain ⟨id, hid, rfl⟩ := h
  exact ⟨id, rfl, key_of_id_by_slug hid⟩

end service

namespace api_call

theorem key_of_id_by_slug {service_slug : Slug} (h : Query.Yields (Sound names) (id_by_slug owner_id service_slug slug) id) :
    names.key id = .api_call owner_id slug := by
  simp only [id_by_slug, Query.yields_bind, select, Query.yields_select, yields_ok_or, Option.map_eq_some_iff] at h
  obtain ⟨_, _, _, ⟨rows, hsound, hfind⟩, row, rfl, rfl⟩ := h
  obtain ⟨hrow, rfl, _, rfl⟩ := find_on_service.mp hfind
  exact (hsound.proper.api_calls row hrow).1

theorem decides_create {tag_id : Tag → Uuid} {call : ApiCall} {tags : BTreeSet Tag} {write : Write}
    (h : Query.Yields (Sound names) (create tag_id call tags id) write) :
    ∃ service_id, write = .create_api_call tag_id call tags id service_id ∧
      names.key service_id = .service call.owner_id call.service_slug := by
  rw [create, Query.yields_bind] at h
  obtain ⟨_, _, h⟩ := h
  obtain ⟨_, h⟩ := yields_unless h
  rw [Query.yields_bind] at h
  obtain ⟨service_id, hservice, h⟩ := h
  exact ⟨service_id, (Query.yields_pure.mp h).symm, service.key_of_id_by_slug hservice⟩

theorem decides_update {tag_id : Tag → Uuid} {call : ApiCall} {tags : BTreeSet Tag} {write : Write}
    (h : Query.Yields (Sound names) (update tag_id call tags) write) :
    ∃ id service_id, write = .update_api_call tag_id call tags id service_id ∧
      names.key id = .api_call call.owner_id call.slug ∧
      names.key service_id = .service call.owner_id call.service_slug := by
  simp only [update, Query.yields_bind, Query.yields_pure] at h
  obtain ⟨id, hid, service_id, hservice, rfl⟩ := h
  exact ⟨id, service_id, rfl, key_of_id_by_slug hid, service.key_of_id_by_slug hservice⟩

theorem decides_delete {service_slug : Slug} {write : Write}
    (h : Query.Yields (Sound names) (remove owner_id service_slug slug) write) :
    ∃ id, write = .delete_api_call id ∧ names.key id = .api_call owner_id slug := by
  simp only [remove, Query.yields_bind, Query.yields_pure] at h
  obtain ⟨id, hid, rfl⟩ := h
  exact ⟨id, rfl, key_of_id_by_slug hid⟩

end api_call

namespace script

theorem key_of_id_by_slug (h : Query.Yields (Sound names) (id_by_slug owner_id slug) id) :
    names.key id = .script owner_id slug := by
  simp only [id_by_slug, Query.yields_bind, select, Query.yields_select, yields_ok_or, Option.map_eq_some_iff] at h
  obtain ⟨_, ⟨rows, hsound, hfind⟩, row, rfl, rfl⟩ := h
  obtain ⟨hrow, rfl, rfl⟩ := find_by_slug.mp hfind
  exact (hsound.proper.scripts row hrow).1

theorem decides_update {tag_id : Tag → Uuid} {script : ScriptDef} {tags : BTreeSet Tag} {write : Write}
    (h : Query.Yields (Sound names) (update tag_id script tags) write) :
    ∃ id, write = .update_script tag_id script tags id ∧ names.key id = .script script.owner_id script.slug := by
  simp only [update, Query.yields_bind, Query.yields_pure] at h
  obtain ⟨id, hid, rfl⟩ := h
  exact ⟨id, rfl, key_of_id_by_slug hid⟩

theorem decides_delete {write : Write} (h : Query.Yields (Sound names) (remove owner_id slug) write) :
    ∃ id, write = .delete_script id ∧ names.key id = .script owner_id slug := by
  simp only [remove, Query.yields_bind, Query.yields_pure] at h
  obtain ⟨id, hid, rfl⟩ := h
  exact ⟨id, rfl, key_of_id_by_slug hid⟩

end script

namespace endpoint

theorem key_of_id_by_slug (h : Query.Yields (Sound names) (id_by_slug owner_id slug) id) :
    names.key id = .endpoint owner_id slug := by
  simp only [id_by_slug, Query.yields_bind, select, Query.yields_select, yields_ok_or, Option.map_eq_some_iff] at h
  obtain ⟨_, ⟨rows, hsound, hfind⟩, row, rfl, rfl⟩ := h
  obtain ⟨hrow, rfl, rfl⟩ := find_by_slug.mp hfind
  exact hsound.proper.endpoints row hrow

theorem decides_update {endpoint : EndpointDef} {write : Write}
    (h : Query.Yields (Sound names) (update endpoint) write) :
    ∃ id, write = .update_endpoint endpoint id ∧ names.key id = .endpoint endpoint.owner_id endpoint.slug := by
  simp only [update, Query.yields_bind, Query.yields_pure] at h
  obtain ⟨id, hid, rfl⟩ := h
  exact ⟨id, rfl, key_of_id_by_slug hid⟩

theorem decides_delete {write : Write} (h : Query.Yields (Sound names) (remove owner_id slug) write) :
    ∃ id, write = .delete_endpoint id ∧ names.key id = .endpoint owner_id slug := by
  simp only [remove, Query.yields_bind, Query.yields_pure] at h
  obtain ⟨id, hid, rfl⟩ := h
  exact ⟨id, rfl, key_of_id_by_slug hid⟩

end endpoint

namespace auth_provider

theorem provider_of_id_by_slug {service_slug : Slug}
    (h : Query.Yields (Sound names) (id_by_slug owner_id service_slug slug) id) : names.provider id = (owner_id, slug) := by
  simp only [id_by_slug, Query.yields_bind, select, Query.yields_select, yields_ok_or, Option.map_eq_some_iff] at h
  obtain ⟨_, _, _, ⟨rows, hsound, hfind⟩, row, rfl, rfl⟩ := h
  obtain ⟨hrow, hkey⟩ := Table.mem_of_find hfind
  simp only [Bool.and_eq_true, decide_eq_true_eq] at hkey
  obtain ⟨⟨rfl, _⟩, rfl⟩ := hkey
  exact (hsound.proper.auth_providers row hrow).1

theorem decides_create {provider : AuthProvider} {write : Write}
    (h : Query.Yields (Sound names) (create provider id) write) :
    ∃ service_id, write = .create_auth_provider provider id service_id ∧
      names.key service_id = .service provider.owner_id provider.service_slug := by
  rw [create, Query.yields_bind] at h
  obtain ⟨service_id, hservice, h⟩ := h
  rw [Query.yields_bind] at h
  obtain ⟨_, _, h⟩ := h
  obtain ⟨_, h⟩ := yields_unless h
  rw [Query.yields_bind] at h
  obtain ⟨_, _, h⟩ := h
  obtain ⟨_, h⟩ := yields_unless h
  exact ⟨service_id, (Query.yields_pure.mp h).symm, service.key_of_id_by_slug hservice⟩

theorem decides_update {provider : AuthProvider} {write : Write}
    (h : Query.Yields (Sound names) (update provider) write) :
    ∃ id service_id, write = .update_auth_provider provider id service_id ∧
      names.provider id = (provider.owner_id, provider.slug) ∧
      names.key service_id = .service provider.owner_id provider.service_slug := by
  simp only [update, Query.yields_bind, Query.yields_pure] at h
  obtain ⟨service_id, hservice, id, hid, rfl⟩ := h
  exact ⟨id, service_id, rfl, provider_of_id_by_slug hid, service.key_of_id_by_slug hservice⟩

theorem decides_delete {service_slug : Slug} {write : Write}
    (h : Query.Yields (Sound names) (remove owner_id service_slug slug) write) :
    ∃ id, write = .delete_auth_provider id ∧ names.provider id = (owner_id, slug) := by
  simp only [remove, Query.yields_bind, Query.yields_pure] at h
  obtain ⟨id, hid, rfl⟩ := h
  exact ⟨id, rfl, provider_of_id_by_slug hid⟩

end auth_provider

theorem Method.decides {m : Method} {write : Write} (hwf : m.Wf) (hnames : m.DrawnFor names)
    (h : Query.Yields (Sound names) m.decide write) : write.Of names m.owner_id := by
  cases m with
  | create tag_id id d =>
    cases d with
    | service s =>
      rw [service.create_yields h]
      exact ⟨hnames, rfl, hwf⟩
    | api_call t =>
      obtain ⟨service_id, rfl, hservice⟩ := api_call.decides_create h
      exact ⟨⟨hnames, rfl, hwf⟩, hservice⟩
    | script t =>
      rw [script.create_yields h]
      exact ⟨hnames, rfl, hwf⟩
    | endpoint e =>
      rw [endpoint.create_yields h]
      exact ⟨hnames, rfl, hwf⟩
  | update tag_id d =>
    cases d with
    | service s =>
      obtain ⟨id, rfl, hid⟩ := service.decides_update h
      exact ⟨hid, rfl, hwf⟩
    | api_call t =>
      obtain ⟨id, service_id, rfl, hid, hservice⟩ := api_call.decides_update h
      exact ⟨⟨hid, rfl, hwf⟩, hservice⟩
    | script t =>
      obtain ⟨id, rfl, hid⟩ := script.decides_update h
      exact ⟨hid, rfl, hwf⟩
    | endpoint e =>
      obtain ⟨id, rfl, hid⟩ := endpoint.decides_update h
      exact ⟨hid, rfl, hwf⟩
  | delete_service owner_id slug =>
    obtain ⟨id, rfl, hid⟩ := service.decides_delete h
    exact congrArg Key.owner_id hid
  | delete_api_call owner_id service_slug slug =>
    obtain ⟨id, rfl, hid⟩ := api_call.decides_delete h
    exact congrArg Key.owner_id hid
  | delete_script owner_id slug =>
    obtain ⟨id, rfl, hid⟩ := script.decides_delete h
    exact congrArg Key.owner_id hid
  | delete_endpoint owner_id slug =>
    obtain ⟨id, rfl, hid⟩ := endpoint.decides_delete h
    exact congrArg Key.owner_id hid
  | create_auth_provider provider id =>
    obtain ⟨service_id, rfl, hservice⟩ := auth_provider.decides_create h
    exact ⟨hnames, rfl, hservice⟩
  | update_auth_provider provider =>
    obtain ⟨id, service_id, rfl, hid, hservice⟩ := auth_provider.decides_update h
    exact ⟨hid, rfl, hservice⟩
  | delete_auth_provider owner_id service_slug slug =>
    obtain ⟨id, rfl, hid⟩ := auth_provider.decides_delete h
    exact congrArg Prod.fst hid

end

/-! What a write for an owner leaves in its place. -/

theorem as_i32_lt (v : Nat) : as_i32 v < 2 ^ 31 := BitVec.toInt_lt

theorem as_i32_toNat_lt (v : Nat) : (as_i32 v).toNat < 2 ^ 31 := by
  have := as_i32_lt v
  omega

theorem as_i64_toNat_lt (v : Nat) : (as_i64 v).toNat < 2 ^ 63 := by
  have : as_i64 v < 2 ^ 63 := BitVec.toInt_lt
  omega

/-- Whatever a script's budgets are, its columns hold what is left of them. -/
theorem script.fitsColumns (s : ScriptDef) (id : Uuid) :
    FitsColumns (script.to_model (script.to_active_model s id) [] []).budgets := by
  have hmap : ∀ {o : Option Nat} {f : Nat → Int} {n : Nat}, (∀ v, (f v).toNat < n) →
      ∀ v, (o.map f).map Int.toNat = some v → v < n := by
    intro o f n hf v hv
    rw [Option.map_map] at hv
    obtain ⟨w, _, rfl⟩ := Option.map_eq_some_iff.mp hv
    exact hf w
  refine ⟨hmap as_i32_toNat_lt, hmap as_i64_toNat_lt, fun d hd => ?_, hmap as_i32_toNat_lt, hmap as_i32_toNat_lt⟩
  simp only [to_model, to_active_model, Option.map_map, Option.map_eq_some_iff, Function.comp_apply] at hd
  obtain ⟨w, _, rfl⟩ := hd
  have hclock : min (w / 1000) (2 ^ 31 - 1) < 2 ^ 31 := by omega
  rw [Int.toNat_natCast, Nat.mul_div_cancel _ (by decide)]
  exact ⟨Nat.mul_mod_left _ _, hclock⟩

section

variable {names : Names} {owner_id : Uuid} {rows rows' : Rows}

namespace api_call

theorem param_row_checked {p : Param} {id : Uuid} {r : api_call_params.Model} (h : param_to_active_model p id = .ok r)
    (hfixed : (r.fixed_value.isNone || !r.required) = true) :
    r.location ≠ .Local ∧ (r.fixed_value = none ∨ r.required = false) := by
  unfold param_to_active_model at h
  split at h
  · cases h
  · rename_i hlocal
    cases h
    exact ⟨hlocal, by simpa using hfixed⟩

theorem proper_of_parts {tag_id : Tag → Uuid} {id : Uuid} {params : List Param} {tags : BTreeSet Tag} {mid : Rows}
    (h : Proper names rows) (hparams : replace_params id params rows = .ok mid)
    (htags : tag.set_api_call_tags tag_id id tags mid = .ok rows') : Proper names rows' := by
  rw [tag.set_api_call_tags_footprint htags]
  simp only [replace_params, bind_eq_ok, pure_eq_ok] at hparams
  obtain ⟨table, htable, rfl⟩ := hparams
  refine { h with api_call_params := (h.api_call_params.delete _).foldlM htable fun p _ t t' hstep => ?_ }
  simp only [bind_eq_ok, db_err_eq_ok, require_eq_ok] at hstep
  obtain ⟨row, hrow, _, hfixed, hinsert⟩ := hstep
  exact ⟨row, param_row_checked hrow hfixed, hinsert⟩

theorem proper_of_delete {p : api_calls.Model → Bool} (h : Proper names rows) : Proper names (delete p rows) :=
  { h with
    api_calls := h.api_calls.delete _
    api_call_params := h.api_call_params.delete _
    script_api_calls := h.script_api_calls.delete _ }

end api_call

namespace script

theorem proper_of_parts {tag_id : Tag → Uuid} {id : Uuid} {script : ScriptDef} {tags : BTreeSet Tag}
    {first second : Rows} (h : Proper names rows) (howner : (names.key id).owner_id = script.owner_id)
    (hparams : replace_params id script.params rows = .ok first)
    (hcallable : replace_callable script.owner_id id script.callable first = .ok second)
    (htags : tag.set_script_tags tag_id id tags second = .ok rows') : Proper names rows' := by
  rw [tag.set_script_tags_footprint htags]
  rw [replace_params_footprint hparams] at hcallable
  simp only [replace_callable, bind_eq_ok, pure_eq_ok] at hcallable
  obtain ⟨table, htable, rfl⟩ := hcallable
  refine { h with script_api_calls := (h.script_api_calls.delete _).foldlM htable fun kv _ t t' hstep => ?_ }
  simp only [bind_eq_ok, db_err_eq_ok] at hstep
  obtain ⟨call_id, hcall, hinsert⟩ := hstep
  obtain ⟨c, hc, hcowner, _, rfl⟩ := api_call_id_eq_ok hcall
  refine ⟨_, ?_, hinsert⟩
  rw [howner, (h.api_calls c hc).1]
  exact hcowner.symm

end script

namespace endpoint

theorem proper_of_parts {e : EndpointDef} {id : Uuid} {mid : Rows} (h : Proper names rows)
    (howner : (names.key id).owner_id = e.owner_id) (haliases : replace_aliases id e.aliases rows = .ok mid)
    (hscope : replace_auth_providers e.owner_id id e.auth_providers mid = .ok rows') : Proper names rows' := by
  rw [replace_aliases_footprint haliases] at hscope
  simp only [replace_auth_providers, bind_eq_ok, pure_eq_ok] at hscope
  obtain ⟨table, htable, rfl⟩ := hscope
  refine { h with
    endpoint_auth_providers := (h.endpoint_auth_providers.delete _).foldlM htable fun slug _ t t' hstep => ?_ }
  simp only [bind_eq_ok, db_err_eq_ok] at hstep
  obtain ⟨provider_id, hprovider, hinsert⟩ := hstep
  obtain ⟨p, hp, hpowner, _, rfl⟩ := auth_provider_id_eq_ok hprovider
  refine ⟨_, ?_, hinsert⟩
  rw [howner, (h.auth_providers p hp).1]
  exact hpowner.symm

end endpoint

namespace auth_provider

theorem proper_of_delete {p : auth_providers.Model → Bool} (h : Proper names rows) : Proper names (delete p rows) :=
  { h with
    auth_providers := h.auth_providers.delete _
    endpoint_auth_providers := h.endpoint_auth_providers.delete _ }

theorem Provides.row {provider : AuthProvider} {id service_id : Uuid}
    (h : names.Provides owner_id id service_id provider) :
    names.provider id = (provider.owner_id, provider.slug) ∧ (names.key service_id).owner_id = provider.owner_id := by
  obtain ⟨hprovider, rfl, hservice⟩ := h
  exact ⟨hprovider, congrArg Key.owner_id hservice⟩

end auth_provider

theorem Proper.apply {write : Write} (h : Proper names rows) (hof : write.Of names owner_id)
    (happly : write.apply rows = .ok rows') : Proper names rows' := by
  cases write with
  | create_service s id =>
    simp only [Write.apply, service.insert, bind_eq_ok, db_err_eq_ok, pure_eq_ok] at happly
    obtain ⟨table, hinsert, rfl⟩ := happly
    exact { h with services := h.services.insert hinsert ⟨hof.1, as_i32_lt _⟩ }
  | update_service s id =>
    simp only [Write.apply, service.set, bind_eq_ok, db_err_eq_ok, pure_eq_ok] at happly
    obtain ⟨_, _, table, hmodify, rfl⟩ := happly
    exact { h with services := h.services.modify hmodify fun _ => ⟨hof.1, as_i32_lt _⟩ }
  | delete_service id =>
    cases happly
    exact api_call.proper_of_delete (auth_provider.proper_of_delete { h with services := h.services.delete _ })
  | create_auth_provider p id service_id =>
    simp only [Write.apply, auth_provider.insert, bind_eq_ok, db_err_eq_ok, pure_eq_ok] at happly
    obtain ⟨_, _, table, hinsert, rfl⟩ := happly
    exact { h with auth_providers := h.auth_providers.insert hinsert (auth_provider.Provides.row hof) }
  | update_auth_provider p id service_id =>
    simp only [Write.apply, auth_provider.set, bind_eq_ok, db_err_eq_ok, pure_eq_ok] at happly
    obtain ⟨_, _, _, _, table, hmodify, rfl⟩ := happly
    exact { h with auth_providers := h.auth_providers.modify hmodify fun _ => auth_provider.Provides.row hof }
  | delete_auth_provider id =>
    cases happly
    exact auth_provider.proper_of_delete h
  | create_api_call tag_id c tags id service_id =>
    simp only [Write.apply, api_call.insert, bind_eq_ok, db_err_eq_ok, require_eq_ok] at happly
    obtain ⟨_, _, _, hmethod, table, hinsert, mid, hparams, htags⟩ := happly
    obtain ⟨⟨hkey, rfl, _⟩, hservice⟩ := hof
    refine api_call.proper_of_parts ?_ hparams htags
    exact { h with api_calls := h.api_calls.insert hinsert ⟨hkey, congrArg Key.owner_id hservice, hmethod⟩ }
  | update_api_call tag_id c tags id service_id =>
    simp only [Write.apply, api_call.set, bind_eq_ok, db_err_eq_ok, require_eq_ok] at happly
    obtain ⟨_, _, _, _, _, hmethod, table, hmodify, mid, hparams, htags⟩ := happly
    obtain ⟨⟨hkey, rfl, _⟩, hservice⟩ := hof
    refine api_call.proper_of_parts ?_ hparams htags
    exact { h with
      api_calls := h.api_calls.modify hmodify fun _ => ⟨hkey, congrArg Key.owner_id hservice, hmethod⟩ }
  | delete_api_call id =>
    cases happly
    exact api_call.proper_of_delete h
  | create_script tag_id s tags id =>
    simp only [Write.apply, script.insert, bind_eq_ok, db_err_eq_ok] at happly
    obtain ⟨table, hinsert, first, hparams, second, hcallable, htags⟩ := happly
    refine script.proper_of_parts ?_ (congrArg Key.owner_id hof.1) hparams hcallable htags
    exact { h with scripts := h.scripts.insert hinsert ⟨hof.1, script.fitsColumns s id⟩ }
  | update_script tag_id s tags id =>
    simp only [Write.apply, script.set, bind_eq_ok, db_err_eq_ok] at happly
    obtain ⟨_, _, table, hmodify, first, hparams, second, hcallable, htags⟩ := happly
    refine script.proper_of_parts ?_ (congrArg Key.owner_id hof.1) hparams hcallable htags
    exact { h with scripts := h.scripts.modify hmodify fun _ => ⟨hof.1, script.fitsColumns s id⟩ }
  | delete_script id =>
    cases happly
    exact { h with
      scripts := h.scripts.delete _
      script_api_calls := h.script_api_calls.delete _ }
  | create_endpoint e id =>
    simp only [Write.apply, endpoint.insert, bind_eq_ok, db_err_eq_ok] at happly
    obtain ⟨table, hinsert, mid, haliases, hscope⟩ := happly
    refine endpoint.proper_of_parts ?_ (congrArg Key.owner_id hof.1) haliases hscope
    exact { h with endpoints := h.endpoints.insert hinsert hof.1 }
  | update_endpoint e id =>
    simp only [Write.apply, endpoint.set, bind_eq_ok, db_err_eq_ok] at happly
    obtain ⟨_, _, table, hmodify, mid, haliases, hscope⟩ := happly
    refine endpoint.proper_of_parts ?_ (congrArg Key.owner_id hof.1) haliases hscope
    exact { h with endpoints := h.endpoints.modify hmodify fun _ => hof.1 }
  | delete_endpoint id =>
    cases happly
    exact { h with
      endpoints := h.endpoints.delete _
      endpoint_auth_providers := h.endpoint_auth_providers.delete _ }

theorem Sound.apply {write : Write} (h : Sound names rows) (hof : write.Of names owner_id)
    (happly : write.apply rows = .ok rows') : Sound names rows' :=
  { h.toIntact.apply happly with proper := h.proper.apply hof happly }

end

/-! What sound rows say of the definitions they hold. -/

theorem Holds.wf {rows : Rows} {d : Definition} (hd : Holds rows d) : d.Wf := by
  cases d with
  | service s => trivial
  | api_call t =>
    obtain ⟨row, _, s, _, _, rfl⟩ := hd
    exact BTreeSet.sorted_collect _
  | script t =>
    obtain ⟨row, _, callable, hcallable, rfl⟩ := hd
    obtain ⟨pairs, rfl, _⟩ := script.yields_load_callable.mp hcallable
    exact ⟨BTreeSet.sorted_collect _, BTreeMap.sorted_collect _⟩
  | endpoint e =>
    obtain ⟨row, _, providers, hproviders, rfl⟩ := hd
    obtain ⟨slugs, rfl, _⟩ := endpoint.yields_load_auth_providers.mp hproviders
    exact ⟨BTreeMap.sorted_collect _, BTreeSet.sorted_collect _⟩

namespace Sound

variable {names : Names} {rows : Rows}

/-- The tables take back what they hold. -/
theorem fits (h : Sound names rows) {d : Definition} (hd : Holds rows d) : d.Fits := by
  have hparams : ∀ {ρ : Type} {u : Indexes ρ} {t : Table u} {p : ρ → Bool} (position : ρ → Int) (read : ρ → Param),
      (∀ a b, p a = true → p b = true → u.clash a b = false →
        (read a).name ≠ (read b).name ∧ (read a).position ≠ (read b).position) →
      (((t.select p).insertionSort fun a b => position a ≤ position b).map read).Pairwise fun p q =>
        p.name ≠ q.name ∧ p.position ≠ q.position := by
    intro ρ u t p position read hread
    refine List.pairwise_map.mpr ((t.pairwise_sorted p _).imp_of_mem fun {a b} ha hb hclash => ?_)
    have hsel : ∀ {r}, r ∈ (t.select p).insertionSort (fun a b => position a ≤ position b) → p r = true := fun hr =>
      (Table.mem_select.mp ((List.perm_insertionSort _ _).mem_iff.mp hr)).2
    exact hread a b (hsel ha) (hsel hb) hclash
  cases d with
  | service s => trivial
  | api_call t =>
    obtain ⟨row, hrow, s, hs, hid, rfl⟩ := hd
    refine ⟨(h.proper.api_calls row hrow).2.2, fun p hp => ?_, ?_⟩
    · obtain ⟨r, hr, rfl⟩ := List.mem_map.mp hp
      have hr := (Table.mem_select.mp ((List.perm_insertionSort _ _).mem_iff.mp hr)).1
      exact h.proper.api_call_params r hr
    · refine hparams (·.position) api_call.param_to_model fun a b ha hb hclash => ?_
      simp only [decide_eq_true_eq] at ha hb
      simpa [api_call_params.indexes, Indexes.or, Indexes.on, ha, hb, api_call.param_to_model] using hclash
  | script t =>
    obtain ⟨row, hrow, callable, _, rfl⟩ := hd
    refine ⟨fun p hp => ?_, ?_⟩
    · obtain ⟨r, _, rfl⟩ := List.mem_map.mp hp
      rfl
    · refine hparams (·.position) script.param_to_model fun a b ha hb hclash => ?_
      simp only [decide_eq_true_eq] at ha hb
      simpa [script_params.indexes, Indexes.or, Indexes.on, ha, hb, script.param_to_model] using hclash
  | endpoint e =>
    obtain ⟨row, hrow, providers, _, rfl⟩ := hd
    have hsorted : BTreeMap.Sorted (endpoint.aliases_of rows row.id) := BTreeMap.sorted_collect _
    have hrow : ∀ kv ∈ endpoint.aliases_of rows row.id, ∃ r ∈ rows.endpoint_aliases.rows,
        r.endpoint_id = row.id ∧ (r.alias_name, r.target) = kv := by
      intro kv hkv
      obtain ⟨r, hr, rfl⟩ := List.mem_map.mp (BTreeMap.mem_of_mem_collect hkv)
      obtain ⟨hr, hid⟩ := Table.mem_select.mp hr
      exact ⟨r, hr, of_decide_eq_true hid, rfl⟩
    refine hsorted.apart.imp_of_mem fun {kv kv'} hkv hkv' hname htarget => hname ?_
    obtain ⟨r, hr, hid, rfl⟩ := hrow kv hkv
    obtain ⟨r', hr', hid', rfl⟩ := hrow kv' hkv'
    have htarget : r.target = r'.target := htarget
    rw [Table.eq_of_clash hr hr' (by simp [endpoint_aliases.indexes, Indexes.or, Indexes.on, hid, hid', htarget])]

/-- Nothing of what is held is lost when it is stored again. -/
theorem kept (h : Sound names rows) {d : Definition} (hd : Holds rows d) : d.Kept := by
  have hnone : ∀ text, api_call.description_of text ≠ some "" := by
    intro text
    unfold api_call.description_of
    split
    · rintro ⟨⟩
    · rename_i htext
      exact fun heq => htext (Option.some.inj heq)
  have hparams : ∀ {ρ : Type} {rs : List ρ} {position : ρ → Int} (read : ρ → Param),
      (∀ r, (read r).position = position r) →
      ((rs.insertionSort fun a b => position a ≤ position b).map read).Pairwise fun p q => p.position ≤ q.position := by
    intro ρ rs position read hread
    have htotal : Std.Total fun a b : ρ => position a ≤ position b := ⟨fun a b => le_total _ _⟩
    have htrans : IsTrans ρ fun a b => position a ≤ position b := ⟨fun _ _ _ => le_trans⟩
    refine List.pairwise_map.mpr ((List.pairwise_insertionSort _ rs).imp fun {a b} hle => ?_)
    rwa [hread, hread]
  cases d with
  | service s =>
    obtain ⟨row, hrow, rfl⟩ := hd
    intro v hv
    have hlt := (h.proper.services row hrow).2
    simp only [service.to_model] at hv
    split at hv
    · cases hv
    · obtain rfl := Option.some.inj hv
      omega
  | api_call t =>
    obtain ⟨row, _, s, _, _, rfl⟩ := hd
    refine ⟨hparams api_call.param_to_model fun _ => rfl, fun p hp => ?_, hnone _⟩
    obtain ⟨r, _, rfl⟩ := List.mem_map.mp hp
    exact hnone _
  | script t =>
    obtain ⟨row, hrow, callable, _, rfl⟩ := hd
    refine ⟨hparams script.param_to_model fun _ => rfl, fun p hp => ?_, (h.proper.scripts row hrow).2⟩
    obtain ⟨r, _, rfl⟩ := List.mem_map.mp hp
    exact ⟨rfl, rfl, hnone _⟩
  | endpoint e =>
    obtain ⟨row, _, providers, _, rfl⟩ := hd
    intro d hd
    simp only [endpoint.to_model, endpoint.json_to_budgets, Option.map_eq_some_iff] at hd
    obtain ⟨ms, _, rfl⟩ := hd
    exact Nat.mul_mod_left _ _

/-- Whatever a definition names is there, of the same owner. -/
theorem linked (h : Sound names rows) {d : Definition} (hd : Holds rows d) {key : Key} (hkey : key ∈ d.refs) :
    Has rows key := by
  cases d with
  | service s => cases hkey
  | api_call t =>
    obtain ⟨row, hrow, s, hs, hid, rfl⟩ := hd
    obtain rfl := List.mem_singleton.mp hkey
    have howner := (h.proper.api_calls row hrow).2.1
    rw [← hid, (h.proper.services s hs).1] at howner
    exact has_service_iff.mpr ⟨s, hs, howner, rfl⟩
  | script t =>
    obtain ⟨row, hrow, callable, hcallable, rfl⟩ := hd
    obtain ⟨pairs, rfl, hpairs⟩ := script.yields_load_callable.mp hcallable
    obtain ⟨kv, hkv, rfl⟩ := List.mem_map.mp hkey
    obtain ⟨r, hr, _, c, hc, hid, hslug⟩ := pointwise.exists_left hpairs (BTreeMap.mem_of_mem_collect hkv)
    obtain ⟨hr, hscript⟩ := Table.mem_select.mp hr
    have howner : (names.key r.script_id).owner_id = (names.key r.api_call_id).owner_id :=
      h.proper.script_api_calls r hr
    rw [of_decide_eq_true hscript, ← hid, (h.proper.scripts row hrow).1, (h.proper.api_calls c hc).1] at howner
    exact (has_api_call_iff h.toIntact).mpr ⟨c, hc, howner.symm, hslug⟩
  | endpoint e => cases hkey

/-- A definition that is held is found under its name. -/
theorem get (h : Sound names rows) {d : Definition} (hd : Holds rows d) :
    Query.Yields (· = rows) d.get (some d) := by
  refine Definition.yields_get_iff.mpr ⟨hd, rfl, ?_⟩
  cases d with
  | api_call t =>
    obtain ⟨row, hrow, s, hs, hid, rfl⟩ := hd
    intro c hc howner hslug
    have hsame : c = row := Table.eq_of_clash hc hrow (api_call.clash_of_key (Prod.ext howner hslug))
    have hsowner := (h.proper.api_calls row hrow).2.1
    rw [← hid, (h.proper.services s hs).1] at hsowner
    exact ⟨s, hs, hsame ▸ hid, hsowner, rfl⟩
  | _ => trivial

end Sound

end api2mcp.store
