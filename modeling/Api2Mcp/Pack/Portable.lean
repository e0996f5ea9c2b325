import Api2Mcp.Pack.Export
import Api2Mcp.Pack.Importable
import Api2Mcp.Store.Isolation

namespace api2mcp.model

open btree

/-! The origins of a set, by their texts. -/

/-- `BTreeSet<Origin>::from_iter`. -/
def Origin.collect (origins : List Origin) : List Origin := origins.foldl (fun set o => Origin.insert o set) []

namespace Origin

theorem texts_of_insert (origin : Origin) (set : List Origin) :
    (Origin.insert origin set).map ascii_serialization =
      BTreeSet.insert origin.ascii_serialization (set.map ascii_serialization) := by
  induction set with
  | nil => rfl
  | cons o rest ih =>
    rw [Origin.insert, List.map_cons, BTreeSet.insert]
    split
    · rfl
    split
    · rfl
    · rw [List.map_cons, ih]

theorem texts_of_collect (origins : List Origin) :
    (collect origins).map ascii_serialization = BTreeSet.collect (origins.map ascii_serialization) := by
  have hfold : ∀ set : List Origin, (origins.foldl (fun set o => Origin.insert o set) set).map ascii_serialization =
      (origins.map ascii_serialization).foldl (fun set key => BTreeSet.insert key set) (set.map ascii_serialization) := by
    induction origins with
    | nil => exact fun _ => rfl
    | cons o rest ih =>
      intro set
      rw [List.foldl_cons, ih, texts_of_insert, List.map_cons, List.foldl_cons]
  exact hfold []

theorem mem_of_mem_collect {origins : List Origin} {o : Origin} (h : o ∈ collect origins) : o ∈ origins := by
  have hinsert : ∀ (x : Origin) (set : List Origin), o ∈ Origin.insert x set → o = x ∨ o ∈ set := by
    intro x set
    induction set with
    | nil => exact fun h => .inl (List.mem_singleton.mp h)
    | cons y rest ih =>
      rw [Origin.insert]
      split
      · exact List.mem_cons.mp
      split
      · exact .inr
      · intro h
        obtain rfl | h := List.mem_cons.mp h
        · exact .inr List.mem_cons_self
        · exact (ih h).imp_right (List.mem_cons_of_mem y)
  have hfold : ∀ (xs set : List Origin), o ∈ xs.foldl (fun set o => Origin.insert o set) set → o ∈ set ∨ o ∈ xs := by
    intro xs
    induction xs with
    | nil => exact fun _ h => .inl h
    | cons x xs ih =>
      intro set h
      obtain h | h := ih _ h
      · obtain rfl | h := hinsert x set h
        · exact .inr List.mem_cons_self
        · exact .inl h
      · exact .inr (List.mem_cons_of_mem x h)
  exact (hfold origins [] h).resolve_left List.not_mem_nil

end Origin

end api2mcp.model

namespace api2mcp.pack

open relational btree concurrent except jsonptr
open api2mcp.model api2mcp.store api2mcp.entity

/-! What was made of a definition for a pack is read back as the definition. -/

theorem parse_slug_as_str (slug : Slug) : parse_slug slug.as_str = .ok slug :=
  mapError_eq_ok.mpr (Slug.from_str_as_str slug)

theorem access_from_to (access : Access) : access_from_str (access_to_str access) = .ok access := by
  cases access <;> rfl

theorem param_type_from_to (ty : ParamType) : param_type_from_str (param_type_to_str ty) = .ok ty := by
  cases ty <;> rfl

theorem method_from_as_str {method : net.Method} (h : store.api_call.ck_method method = true) :
    method_from_str method.as_str = .ok method := by
  cases method with
  | GET | POST | PUT | PATCH | DELETE => rfl
  | _ => cases h

theorem cardinality_from_to (cardinality : Cardinality) : cardinality_from_pack (cardinality_to_pack cardinality) = cardinality := by
  cases cardinality <;> rfl

theorem budgets_from_to {budgets : Budgets} (h : ∀ d, budgets.wall_clock = some d → d % 1000 = 0) :
    budgets_from_pack (budgets_to_pack budgets) = budgets := by
  obtain ⟨_, _, wall_clock, _, _⟩ := budgets
  simp only [budgets_from_pack, budgets_to_pack, Budgets.mk.injEq, true_and, and_true, Option.map_map]
  exact map_eq_self.mpr fun d hd => Nat.div_mul_cancel (Nat.dvd_of_mod_eq_zero (h d hd))

theorem projection_from_to (projection : Projection) : projection_from_pack (projection_to_pack projection) = .ok projection := by
  have hfield : ∀ f : ProjectionField, projection_field_from_pack
      ⟨f.name, f.path, cardinality_to_pack f.cardinality, f.coerce.map param_type_to_str⟩ = .ok f := by
    intro f
    have hcoerce : (f.coerce.map param_type_to_str).mapM param_type_from_str = .ok f.coerce := by
      cases f.coerce with
      | none => rfl
      | some ty => cases ty <;> rfl
    simp only [projection_field_from_pack, bind_eq_ok, pure_eq_ok]
    exact ⟨f.coerce, hcoerce, by rw [cardinality_from_to]⟩
  simp only [projection_from_pack, projection_to_pack, bind_eq_ok, pure_eq_ok]
  exact ⟨projection.fields, mapM_map_eq_ok fun f _ => hfield f, rfl⟩

theorem tags_from_to {tags : BTreeSet Tag} (h : tags.Sorted) : tags_from_pack (tags_to_pack tags) = .ok tags := by
  have hread : ∀ name ∈ tags_to_pack tags, ∃ t ∈ tags, name = t.name.as_str := by
    intro name hname
    obtain ⟨t, ht, rfl⟩ := List.mem_map.mp (BTreeSet.mem_collect.mp hname)
    exact ⟨t, ht, rfl⟩
  have hone : ∀ {name : String} {t : Tag}, (do return (⟨← parse_slug name⟩ : Tag)) = (.ok t : Except ConvertError Tag) ↔
      name = t.name.as_str := by
    intro name t
    simp only [bind_eq_ok, pure_eq_ok]
    constructor
    · rintro ⟨slug, hslug, rfl⟩
      exact (parse_slug_eq_ok hslug).symm
    · rintro rfl
      exact ⟨t.name, parse_slug_as_str t.name, rfl⟩
  obtain ⟨out, hout⟩ := (@exists_mapM_iff ConvertError _ _ (fun t => return (⟨← parse_slug t⟩ : Tag)) _).mpr fun name hname => by
    obtain ⟨t, _, hname⟩ := hread name hname
    exact ⟨t, hone.mpr hname⟩
  simp only [tags_from_pack, bind_eq_ok (f := fun tags => pure (BTreeSet.collect tags)), pure_eq_ok]
  refine ⟨out, hout, BTreeSet.collect_eq_of_mem_iff h fun t => ?_⟩
  constructor
  · intro ht
    obtain ⟨name, hname, hread'⟩ := pointwise.exists_left (mapM_eq_ok.mp hout) ht
    obtain ⟨t', ht', hsame⟩ := hread name hname
    have hname : t'.name = t.name := Slug.ext_str (hsame.symm.trans (hone.mp hread'))
    cases t
    cases t'
    cases hname
    exact ht'
  · intro ht
    obtain ⟨t', ht', hread'⟩ := pointwise.exists_right (mapM_eq_ok.mp hout)
      (BTreeSet.mem_collect.mpr (List.mem_map_of_mem ht))
    have hname : t.name = t'.name := Slug.ext_str (hone.mp hread')
    cases t
    cases t'
    cases hname
    exact ht'

section

variable {pointer_error : String → String}

theorem parse_pointer_to_string (pointer : PointerBuf) : parse_pointer pointer_error pointer.to_string = .ok pointer := by
  rw [parse_pointer, PointerBuf.parse_to_string]

theorem pagination_from_to (pagination : Pagination) :
    pagination_from_pack pointer_error (pagination_to_pack pagination) = .ok pagination := by
  cases pagination with
  | None => rfl
  | Cursor path query => exact map_eq_ok.mpr ⟨path, parse_pointer_to_string path, rfl⟩

theorem param_from_to (p : Param) : param_from_pack pointer_error (param_to_pack p) = .ok p := by
  have hlocation : param_location_from_pack pointer_error (param_location_to_pack p.location) = .ok p.location := by
    cases p.location with
    | Body pointer => exact map_eq_ok.mpr ⟨pointer, parse_pointer_to_string pointer, rfl⟩
    | _ => rfl
  simp only [param_from_pack, bind_eq_ok, pure_eq_ok]
  exact ⟨p.location, hlocation, p.ty, param_type_from_to p.ty, rfl⟩

end

theorem callable_from_to {callable : BTreeMap String Slug} (h : callable.Sorted) :
    (BTreeMap.collect (callable.map fun kv => (kv.1, kv.2.as_str))).mapM (fun kv => return (kv.1, ← parse_slug kv.2)) =
      (.ok callable : Except ConvertError (List (String × Slug))) := by
  rw [BTreeMap.collect_of_sorted (h.map fun kv => kv.2.as_str)]
  refine mapM_map_eq_ok fun kv _ => ?_
  simp only [bind_eq_ok, pure_eq_ok]
  exact ⟨kv.2, parse_slug_as_str kv.2, rfl⟩

theorem target_from_to (target : EndpointTarget) : endpoint_target_from_pack (endpoint_target_to_pack target) = .ok target := by
  cases target with
  | ApiCall slug => exact map_eq_ok.mpr ⟨slug, parse_slug_as_str slug, rfl⟩
  | Script slug => exact map_eq_ok.mpr ⟨slug, parse_slug_as_str slug, rfl⟩

theorem aliases_from_to {aliases : BTreeMap String EndpointTarget} (h : aliases.Sorted) :
    (BTreeMap.collect (aliases.map fun kv => (kv.1, endpoint_target_to_pack kv.2))).mapM alias_item = .ok aliases := by
  rw [BTreeMap.collect_of_sorted (h.map fun kv => endpoint_target_to_pack kv.2)]
  refine mapM_map_eq_ok fun kv _ => ?_
  simp only [alias_item, bind_eq_ok, pure_eq_ok]
  exact ⟨kv.2, target_from_to kv.2, rfl⟩

/-- The crate reads the URLs of the service as it wrote them. -/
structure Rereads (url : net.UrlCrate) (s : Service) : Prop where
  base_url : url.parse s.base_url.to_string = .ok s.base_url
  origins : ∀ o ∈ s.origin_allowlist, Origin.from_str url o.ascii_serialization = .ok o

theorem origins_from_to {url : net.UrlCrate} {s : Service} (h : Rereads url s) :
    ∃ origins, (BTreeSet.collect (s.origin_allowlist.map fun o => o.ascii_serialization)).mapM (parse_origin url) = .ok origins ∧
      Origin.collect origins = Origin.collect s.origin_allowlist := by
  let texts := BTreeSet.collect (s.origin_allowlist.map Origin.ascii_serialization)
  have hread : ∀ text ∈ texts, ∃ o, o ∈ s.origin_allowlist ∧ o.ascii_serialization = text ∧ parse_origin url text = .ok o := by
    intro text htext
    obtain ⟨o, ho, rfl⟩ := List.mem_map.mp (BTreeSet.mem_collect.mp htext)
    exact ⟨o, ho, rfl, mapError_eq_ok.mpr (h.origins o ho)⟩
  obtain ⟨origins, horigins⟩ := pointwise.exists_iff.mpr hread
  refine ⟨origins, mapM_eq_ok.mpr (horigins.imp fun _ _ h => h.2.2), ?_⟩
  have htexts : origins.map Origin.ascii_serialization = texts := by
    have hsame := pointwise.map_eq (f := id) (g := Origin.ascii_serialization) horigins fun _ _ h => h.2.1.symm
    rw [List.map_id] at hsame
    exact hsame.symm
  have hcollected : (Origin.collect origins).map Origin.ascii_serialization =
      (Origin.collect s.origin_allowlist).map Origin.ascii_serialization := by
    rw [Origin.texts_of_collect, Origin.texts_of_collect, htexts]
    exact BTreeSet.collect_eq_of_mem_iff (BTreeSet.sorted_collect _) fun _ => Iff.rfl
  have hback : ∀ {os : List Origin}, (∀ o ∈ os, o ∈ s.origin_allowlist) →
      (os.map Origin.ascii_serialization).mapM (Origin.from_str url) = .ok os :=
    fun hos => mapM_map_eq_ok fun o ho => h.origins o (hos o ho)
  have hleft : ∀ o ∈ Origin.collect origins, o ∈ s.origin_allowlist := by
    intro o ho
    obtain ⟨_, _, hallowed, _⟩ := pointwise.exists_left horigins (Origin.mem_of_mem_collect ho)
    exact hallowed
  have hsame := hback hleft
  rw [hcollected, hback fun o ho => Origin.mem_of_mem_collect ho] at hsame
  exact (Except.ok.inj hsame).symm

/-! A definition as it comes out of a pack, for an owner. -/

/-- The origins are in the order of their texts. -/
def given_service (owner_id : Uuid) (s : Service) : Service :=
  { s with owner_id, origin_allowlist := Origin.collect s.origin_allowlist }

def given_api_call (owner_id : Uuid) (c : ApiCall) : ApiCall := { c with owner_id }

def given_script (owner_id : Uuid) (s : ScriptDef) : ScriptDef := { s with owner_id }

/-- The scope stays behind. -/
def given_endpoint (owner_id : Uuid) (e : EndpointDef) : EndpointDef := { e with owner_id, auth_providers := [] }

def given (owner_id : Uuid) : Definition → Definition
  | .service s => .service (given_service owner_id s)
  | .api_call t => .api_call ⟨given_api_call owner_id t.api_call, t.tags⟩
  | .script t => .script ⟨given_script owner_id t.script, t.tags⟩
  | .endpoint e => .endpoint (given_endpoint owner_id e)

/-- The name that the definition of a name is given. -/
def given_key (owner_id : Uuid) : Key → Key
  | .service _ slug => .service owner_id slug
  | .api_call _ slug => .api_call owner_id slug
  | .script _ slug => .script owner_id slug
  | .endpoint _ slug => .endpoint owner_id slug

section

variable {owner_id : Uuid} {d : Definition}

@[simp] theorem key_given : (given owner_id d).key = given_key owner_id d.key := by
  cases d <;> rfl

theorem owner_given : (given owner_id d).key.owner_id = owner_id := by
  cases d <;> rfl

theorem refs_given : (given owner_id d).refs = d.refs.map (given_key owner_id) := by
  cases d with
  | script t =>
    change List.map _ _ = List.map _ (List.map _ _)
    rw [List.map_map]
    rfl
  | _ => rfl

theorem fits_given : (given owner_id d).Fits ↔ d.Fits := by
  cases d <;> rfl

theorem kept_given : (given owner_id d).Kept ↔ d.Kept := by
  cases d <;> rfl

theorem scoped_given (rows : Rows) : (given owner_id d).Scoped rows := by
  cases d with
  | endpoint e => exact fun slug hslug => absurd hslug List.not_mem_nil
  | _ => trivial

end

section

variable {url : net.UrlCrate} {pointer_error : String → String} (owner_id : Uuid)

theorem service_item_given {s : Service} (h : Rereads url s) :
    service_item url owner_id (s.slug.as_str, service_to_pack s) = .ok (given owner_id (.service s)) := by
  obtain ⟨origins, horigins, hcollect⟩ := origins_from_to h
  simp only [service_item, service_from_pack, service_to_pack, bind_eq_ok, pure_eq_ok]
  refine ⟨s.slug, parse_slug_as_str s.slug, given_service owner_id s,
    ⟨s.base_url, mapError_eq_ok.mpr h.base_url, origins, horigins, ?_⟩, rfl⟩
  rw [given_service, ← hcollect]
  rfl

theorem api_call_item_given {t : api_call.TaggedApiCall} (hwf : (Definition.api_call t).Wf)
    (hfits : (Definition.api_call t).Fits) :
    api_call_item pointer_error owner_id (t.api_call.slug.as_str, api_call_to_pack t.api_call t.tags) =
      .ok (given owner_id (.api_call t)) := by
  have hprojection : (t.api_call.projection.map projection_to_pack).mapM projection_from_pack = .ok t.api_call.projection := by
    cases t.api_call.projection with
    | none => rfl
    | some projection =>
      change some <$> projection_from_pack (projection_to_pack projection) = _
      rw [projection_from_to]
      rfl
  simp only [api_call_item, api_call_from_pack, api_call_to_pack, bind_eq_ok, pure_eq_ok]
  exact ⟨t.api_call.slug, parse_slug_as_str _, t.api_call.service_slug, parse_slug_as_str _, given_api_call owner_id t.api_call,
    ⟨t.api_call.method, method_from_as_str hfits.1, t.api_call.access, access_from_to _, t.api_call.projection, hprojection,
      t.api_call.pagination, pagination_from_to _, t.api_call.params, mapM_map_eq_ok fun p _ => param_from_to p, rfl⟩,
    t.tags, tags_from_to hwf, rfl⟩

theorem script_item_given {t : script.TaggedScript} (hwf : (Definition.script t).Wf) (hkept : (Definition.script t).Kept) :
    script_item pointer_error owner_id (t.script.slug.as_str, script_to_pack t.script t.tags) =
      .ok (given owner_id (.script t)) := by
  have hbudgets := budgets_from_to fun d hd => (hkept.2.2.2.2.1 d hd).1
  simp only [script_item, script_from_pack, script_to_pack, bind_eq_ok, pure_eq_ok]
  refine ⟨t.script.slug, parse_slug_as_str _, given_script owner_id t.script, ⟨t.script.callable, ?_, t.script.params,
    mapM_map_eq_ok fun p _ => param_from_to p, ?_⟩, t.tags, tags_from_to hwf.1, rfl⟩
  · have hcallable := callable_from_to hwf.2
    simpa only [bind_eq_ok, pure_eq_ok] using hcallable
  · rw [hbudgets, BTreeMap.collect_of_sorted hwf.2]
    rfl

theorem endpoint_item_given {e : EndpointDef} (hwf : (Definition.endpoint e).Wf) (hkept : (Definition.endpoint e).Kept)
    (hplain : resolve.tag_expr.Plain e.tag_expr) :
    endpoint_item owner_id (e.slug.as_str, endpoint_to_pack { e with auth_providers := [] }) =
      .ok (given owner_id (.endpoint e)) := by
  have haliases := aliases_from_to hwf.1
  simp only [endpoint_item, endpoint_from_pack, endpoint_to_pack, bind_eq_ok, pure_eq_ok]
  refine ⟨e.slug, parse_slug_as_str _, given_endpoint owner_id e,
    ⟨e.tag_expr, mapError_eq_ok.mpr (resolve.tag_expr.parse_to_string_plain hplain), e.aliases, haliases, [], rfl,
      e.write_ceiling, access_from_to _, ?_⟩, rfl⟩
  rw [budgets_from_to hkept, BTreeMap.collect_of_sorted hwf.1]
  rfl

theorem plain_of_endpoint_item {e : EndpointDef} {d : Definition}
    (h : endpoint_item owner_id (e.slug.as_str, endpoint_to_pack { e with auth_providers := [] }) = .ok d) :
    resolve.tag_expr.Plain e.tag_expr := by
  by_contra hplain
  simp only [endpoint_item, endpoint_from_pack, endpoint_to_pack, bind_eq_ok, pure_eq_ok] at h
  obtain ⟨_, _, _, ⟨_, hparse, _⟩, _⟩ := h
  obtain ⟨err, herr⟩ := resolve.tag_expr.parse_to_string_fails hplain
  rw [herr] at hparse
  cases hparse

end

/-! What an export is of, once it is imported. -/

/-- What is made of the entries of a map, each of which is of an item. -/
theorem mapM_of_entries {α β : Type} (item : β → Except ConvertError Definition) {entries : List β} {P : α → Prop}
    {entry_of : α → β} {out : α → Definition} (hentries : ∀ entry, entry ∈ entries ↔ ∃ a, P a ∧ entry = entry_of a)
    (hitem : ∀ a, P a → item (entry_of a) = .ok (out a)) :
    ∃ ds, entries.mapM item = .ok ds ∧ ∀ d, d ∈ ds ↔ ∃ a, P a ∧ d = out a := by
  obtain ⟨ds, hds⟩ := exists_mapM_iff.mpr fun entry hentry => by
    obtain ⟨a, ha, rfl⟩ := (hentries entry).mp hentry
    exact ⟨out a, hitem a ha⟩
  refine ⟨ds, hds, fun d => ?_⟩
  constructor
  · intro hd
    obtain ⟨entry, hentry, hread⟩ := pointwise.exists_left (mapM_eq_ok.mp hds) hd
    obtain ⟨a, ha, rfl⟩ := (hentries entry).mp hentry
    exact ⟨a, ha, Except.ok.inj (hread.symm.trans (hitem a ha))⟩
  · rintro ⟨a, ha, rfl⟩
    obtain ⟨d, hd, hread⟩ := pointwise.exists_right (mapM_eq_ok.mp hds) ((hentries (entry_of a)).mpr ⟨a, ha, rfl⟩)
    rwa [Except.ok.inj ((hitem a ha).symm.trans hread)]

section

variable {names : Names} {rows rows₂ rows' : Rows} {e : EndpointDef} {p : Pack}

/-- What is exported is in order, taken by the tables and kept by the columns. -/
theorem exported_spec (hsound : Sound names rows) (he : Holds rows (.endpoint e)) {d : Definition} (h : Exported rows e d) :
    d.Wf ∧ d.Fits ∧ d.Kept := by
  obtain rfl | hneeded := h
  · have hfits : (Definition.endpoint e).Fits := hsound.fits he
    have hkept : (Definition.endpoint e).Kept := hsound.kept he
    exact ⟨⟨he.wf.1, .nil⟩, hfits, hkept⟩
  · exact ⟨hneeded.held.wf, hsound.fits hneeded.held, hsound.kept hneeded.held⟩

theorem exported_owner {d : Definition} (h : Exported rows e d) : d.key.owner_id = e.owner_id := by
  obtain rfl | hneeded := h
  · rfl
  · exact hneeded.owner

/-- What is named by what is exported is exported. -/
theorem exported_refs (hlinked : Linked rows) {d : Definition} (h : Exported rows e d) {key : Key} (hkey : key ∈ d.refs) :
    ∃ d', Exported rows e d' ∧ d'.key = key := by
  obtain rfl | hneeded := h
  · exact absurd hkey List.not_mem_nil
  · obtain ⟨d', hd', rfl⟩ := hlinked d hneeded.held key hkey
    exact ⟨d', .inr (.named hneeded hd' hkey), rfl⟩

variable {url : net.UrlCrate} {pointer_error : String → String} {owner_id : Uuid}

/-- The definitions of an exported pack are what was exported, for the owner. -/
theorem definitions_given (hsound : Sound names rows) (hlinked : Linked rows) (he : Holds rows (.endpoint e))
    (hurls : ∀ s, Needed rows e (.service s) → Rereads url s) (hplain : resolve.tag_expr.Plain e.tag_expr)
    (hcarries : p.Carries (Exported rows e)) :
    ∃ ds, definitions url pointer_error p owner_id = .ok ds ∧
      (∀ d, d ∈ ds ↔ ∃ x, Exported rows e x ∧ d = given owner_id x) ∧ ∀ known, Closed known ds := by
  obtain ⟨ss, hss, hservices⟩ := mapM_of_entries (service_item url owner_id) hcarries.services fun s hs =>
    service_item_given owner_id (hurls s ((exported_iff (by rintro _ ⟨⟩)).mp hs))
  obtain ⟨cs, hcs, hcalls⟩ := mapM_of_entries (api_call_item pointer_error owner_id) hcarries.api_calls fun t ht =>
    api_call_item_given owner_id (exported_spec hsound he ht).1 (exported_spec hsound he ht).2.1
  obtain ⟨ts, hts, hscripts⟩ := mapM_of_entries (script_item pointer_error owner_id) hcarries.scripts fun t ht =>
    script_item_given owner_id (exported_spec hsound he ht).1 (exported_spec hsound he ht).2.2
  have hendpoint : ∀ e', Exported rows e (.endpoint e') →
      endpoint_item owner_id (e'.slug.as_str, endpoint_to_pack e') = .ok (given owner_id (.endpoint e)) := by
    intro e' he'
    rw [exported_endpoint_iff.mp he']
    exact @endpoint_item_given owner_id e he.wf (hsound.kept he) hplain
  obtain ⟨es, hes, hendpoints⟩ := mapM_of_entries (endpoint_item owner_id) hcarries.endpoints hendpoint
  refine ⟨ss ++ cs ++ ts ++ es, ?_, fun d => ?_, fun known => ?_⟩
  · simp only [definitions, bind_eq_ok, pure_eq_ok]
    exact ⟨ss, hss, cs, hcs, ts, hts, es, hes, rfl⟩
  · simp only [List.mem_append, hservices, hcalls, hscripts, hendpoints]
    constructor
    · rintro (((⟨s, hs, rfl⟩ | ⟨t, ht, rfl⟩) | ⟨t, ht, rfl⟩) | ⟨e', he', rfl⟩)
      · exact ⟨_, hs, rfl⟩
      · exact ⟨_, ht, rfl⟩
      · exact ⟨_, ht, rfl⟩
      · exact ⟨_, .inl rfl, rfl⟩
    · rintro ⟨x, hx, rfl⟩
      cases x with
      | service s => exact .inl (.inl (.inl ⟨s, hx, rfl⟩))
      | api_call t => exact .inl (.inl (.inr ⟨t, hx, rfl⟩))
      | script t => exact .inl (.inr ⟨t, hx, rfl⟩)
      | endpoint e' =>
        refine .inr ⟨e', hx, ?_⟩
        rw [exported_endpoint_iff.mp hx]
        rfl
  · have hthere : ∀ {x d : Definition}, Exported rows e x → d = given owner_id x → ∀ key ∈ d.refs,
        ∃ x', Exported rows e x' ∧ (given owner_id x').key = key := by
      rintro x _ hx rfl key hkey
      rw [refs_given] at hkey
      obtain ⟨named, hnamed, rfl⟩ := List.mem_map.mp hkey
      obtain ⟨x', hx', rfl⟩ := exported_refs hlinked hx hnamed
      exact ⟨x', hx', key_given⟩
    refine (((Closed.of_refs fun d hd key hkey => ?_).append (.of_refs fun d hd key hkey => ?_)).append
      (.of_refs fun d hd key hkey => ?_)).append (.of_refs fun d hd key hkey => ?_)
    · obtain ⟨s, _, rfl⟩ := (hservices d).mp hd
      exact absurd hkey List.not_mem_nil
    · obtain ⟨t, ht, hd⟩ := (hcalls d).mp hd
      obtain ⟨x', hx', rfl⟩ := hthere ht hd key hkey
      subst hd
      obtain hkind := List.mem_singleton.mp hkey
      cases x' with
      | service s => exact .inl ⟨_, (hservices _).mpr ⟨s, hx', rfl⟩, rfl⟩
      | _ => cases hkind
    · obtain ⟨t, ht, hd⟩ := (hscripts d).mp hd
      obtain ⟨x', hx', rfl⟩ := hthere ht hd key hkey
      subst hd
      obtain ⟨kv, _, hkind⟩ := List.mem_map.mp hkey
      cases x' with
      | api_call t' => exact .inl ⟨_, List.mem_append_right ss ((hcalls _).mpr ⟨t', hx', rfl⟩), rfl⟩
      | _ => cases hkind
    · obtain ⟨e', _, rfl⟩ := (hendpoints d).mp hd
      exact absurd hkey List.not_mem_nil

/-- The rows after an import: the owner has what was exported, and nothing else
is otherwise. -/
structure Arrived (rows : Rows) (e : EndpointDef) (owner_id : Uuid) (rows₂ rows' : Rows) : Prop where
  intact : Intact rows'
  holds : ∀ x, x.key.owner_id = owner_id → (Holds rows' x ↔ ∃ d, Exported rows e d ∧ x = given owner_id d)
  others : ∀ x, x.key.owner_id ≠ owner_id → (Holds rows' x ↔ Holds rows₂ x)
  auth_providers : rows'.auth_providers = rows₂.auth_providers

variable {keys : NewKeys}

theorem arrived_of_runs (hsound : Sound names rows) (hlinked : Linked rows) (he : Holds rows (.endpoint e))
    (hurls : ∀ s, Needed rows e (.service s) → Rereads url s) (hcarries : p.Carries (Exported rows e))
    (hintact : Intact rows₂) (hnone : Undefined rows₂ owner_id) {report : ImportReport}
    (hruns : Runs (import_pack url pointer_error keys p false owner_id) rows₂ report rows') :
    resolve.tag_expr.Plain e.tag_expr ∧ Arrived rows e owner_id rows₂ rows' := by
  obtain ⟨ds, founds, hds, hputs, _⟩ := runs_import_pack hruns
  have hplain : resolve.tag_expr.Plain e.tag_expr := by
    simp only [definitions, bind_eq_ok, pure_eq_ok] at hds
    obtain ⟨_, _, _, _, _, _, es, hes, _⟩ := hds
    obtain ⟨d, hd⟩ := exists_mapM_iff.mp ⟨es, hes⟩ _ ((hcarries.endpoints _).mpr ⟨_, .inl rfl, rfl⟩)
    exact plain_of_endpoint_item owner_id hd
  obtain ⟨hdistinct, hnamed⟩ := definitions_spec hcarries.sorted hds
  have hwf : ∀ d ∈ ds, d.Wf := fun d hd => (hnamed d hd).1
  obtain ⟨_, hds', hmem, _⟩ :=
    @definitions_given _ _ _ _ url pointer_error owner_id hsound hlinked he hurls hplain hcarries
  obtain rfl := Except.ok.inj (hds.symm.trans hds')
  refine ⟨hplain, hputs.intact hintact, fun x howner => ?_, fun x howner => ?_, hputs.auth_providers hintact hwf⟩
  · have hread : ∀ d ∈ ds, Query.Yields (· = rows') d.get (some d) := by
      intro d hd
      have hread := hputs.get hintact hwf hdistinct hd
      obtain ⟨x, hx, rfl⟩ := (hmem d).mp hd
      rwa [Definition.stored_eq_iff.mpr (kept_given.mpr (exported_spec hsound he hx).2.2)] at hread
    rw [← hmem x]
    constructor
    · intro hx
      by_cases hkey : ∃ d ∈ ds, d.key = x.key
      · obtain ⟨d, hd, hkey⟩ := hkey
        have hunmoved := (Definition.yields_get_iff.mp (hread d hd)).2.2
        have hfound := Definition.yields_get_iff.mpr ⟨hx, hkey.symm, hunmoved⟩
        rwa [Option.some.inj (hfound.unique (hread d hd))]
      · have hbefore := (hputs.holds_other hintact hwf fun d hd hsame => hkey ⟨d, hd, hsame.symm⟩).mp hx
        exact absurd howner (hnone x hbefore)
    · exact fun hx => (Definition.yields_get_iff.mp (hread x hx)).1
  · exact hputs.holds_other hintact hwf fun d hd hsame => howner (hsame ▸ (hnamed d hd).2)

theorem exists_runs_exported (hsound : Sound names rows) (hlinked : Linked rows) (he : Holds rows (.endpoint e))
    (hurls : ∀ s, Needed rows e (.service s) → Rereads url s) (hplain : resolve.tag_expr.Plain e.tag_expr)
    (hcarries : p.Carries (Exported rows e)) (hintact : Intact rows₂) (hnone : Undefined rows₂ owner_id) :
    ∃ report rows', Runs (import_pack url pointer_error keys p false owner_id) rows₂ report rows' := by
  obtain ⟨ds, hds, hmem, hclosed⟩ :=
    @definitions_given _ _ _ _ url pointer_error owner_id hsound hlinked he hurls hplain hcarries
  obtain ⟨hdistinct, hnamed⟩ := definitions_spec hcarries.sorted hds
  have htaken : ∀ d ∈ ds, d.Fits ∧ d.Scoped rows₂ ∧ d.Unmoved rows₂ := by
    intro d hd
    obtain ⟨x, hx, rfl⟩ := (hmem d).mp hd
    exact ⟨fits_given.mpr (exported_spec hsound he hx).2.1, scoped_given rows₂, hnone.unmoved hintact owner_given⟩
  have hputs : ∃ founds rows', PutsAll keys founds ds rows₂ rows' :=
    (PutsAll.exists_iff hintact (fun d hd => (hnamed d hd).1) hdistinct).mpr ⟨htaken, hclosed _⟩
  obtain ⟨founds, rows', hputs⟩ := hputs
  obtain ⟨report, hruns⟩ := exists_runs_import_pack hds hputs
  exact ⟨report, rows', hruns⟩

namespace Arrived

variable (h : Arrived rows e owner_id rows₂ rows')

include h

/-- What is named is there, of the owner's and of the others' definitions. -/
theorem linked (hlinked : Linked rows) (hlinked₂ : Linked rows₂) : Linked rows' := by
  intro d hd key hkey
  by_cases howner : d.key.owner_id = owner_id
  · obtain ⟨x, hx, rfl⟩ := (h.holds d howner).mp hd
    rw [refs_given] at hkey
    obtain ⟨named, hnamed, rfl⟩ := List.mem_map.mp hkey
    obtain ⟨x', hx', rfl⟩ := exported_refs hlinked hx hnamed
    exact ⟨given owner_id x', (h.holds _ owner_given).mpr ⟨x', hx', rfl⟩, key_given⟩
  · obtain ⟨x, hx, rfl⟩ := hlinked₂ d ((h.others d howner).mp hd) key hkey
    refine ⟨x, (h.others x ?_).mpr hx, rfl⟩
    rwa [Definition.refs_owner hkey]

/-- The endpoint needs for its new owner what it needed for the old one. -/
theorem exported_iff {x : Definition} :
    Exported rows' (given_endpoint owner_id e) x ↔ ∃ d, Exported rows e d ∧ x = given owner_id d := by
  constructor
  · rintro (rfl | hneeded)
    · exact ⟨_, .inl rfl, rfl⟩
    · exact (h.holds x hneeded.owner).mp hneeded.held
  · rintro ⟨d, hd, rfl⟩
    have hheld : ∀ {d : Definition}, Needed rows e d → Holds rows' (given owner_id d) := fun hd =>
      (h.holds _ owner_given).mpr ⟨_, .inr hd, rfl⟩
    obtain rfl | hneeded := hd
    · exact .inl rfl
    · refine .inr ?_
      induction hneeded with
      | @selected d hd hselects =>
        refine .selected (hheld (.selected hd hselects)) ?_
        cases d with
        | api_call t => exact ⟨rfl, hselects.2⟩
        | script t => exact ⟨rfl, hselects.2⟩
        | service s => cases hselects
        | endpoint e' => cases hselects
      | @named d d' hneeded hd' hnamed ih =>
        refine .named ih (hheld (.named hneeded hd' hnamed)) ?_
        rw [key_given, refs_given]
        exact List.mem_map_of_mem hnamed

end Arrived

theorem carries_of_export (hintact : Intact rows) (hlinked : Linked rows) (he : Holds rows (.endpoint e))
    (hp : Query.Yields (· = rows) (export_endpoint e.owner_id e.slug) p) : p.Carries (Exported rows e) := by
  obtain ⟨e', he', howner, hslug, hcarries⟩ := (yields_export_endpoint hintact hlinked).mp hp
  have hfound := endpoint.yields_get.mpr ⟨he', howner, hslug⟩
  rwa [Option.some.inj (hfound.unique (endpoint.yields_get.mpr ⟨he, rfl, rfl⟩))] at hcarries

theorem exists_carries (hintact : Intact rows) (hlinked : Linked rows) (e : EndpointDef) :
    ∃ p : Pack, p.Carries (Exported rows e) := by
  obtain ⟨calls, hcalls⟩ := @api_call.exists_list_all rows e.owner_id hintact
  obtain ⟨scripts, hscripts⟩ := @script.exists_list_all rows e.owner_id hintact
  obtain ⟨p, _, hcarries⟩ := export_endpoint.collect_carries hlinked hcalls hscripts (Query.yields_eval.mpr rfl)
  exact ⟨p, hcarries⟩

end

/-! An owner creates a service, an api_call on it and an endpoint of the call. -/

def sample_endpoint : EndpointDef where
  owner_id := 1
  slug := .crm
  tag_expr := .Has ⟨.crm⟩
  write_ceiling := .Read
  budgets := {}
  instructions := none
  enabled := true
  aliases := []
  auth_providers := []

def sample_source : Fin 3 → Method :=
  ![.create (fun _ => 9) 6 (.service sample_service), .create (fun _ => 9) 7 (.api_call ⟨sample_call, [⟨.crm⟩]⟩),
    .create (fun _ => 9) 8 (.endpoint sample_endpoint)]

def sample_turns : List (Fin 3) := (List.finRange 3).flatMap (List.replicate 8)

def sample_rows : Rows := ((start sample_db sample_source).run sample_turns).store.rows

theorem sample_reached : Reached sample_rows := by
  refine ⟨Fin 3, inferInstance, sample_source, sample_db, sample_turns, fun i j id hi hj => ?_, fun i => ?_, rfl, rfl⟩
  · fin_cases i <;> fin_cases j
    all_goals first | rfl | exact absurd (hi.trans hj.symm) (by decide)
  · fin_cases i
    · trivial
    · exact List.pairwise_singleton _ _
    · exact ⟨.nil, .nil⟩

theorem sample_endpoint_held : Holds sample_rows (.endpoint sample_endpoint) :=
  ⟨_, List.mem_cons_self, [], Query.yields_eval.mpr rfl, rfl⟩

theorem sample_rereads {s : Service} (h : Holds sample_rows (.service s)) : Rereads sample_crate s := by
  obtain ⟨row, hrow, rfl⟩ := h
  have hrows : sample_rows.services.rows = [service.to_active_model sample_service 6] := rfl
  rw [hrows] at hrow
  obtain rfl := List.mem_singleton.mp hrow
  refine ⟨rfl, fun o ho => ?_⟩
  obtain rfl := List.mem_singleton.mp ho
  rfl

theorem sample_carried : ∃ p, Query.Yields (· = sample_rows) (export_endpoint 1 .crm) p ∧
    ∃ report rows', Runs (import_pack sample_crate default default p false 2) {} report rows' := by
  obtain ⟨names, hsound⟩ := sample_reached.sound
  have hlinked : Linked sample_rows := fun _ hd _ hkey => hsound.linked hd hkey
  obtain ⟨p, hcarries⟩ := exists_carries hsound.toIntact hlinked sample_endpoint
  refine ⟨p, (yields_export_endpoint hsound.toIntact hlinked).mpr ⟨_, sample_endpoint_held, rfl, rfl, hcarries⟩, ?_⟩
  exact exists_runs_exported hsound hlinked sample_endpoint_held (fun s hs => sample_rereads hs.held) (by decide) hcarries
    Intact.empty (undefined_empty 2)

end api2mcp.pack
