import Api2Mcp.Pack.Portable

namespace api2mcp.pack

open relational btree concurrent except jsonptr serde_json
open api2mcp.http api2mcp.model api2mcp.store api2mcp.entity
open validate_credentials

/-! What the validator asks of a definition on its own. -/

/-- The URLs of the service are read as it writes them, and its own origin is
among those it allows. -/
structure ServiceValid (url : net.UrlCrate) (s : Service) : Prop where
  base_url : ∃ base_url, url.parse s.base_url.to_string = .ok base_url ∧
    ∀ origin, Origin.of base_url = .ok origin → origin ∈ s.origin_allowlist
  origins : ∀ o ∈ s.origin_allowlist, Origin.from_str url o.ascii_serialization = .ok o
  headers : ∀ header ∈ s.default_headers, looks_like_credential header.2 = false

structure ApiCallValid (json : JsonCrate) (c : ApiCall) : Prop where
  path : ∃ template, UrlTemplate.parse c.path_template = .ok template ∧
    ∀ name, .Placeholder name ∈ template.segments ↔ ∃ p ∈ c.params, p.location = .Path ∧ p.name = name
  projection : ∀ projection, c.projection = some projection → ∀ f ∈ projection.fields,
    ∃ read, json.parse_path f.path = .ok read
  headers : ∀ p ∈ c.params, p.location = .Header → is_header_param_name_allowed p.name = true
  query_fixed : ∀ kv ∈ c.query_fixed, looks_like_credential kv.2 = false
  body_template : GivenClean c.body_template
  params : ∀ p ∈ c.params, GivenClean p.default ∧ GivenClean p.fixed

def ScriptValid (s : ScriptDef) : Prop := ∀ p ∈ s.params, GivenClean p.default

/-- Whatever else there is. -/
def Valid (url : net.UrlCrate) (json : JsonCrate) : Definition → Prop
  | .service s => ServiceValid url s
  | .api_call t => ApiCallValid json t.api_call
  | .script t => ScriptValid t.script
  | .endpoint e => resolve.tag_expr.Plain e.tag_expr

/-! Nothing is wrong with the texts that a valid definition is written as. -/

section

variable {url : net.UrlCrate} {json : JsonCrate} {p : Pack}

theorem check_slug_as_str (category : String) (slug : Slug) : check_slug category slug.as_str = [] :=
  check_slug_nil_iff.mpr ⟨slug, rfl⟩

theorem validate_service_of_valid {s : Service} (h : ServiceValid url s) (slug : String) :
    validate_service url slug (service_to_pack s) = [] := by
  obtain ⟨base_url, hparse, hallowed⟩ := h.base_url
  have hread : ∀ text ∈ (service_to_pack s).origin_allowlist, ∃ o, Origin.from_str url text = .ok o := by
    intro text htext
    obtain ⟨o, ho, rfl⟩ := List.mem_map.mp (BTreeSet.mem_collect.mp htext)
    exact ⟨o, h.origins o ho⟩
  have hcontains : ∀ origin, Origin.of base_url = .ok origin →
      contains_origin url (service_to_pack s).origin_allowlist origin = true := by
    intro origin horigin
    have ho := hallowed origin horigin
    refine List.any_eq_true.mpr ⟨_, BTreeSet.mem_collect.mpr (List.mem_map_of_mem ho), ?_⟩
    rw [h.origins origin ho]
    exact decide_eq_true rfl
  have hbase : url.parse (service_to_pack s).base_url = .ok base_url := hparse
  simp only [validate_service, hbase, List.append_eq_nil_iff, List.flatMap_eq_nil_iff]
  refine ⟨⟨trivial, fun text htext => ?_⟩, ?_⟩
  · obtain ⟨o, ho⟩ := hread text htext
    rw [ho]
  · cases horigin : Origin.of base_url with
    | error e => rfl
    | ok origin => exact if_pos (hcontains origin horigin)

/-- The names of the placeholders. -/
def placeholders (template : UrlTemplate) : List String := template.segments.filterMap fun s =>
  match s with | .Placeholder name => some name | .Literal _ => none

theorem mem_placeholders {template : UrlTemplate} {name : String} :
    name ∈ placeholders template ↔ .Placeholder name ∈ template.segments := by
  rw [placeholders, List.mem_filterMap]
  constructor
  · rintro ⟨segment, hsegment, hname⟩
    cases segment with
    | Literal text => cases hname
    | Placeholder other =>
      obtain rfl := Option.some.inj hname
      exact hsegment
  · exact fun hsegment => ⟨_, hsegment, rfl⟩

theorem validate_path_params_nil_iff {slug : String} {template : UrlTemplate} {call : PackApiCall} :
    validate_path_params slug template call = [] ↔
      ∀ name, .Placeholder name ∈ template.segments ↔ ∃ p ∈ call.params, p.location = .Path ∧ p.name = name := by
  let path_params := (call.params.filter fun p => p.location = .Path).map fun p => p.name
  have hparam : ∀ name, name ∈ path_params ↔ ∃ p ∈ call.params, p.location = .Path ∧ p.name = name := by
    intro name
    simp only [path_params, List.mem_map, List.mem_filter, decide_eq_true_eq, and_assoc]
  have hnil : validate_path_params slug template call = [] ↔
      BTreeSet.collect (placeholders template) = BTreeSet.collect path_params := by
    rw [← not_not (a := BTreeSet.collect (placeholders template) = _)]
    exact nil_ite_iff
  rw [hnil]
  constructor
  · intro heq name
    rw [← mem_placeholders, ← hparam, ← BTreeSet.mem_collect, heq, BTreeSet.mem_collect]
  · intro hsame
    refine BTreeSet.eq_of_mem_iff (BTreeSet.sorted_collect _) (BTreeSet.sorted_collect _) fun name => ?_
    rw [BTreeSet.mem_collect, BTreeSet.mem_collect, mem_placeholders, hparam, hsame]

theorem access_to_str_names (access : Access) : ¬ (access_to_str access ≠ "read" ∧ access_to_str access ≠ "write") := by
  cases access <;> simp [access_to_str]

theorem param_to_pack_location {p : Param} {location : ParamLocation} (h : location = .Path ∨ location = .Header) :
    (param_to_pack p).location = param_location_to_pack location ↔ p.location = location := by
  obtain rfl | rfl := h
  · change param_location_to_pack p.location = .Path ↔ p.location = .Path
    cases p.location <;> simp [param_location_to_pack]
  · change param_location_to_pack p.location = .Header ↔ p.location = .Header
    cases p.location <;> simp [param_location_to_pack]

theorem validate_param_of_valid {q : Param} (hfixed : q.fixed = none ∨ q.required = false)
    (hheader : q.location = .Header → is_header_param_name_allowed q.name = true) (slug : String) :
    validate_param slug (param_to_pack q) = [] := by
  have hlocation := @param_to_pack_location q .Header (.inr rfl)
  have hcheck : ((param_to_pack q).fixed.isSome && (param_to_pack q).required) = false := by
    change (q.fixed.isSome && q.required) = false
    obtain hnone | hfalse := hfixed
    · rw [hnone]
      rfl
    · rw [hfalse, Bool.and_false]
  simp only [validate_param, List.append_eq_nil_iff, nil_ite_iff, hcheck, Bool.false_eq_true, not_false_eq_true, true_and,
    Bool.and_eq_true, decide_eq_true_eq, not_and, Bool.not_eq_true, Bool.not_eq_false']
  exact fun h => hheader (hlocation.mp h)

theorem validate_api_call_of_valid {c : ApiCall} {tags : BTreeSet Tag} (h : ApiCallValid json c)
    (hfits : (Definition.api_call ⟨c, tags⟩).Fits) (hservice : p.services.contains_key c.service_slug.as_str = true)
    (slug : String) : validate_api_call json p slug (api_call_to_pack c tags) = [] := by
  obtain ⟨template, htemplate, hpath⟩ := h.path
  obtain ⟨hmethod, hparams, _⟩ := hfits
  have htemplate : UrlTemplate.parse (api_call_to_pack c tags).path_template = .ok template := htemplate
  have hmethod : (net.Method.from_bytes c.method.as_str).isNone = false := by
    rw [method_from_str_eq_ok.mp (method_from_as_str hmethod)]
    rfl
  simp only [validate_api_call, List.append_eq_nil_iff, htemplate, ite_nil_iff, nil_ite_iff, Bool.not_eq_true]
  refine ⟨⟨⟨⟨⟨⟨hservice, hmethod⟩, access_to_str_names c.access⟩, ?_⟩, ?_⟩, ?_⟩, ?_⟩
  · refine validate_path_params_nil_iff.mpr fun name => (hpath name).trans ?_
    constructor
    · rintro ⟨q, hq, hlocation, hname⟩
      exact ⟨param_to_pack q, List.mem_map_of_mem hq, (param_to_pack_location (.inl rfl)).mpr hlocation, hname⟩
    · rintro ⟨_, hp, hlocation, hname⟩
      obtain ⟨q, hq, rfl⟩ := List.mem_map.mp hp
      exact ⟨q, hq, (param_to_pack_location (.inl rfl)).mp hlocation, hname⟩
  · cases hprojection : c.projection with
    | none => simp [api_call_to_pack, hprojection]
    | some projection =>
      have hpack : (api_call_to_pack c tags).projection = some (projection_to_pack projection) := by
        rw [api_call_to_pack, hprojection]
        rfl
      rw [hpack]
      refine List.flatMap_eq_nil_iff.mpr fun field hfield => ?_
      obtain ⟨f, hf, rfl⟩ := List.mem_map.mp hfield
      obtain ⟨read, hread⟩ := h.projection projection hprojection f hf
      simp only [validate_projection_field, hread]
  · change validate_pagination slug (pagination_to_pack c.pagination) = []
    cases c.pagination with
    | None => rfl
    | Cursor path query => simp [pagination_to_pack, validate_pagination, PointerBuf.parse_to_string]
  · refine List.flatMap_eq_nil_iff.mpr fun pack_param hp => ?_
    obtain ⟨q, hq, rfl⟩ := List.mem_map.mp hp
    exact validate_param_of_valid (hparams q hq).2 (h.headers q hq) slug

theorem scan_api_call_of_valid {c : ApiCall} (h : ApiCallValid json c) (tags : BTreeSet Tag) (slug : String) :
    scan_api_call slug (api_call_to_pack c tags) = [] := by
  refine (scan_api_call_nil_iff slug _).mpr ⟨h.query_fixed, h.body_template, fun pack_param hp => ?_⟩
  obtain ⟨q, hq, rfl⟩ := List.mem_map.mp hp
  exact h.params q hq

theorem validate_script_of_valid {s : ScriptDef} {tags : BTreeSet Tag} (hfits : (Definition.script ⟨s, tags⟩).Fits)
    (hcallable : ∀ kv ∈ s.callable, p.api_calls.contains_key kv.2.as_str = true) (slug : String) :
    validate_script p slug (script_to_pack s tags) = [] := by
  simp only [validate_script, validate_callable, List.append_eq_nil_iff, List.flatMap_eq_nil_iff, ite_nil_iff]
  constructor
  · intro entry hentry
    obtain ⟨kv, hkv, rfl⟩ := List.mem_map.mp (BTreeMap.mem_of_mem_collect hentry)
    exact hcallable kv hkv
  · intro pack_param hp
    obtain ⟨q, hq, rfl⟩ := List.mem_map.mp hp
    have hlocal : q.location = .Local := hfits.1 q hq
    rw [param_to_pack, hlocal]
    rfl

theorem scan_script_of_valid {s : ScriptDef} (h : ScriptValid s) (tags : BTreeSet Tag) (slug : String) :
    scan_script slug (script_to_pack s tags) = [] := by
  refine (scan_script_nil_iff slug _).mpr fun pack_param hp => ?_
  obtain ⟨q, hq, rfl⟩ := List.mem_map.mp hp
  exact h q hq

/-- The endpoint passes exactly if the targets of its aliases are in the pack. -/
theorem validate_endpoint_nil_iff {e : EndpointDef} (h : resolve.tag_expr.Plain e.tag_expr) (hsorted : e.aliases.Sorted)
    (slug : String) : validate_endpoint p slug (endpoint_to_pack e) = [] ↔
      ∀ kv ∈ e.aliases, (endpoint_target_to_pack kv.2).missing p = false := by
  have hparse : resolve.tag_expr.parse (endpoint_to_pack e).tag_expr = .ok e.tag_expr :=
    resolve.tag_expr.parse_to_string_plain h
  have haliases : (endpoint_to_pack e).aliases = e.aliases.map fun kv => (kv.1, endpoint_target_to_pack kv.2) :=
    BTreeMap.collect_of_sorted (hsorted.map fun kv => endpoint_target_to_pack kv.2)
  simp only [validate_endpoint, hparse, List.append_eq_nil_iff, List.flatMap_eq_nil_iff, nil_ite_iff, haliases,
    BTreeMap.values, List.map_map, List.forall_mem_map, Bool.not_eq_true, Function.comp_apply, true_and]
  exact and_iff_right (access_to_str_names e.write_ceiling)

end

/-! What is made of texts that pass is valid. -/

/-- What the `url` crate is relied on for: a URL that was read is written as one
of the same origin, and so is its origin. -/
structure UrlLaws (url : net.UrlCrate) : Prop where
  reparse : ∀ {text u}, url.parse text = .ok u → ∃ u', url.parse u.to_string = .ok u' ∧ u'.origin = u.origin
  origin : ∀ {text u}, url.parse text = .ok u → u.origin ≠ .Opaque →
    ∃ u', url.parse u.origin.ascii_serialization = .ok u' ∧ u'.origin = u.origin

theorem origin_of_congr {u u' : net.Url} (h : u'.origin = u.origin) : Origin.of u' = Origin.of u := by
  unfold Origin.of
  simp only [h]

section

variable {url : net.UrlCrate} {json : JsonCrate} {pointer_error : String → String} {p : Pack} {owner_id : Uuid}

theorem UrlLaws.from_str (h : UrlLaws url) {text : String} {o : Origin} (ho : Origin.from_str url text = .ok o) :
    Origin.from_str url o.ascii_serialization = .ok o := by
  unfold Origin.from_str at ho
  split at ho
  · cases ho
  · rename_i u hparse
    have hinner := Origin.inner_of ho
    have htuple : u.origin ≠ .Opaque := hinner ▸ o.is_tuple
    obtain ⟨u', hparse', hsame⟩ := h.origin hparse htuple
    have htext : o.ascii_serialization = u.origin.ascii_serialization := congrArg net.UrlOrigin.ascii_serialization hinner
    rw [Origin.from_str, htext, hparse']
    exact (origin_of_congr hsame).trans ho

/-- Origins that are read as they are written are all kept. -/
theorem mem_collect_origins {origins : List Origin}
    (hread : ∀ o ∈ origins, Origin.from_str url o.ascii_serialization = .ok o) {o : Origin} (ho : o ∈ origins) :
    o ∈ Origin.collect origins := by
  have htext : o.ascii_serialization ∈ (Origin.collect origins).map Origin.ascii_serialization := by
    rw [Origin.texts_of_collect]
    exact BTreeSet.mem_collect.mpr (List.mem_map_of_mem ho)
  obtain ⟨o', ho', hsame⟩ := List.mem_map.mp htext
  have hback := hread o' (Origin.mem_of_mem_collect ho')
  rw [hsame, hread o ho] at hback
  rwa [Except.ok.inj hback]

theorem service_valid_of_nil (hlaws : UrlLaws url) {body : PackService} {name : String}
    (hnil : validate_service url name body = []) (hscan : scan_service name body = []) {slug : Slug} {s : Service}
    (h : service_from_pack url owner_id slug body = .ok s) : ServiceValid url s := by
  simp only [service_from_pack, bind_eq_ok, pure_eq_ok] at h
  obtain ⟨base_url, hbase, origins, horigins, rfl⟩ := h
  have hbase : url.parse body.base_url = .ok base_url := mapError_eq_ok.mp hbase
  have hpoint : ∀ {text o}, parse_origin url text = .ok o ↔ Origin.from_str url text = .ok o := mapError_eq_ok
  have hread : ∀ o ∈ origins, Origin.from_str url o.ascii_serialization = .ok o := by
    intro o ho
    obtain ⟨text, _, htext⟩ := pointwise.exists_left (mapM_eq_ok.mp horigins) ho
    exact hlaws.from_str (hpoint.mp htext)
  refine ⟨?_, fun o ho => hread o (Origin.mem_of_mem_collect ho), (scan_service_nil_iff name body).mp hscan⟩
  obtain ⟨base_url', hbase', hsame⟩ := hlaws.reparse hbase
  refine ⟨base_url', hbase', fun origin horigin => ?_⟩
  rw [origin_of_congr hsame] at horigin
  simp only [validate_service, hbase, horigin, List.append_eq_nil_iff, ite_nil_iff] at hnil
  obtain ⟨text, htext, hfound⟩ := List.any_eq_true.mp hnil.2
  cases hparsed : Origin.from_str url text with
  | error e =>
    rw [hparsed] at hfound
    cases hfound
  | ok o =>
    rw [hparsed] at hfound
    obtain rfl := of_decide_eq_true hfound
    obtain ⟨o', ho', hread'⟩ := pointwise.exists_right (mapM_eq_ok.mp horigins) htext
    obtain rfl := Except.ok.inj (hparsed.symm.trans (hpoint.mp hread'))
    exact mem_collect_origins hread ho'

theorem param_from_pack_kept {p : PackParam} {q : Param} (h : param_from_pack pointer_error p = .ok q) :
    q.default = p.default ∧ (q.location = .Path ↔ p.location = .Path) ∧ (q.location = .Header ↔ p.location = .Header) := by
  simp only [param_from_pack, bind_eq_ok, pure_eq_ok] at h
  obtain ⟨location, hlocation, ty, _, rfl⟩ := h
  refine ⟨rfl, ?_⟩
  dsimp only
  cases hp : p.location with
  | Body pointer =>
    rw [hp] at hlocation
    obtain ⟨read, _, rfl⟩ := map_eq_ok.mp hlocation
    simp
  | _ =>
    rw [hp] at hlocation
    obtain rfl := Except.ok.inj hlocation
    simp

theorem projection_paths_of_nil {given : PackProjection} {read : Projection} {name : String}
    (h : projection_from_pack given = .ok read)
    (hfields : ∀ field ∈ given.fields, validate_projection_field json name field = []) :
    ∀ f ∈ read.fields, ∃ path, json.parse_path f.path = .ok path := by
  intro f hf
  simp only [projection_from_pack, bind_eq_ok, pure_eq_ok] at h
  obtain ⟨fields, hmade, rfl⟩ := h
  obtain ⟨field, hfield, hfrom⟩ := pointwise.exists_left (mapM_eq_ok.mp hmade) hf
  simp only [projection_field_from_pack, bind_eq_ok, pure_eq_ok] at hfrom
  obtain ⟨_, _, rfl⟩ := hfrom
  have hchecked := hfields field hfield
  unfold validate_projection_field at hchecked
  split at hchecked
  · rename_i path hpath
    exact ⟨path, hpath⟩
  · cases hchecked

theorem api_call_valid_of_nil {body : PackApiCall} {name : String} (hnil : validate_api_call json p name body = [])
    (hscan : scan_api_call name body = []) {slug service_slug : Slug} {c : ApiCall}
    (h : api_call_from_pack pointer_error owner_id slug service_slug body = .ok c) : ApiCallValid json c := by
  simp only [api_call_from_pack, bind_eq_ok, pure_eq_ok] at h
  obtain ⟨_, _, _, _, projection, hprojection, _, _, params, hparams, rfl⟩ := h
  have hparams := mapM_eq_ok.mp hparams
  have hclean := (scan_api_call_nil_iff name body).mp hscan
  have hgiven : ∀ q ∈ params, ∃ p ∈ body.params, param_from_pack pointer_error p = .ok q :=
    fun q hq => pointwise.exists_left hparams hq
  simp only [validate_api_call, List.append_eq_nil_iff] at hnil
  obtain ⟨⟨⟨⟨_, htemplate⟩, hfields⟩, _⟩, hheaders⟩ := hnil
  refine ⟨?_, ?_, fun q hq hlocation => ?_, hclean.query_fixed, hclean.body_template, fun q hq => ?_⟩
  · cases hparse : UrlTemplate.parse body.path_template with
    | error e =>
      rw [hparse] at htemplate
      cases htemplate
    | ok template =>
      rw [hparse] at htemplate
      refine ⟨template, rfl, fun name => (validate_path_params_nil_iff.mp htemplate name).trans ?_⟩
      constructor
      · rintro ⟨p, hp, hlocation, hname⟩
        obtain ⟨q, hq, hread⟩ := pointwise.exists_right hparams hp
        exact ⟨q, hq, (param_from_pack_kept hread).2.1.mpr hlocation, (param_from_pack_eq hread).1.trans hname⟩
      · rintro ⟨q, hq, hlocation, hname⟩
        obtain ⟨p, hp, hread⟩ := hgiven q hq
        exact ⟨p, hp, (param_from_pack_kept hread).2.1.mp hlocation, (param_from_pack_eq hread).1.symm.trans hname⟩
  · rintro read rfl f hf
    cases hpack : body.projection with
    | none =>
      rw [hpack] at hprojection
      cases hprojection
    | some given =>
      rw [hpack] at hprojection hfields
      obtain ⟨read', hread, heq⟩ := map_eq_ok.mp (hprojection : some <$> projection_from_pack given = .ok (some read))
      obtain rfl := Option.some.inj heq
      exact projection_paths_of_nil hread (List.flatMap_eq_nil_iff.mp hfields) f hf
  · obtain ⟨p, hp, hread⟩ := hgiven q hq
    have hheader := List.flatMap_eq_nil_iff.mp hheaders p hp
    simp only [validate_param, List.append_eq_nil_iff, nil_ite_iff, Bool.and_eq_true, decide_eq_true_eq, not_and,
      Bool.not_eq_true, Bool.not_eq_false'] at hheader
    rw [(param_from_pack_eq hread).1]
    exact hheader.2 ((param_from_pack_kept hread).2.2.mp hlocation)
  · obtain ⟨p, hp, hread⟩ := hgiven q hq
    rw [(param_from_pack_kept hread).1, (param_from_pack_eq hread).2.2.1]
    exact hclean.params p hp

theorem script_valid_of_nil {body : PackScript} {name : String} (hscan : scan_script name body = []) {slug : Slug}
    {s : ScriptDef} (h : script_from_pack pointer_error owner_id slug body = .ok s) : ScriptValid s := by
  simp only [script_from_pack, bind_eq_ok, pure_eq_ok] at h
  obtain ⟨_, _, params, hparams, rfl⟩ := h
  intro q hq
  obtain ⟨p, hp, hread⟩ := pointwise.exists_left (mapM_eq_ok.mp hparams) hq
  rw [(param_from_pack_kept hread).1]
  exact (scan_script_nil_iff name body).mp hscan p hp

theorem endpoint_valid {body : PackEndpoint} {slug : Slug} {e : EndpointDef}
    (h : endpoint_from_pack owner_id slug body = .ok e) : resolve.tag_expr.Plain e.tag_expr := by
  simp only [endpoint_from_pack, bind_eq_ok, pure_eq_ok] at h
  obtain ⟨tag_expr, hparse, _, _, _, _, _, _, rfl⟩ := h
  exact resolve.tag_expr.plain_of_parse (mapError_eq_ok.mp hparse)

/-- What is stored of a valid definition is valid. -/
theorem Valid.stored {d : Definition} (h : Valid url json d) : Valid url json d.stored := by
  cases d with
  | service s => exact ⟨h.base_url, h.origins, h.headers⟩
  | api_call t =>
    have hmem : ∀ q, q ∈ (store.api_call.stored t.api_call).params ↔
        ∃ p ∈ t.api_call.params, store.api_call.param_stored p = q := fun q =>
      (List.perm_insertionSort _ _).mem_iff.trans List.mem_map
    obtain ⟨template, htemplate, hpath⟩ := h.path
    refine ⟨⟨template, htemplate, fun name => (hpath name).trans ?_⟩, h.projection, fun q hq hlocation => ?_,
      h.query_fixed, h.body_template, fun q hq => ?_⟩
    · constructor
      · rintro ⟨p, hp, hlocation, hname⟩
        exact ⟨_, (hmem _).mpr ⟨p, hp, rfl⟩, hlocation, hname⟩
      · rintro ⟨q, hq, hlocation, hname⟩
        obtain ⟨p, hp, rfl⟩ := (hmem q).mp hq
        exact ⟨p, hp, hlocation, hname⟩
    · obtain ⟨p, hp, rfl⟩ := (hmem q).mp hq
      exact h.headers p hp hlocation
    · obtain ⟨p, hp, rfl⟩ := (hmem q).mp hq
      exact h.params p hp
  | script t =>
    intro q hq
    obtain ⟨p, hp, rfl⟩ := List.mem_map.mp ((List.perm_insertionSort _ _).mem_iff.mp hq)
    exact h p hp
  | endpoint e => exact h

end

/-! A pack of valid definitions. -/

/-- The definition that a target names. -/
def target_key (owner_id : Uuid) : EndpointTarget → Key
  | .ApiCall slug => .api_call owner_id slug
  | .Script slug => .script owner_id slug

/-- Definitions of one owner, each valid and taken by the tables, with all that
they name. -/
structure Whole (url : net.UrlCrate) (json : JsonCrate) (owner_id : Uuid) (P : Definition → Prop) : Prop where
  valid : ∀ d, P d → Valid url json d
  wf : ∀ d, P d → d.Wf
  fits : ∀ d, P d → d.Fits
  owner : ∀ d, P d → d.key.owner_id = owner_id
  refs : ∀ d, P d → ∀ key ∈ d.refs, ∃ d', P d' ∧ d'.key = key

section

variable {url : net.UrlCrate} {json : JsonCrate} {p : Pack}

theorem validate_ok_iff : validate url json p = .ok () ↔ validation_errors url json p = [] := by
  unfold validate
  dsimp only
  cases validation_errors url json p with
  | nil => simp
  | cons e errors => simp

variable {owner_id : Uuid} {P : Definition → Prop}

namespace Pack.Carries

theorem contains_service (h : p.Carries P) {slug : Slug} :
    p.services.contains_key slug.as_str = true ↔ ∃ s, P (.service s) ∧ s.slug = slug := by
  rw [BTreeMap.contains_key_iff]
  constructor
  · rintro ⟨value, hvalue⟩
    obtain ⟨s, hs, heq⟩ := (h.services _).mp hvalue
    exact ⟨s, hs, Slug.ext_str (congrArg Prod.fst heq).symm⟩
  · rintro ⟨s, hs, rfl⟩
    exact ⟨_, (h.services _).mpr ⟨s, hs, rfl⟩⟩

theorem contains_api_call (h : p.Carries P) {slug : Slug} :
    p.api_calls.contains_key slug.as_str = true ↔ ∃ t, P (.api_call t) ∧ t.api_call.slug = slug := by
  rw [BTreeMap.contains_key_iff]
  constructor
  · rintro ⟨value, hvalue⟩
    obtain ⟨t, ht, heq⟩ := (h.api_calls _).mp hvalue
    exact ⟨t, ht, Slug.ext_str (congrArg Prod.fst heq).symm⟩
  · rintro ⟨t, ht, rfl⟩
    exact ⟨_, (h.api_calls _).mpr ⟨t, ht, rfl⟩⟩

theorem contains_script (h : p.Carries P) {slug : Slug} :
    p.scripts.contains_key slug.as_str = true ↔ ∃ t, P (.script t) ∧ t.script.slug = slug := by
  rw [BTreeMap.contains_key_iff]
  constructor
  · rintro ⟨value, hvalue⟩
    obtain ⟨t, ht, heq⟩ := (h.scripts _).mp hvalue
    exact ⟨t, ht, Slug.ext_str (congrArg Prod.fst heq).symm⟩
  · rintro ⟨t, ht, rfl⟩
    exact ⟨_, (h.scripts _).mpr ⟨t, ht, rfl⟩⟩

/-- A target is in the pack exactly if its definition is. -/
theorem missing_iff (h : p.Carries P) (howner : ∀ d, P d → d.key.owner_id = owner_id) {target : EndpointTarget} :
    (endpoint_target_to_pack target).missing p = false ↔ ∃ d, P d ∧ d.key = target_key owner_id target := by
  cases target with
  | ApiCall slug =>
    change (!p.api_calls.contains_key slug.as_str) = false ↔ _
    rw [Bool.not_eq_false', h.contains_api_call]
    constructor
    · rintro ⟨t, ht, rfl⟩
      exact ⟨_, ht, congrArg (Key.api_call · t.api_call.slug) (howner _ ht)⟩
    · rintro ⟨d, hd, hkey⟩
      cases d with
      | api_call t => exact ⟨t, hd, (Key.api_call.inj hkey).2⟩
      | _ => cases hkey
  | Script slug =>
    change (!p.scripts.contains_key slug.as_str) = false ↔ _
    rw [Bool.not_eq_false', h.contains_script]
    constructor
    · rintro ⟨t, ht, rfl⟩
      exact ⟨_, ht, congrArg (Key.script · t.script.slug) (howner _ ht)⟩
    · rintro ⟨d, hd, hkey⟩
      cases d with
      | script t => exact ⟨t, hd, (Key.script.inj hkey).2⟩
      | _ => cases hkey

end Pack.Carries

/-- The pack of what is whole passes the validator exactly if the aliases of its
endpoints lead to what is in it. -/
theorem validate_carried_iff (hcarries : p.Carries P) (hwhole : Whole url json owner_id P) :
    validate url json p = .ok () ↔
      ∀ e, P (.endpoint e) → ∀ kv ∈ e.aliases, ∃ d, P d ∧ d.key = target_key owner_id kv.2 := by
  have hservice : ∀ t, P (.api_call t) → p.services.contains_key t.api_call.service_slug.as_str = true := by
    intro t ht
    obtain ⟨d, hd, hkey⟩ := hwhole.refs _ ht _ (List.mem_singleton_self _)
    cases d with
    | service s => exact hcarries.contains_service.mpr ⟨s, hd, (Key.service.inj hkey).2⟩
    | _ => cases hkey
  have hcallable : ∀ t, P (.script t) → ∀ kv ∈ t.script.callable, p.api_calls.contains_key kv.2.as_str = true := by
    intro t ht kv hkv
    obtain ⟨d, hd, hkey⟩ := hwhole.refs _ ht _ (List.mem_map_of_mem hkv)
    cases d with
    | api_call c => exact hcarries.contains_api_call.mpr ⟨c, hd, (Key.api_call.inj hkey).2⟩
    | _ => cases hkey
  have hendpoint : ∀ e, P (.endpoint e) → ∀ slug, validate_endpoint p slug (endpoint_to_pack e) = [] ↔
      ∀ kv ∈ e.aliases, ∃ d, P d ∧ d.key = target_key owner_id kv.2 := by
    intro e he slug
    rw [validate_endpoint_nil_iff (hwhole.valid _ he) (hwhole.wf _ he).1]
    exact forall₂_congr fun kv _ => hcarries.missing_iff hwhole.owner
  have hscan : scan p = [] := by
    simp only [scan, List.append_eq_nil_iff, List.flatMap_eq_nil_iff]
    refine ⟨⟨fun entry hentry => ?_, fun entry hentry => ?_⟩, fun entry hentry => ?_⟩
    · obtain ⟨s, hs, rfl⟩ := (hcarries.services entry).mp hentry
      exact (scan_service_nil_iff _ _).mpr (hwhole.valid _ hs).headers
    · obtain ⟨t, ht, rfl⟩ := (hcarries.api_calls entry).mp hentry
      exact scan_api_call_of_valid (hwhole.valid _ ht) t.tags _
    · obtain ⟨t, ht, rfl⟩ := (hcarries.scripts entry).mp hentry
      exact scan_script_of_valid (hwhole.valid _ ht) t.tags _
  have hvocabulary : validate_tag_vocabulary p = [] := if_pos hcarries.tags.symm
  rw [validate_ok_iff]
  simp only [validation_errors, List.append_eq_nil_iff, List.flatMap_eq_nil_iff, hscan, hvocabulary, and_true]
  constructor
  · rintro ⟨_, hendpoints⟩ e he
    exact (hendpoint e he _).mp (hendpoints _ ((hcarries.endpoints _).mpr ⟨e, he, rfl⟩)).2
  · intro haliases
    refine ⟨⟨⟨⟨if_neg (not_not.mpr hcarries.version), fun entry hentry => ?_⟩, fun entry hentry => ?_⟩,
      fun entry hentry => ?_⟩, fun entry hentry => ?_⟩
    · obtain ⟨s, hs, rfl⟩ := (hcarries.services entry).mp hentry
      exact ⟨check_slug_as_str _ s.slug, validate_service_of_valid (hwhole.valid _ hs) _⟩
    · obtain ⟨t, ht, rfl⟩ := (hcarries.api_calls entry).mp hentry
      exact ⟨check_slug_as_str _ t.api_call.slug,
        validate_api_call_of_valid (hwhole.valid _ ht) (hwhole.fits _ ht) (hservice t ht) _⟩
    · obtain ⟨t, ht, rfl⟩ := (hcarries.scripts entry).mp hentry
      exact ⟨check_slug_as_str _ t.script.slug, validate_script_of_valid (hwhole.fits _ ht) (hcallable t ht) _⟩
    · obtain ⟨e, he, rfl⟩ := (hcarries.endpoints entry).mp hentry
      exact ⟨check_slug_as_str _ e.slug, (hendpoint e he _).mpr (haliases e he)⟩

end

/-! What the entries of a valid pack are read as. -/

section

variable {url : net.UrlCrate} {json : JsonCrate} {pointer_error : String → String} {p : Pack} {owner_id : Uuid}
  {d : Definition}

/-- The definitions that the aliases of an endpoint lead to. -/
def alias_keys : Definition → List Key
  | .endpoint e => e.aliases.map fun kv => target_key e.owner_id kv.2
  | _ => []

theorem service_item_valid (hlaws : UrlLaws url) (h : validation_errors url json p = []) {entry : String × PackService}
    (hentry : entry ∈ p.services) (hitem : service_item url owner_id entry = .ok d) :
    d.Wf ∧ Valid url json d ∧ alias_keys d = [] := by
  simp only [validation_errors, scan, List.append_eq_nil_iff, List.flatMap_eq_nil_iff] at h
  obtain ⟨⟨⟨⟨⟨⟨_, hchecked⟩, _⟩, _⟩, _⟩, _⟩, ⟨hscanned, _⟩, _⟩ := h
  have hwf := (service_item_named hitem).1
  simp only [service_item, bind_eq_ok, pure_eq_ok] at hitem
  obtain ⟨slug, _, s, hs, rfl⟩ := hitem
  exact ⟨hwf, service_valid_of_nil hlaws (hchecked entry hentry).2 (hscanned entry hentry) hs, rfl⟩

theorem api_call_item_valid (h : validation_errors url json p = []) {entry : String × PackApiCall}
    (hentry : entry ∈ p.api_calls) (hitem : api_call_item pointer_error owner_id entry = .ok d) :
    d.Wf ∧ Valid url json d ∧ alias_keys d = [] := by
  simp only [validation_errors, scan, List.append_eq_nil_iff, List.flatMap_eq_nil_iff] at h
  obtain ⟨⟨⟨⟨⟨_, hchecked⟩, _⟩, _⟩, _⟩, ⟨_, hscanned⟩, _⟩ := h
  have hwf := (api_call_item_named hitem).1
  simp only [api_call_item, bind_eq_ok, pure_eq_ok] at hitem
  obtain ⟨slug, _, service_slug, _, c, hc, tags, _, rfl⟩ := hitem
  exact ⟨hwf, api_call_valid_of_nil (hchecked entry hentry).2 (hscanned entry hentry) hc, rfl⟩

theorem script_item_valid (h : validation_errors url json p = []) {entry : String × PackScript}
    (hentry : entry ∈ p.scripts) (hitem : script_item pointer_error owner_id entry = .ok d) :
    d.Wf ∧ Valid url json d ∧ alias_keys d = [] := by
  simp only [validation_errors, scan, List.append_eq_nil_iff, List.flatMap_eq_nil_iff] at h
  obtain ⟨_, _, hscanned⟩ := h
  have hwf := (script_item_named hitem).1
  simp only [script_item, bind_eq_ok, pure_eq_ok] at hitem
  obtain ⟨slug, _, s, hs, tags, _, rfl⟩ := hitem
  exact ⟨hwf, script_valid_of_nil (hscanned entry hentry) hs, rfl⟩

/-- The name of a definition of the pack. -/
def InPack (p : Pack) (owner_id : Uuid) : Key → Prop
  | .api_call owner slug => owner = owner_id ∧ ∃ call, (slug.as_str, call) ∈ p.api_calls
  | .script owner slug => owner = owner_id ∧ ∃ script, (slug.as_str, script) ∈ p.scripts
  | _ => False

/-- The aliases of an endpoint of a valid pack lead to what is in the pack. -/
theorem endpoint_item_valid (h : validation_errors url json p = []) {entry : String × PackEndpoint}
    (hentry : entry ∈ p.endpoints) (hitem : endpoint_item owner_id entry = .ok d) :
    d.Wf ∧ Valid url json d ∧ ∀ key ∈ alias_keys d, InPack p owner_id key := by
  simp only [validation_errors, List.append_eq_nil_iff, List.flatMap_eq_nil_iff] at h
  obtain ⟨⟨⟨_, hchecked⟩, _⟩, _⟩ := h
  have hwf := (endpoint_item_named hitem).1
  simp only [endpoint_item, bind_eq_ok, pure_eq_ok] at hitem
  obtain ⟨slug, _, e, he, rfl⟩ := hitem
  refine ⟨hwf, endpoint_valid he, ?_⟩
  simp only [endpoint_from_pack, bind_eq_ok, pure_eq_ok] at he
  obtain ⟨tag_expr, _, aliases, haliases, _, _, _, _, rfl⟩ := he
  have hthere : ∀ target ∈ entry.2.aliases.values, target.missing p = false := by
    have hnil := (hchecked entry hentry).2
    simp only [validate_endpoint, List.append_eq_nil_iff, List.flatMap_eq_nil_iff, nil_ite_iff, Bool.not_eq_true] at hnil
    exact hnil.2
  intro key hkey
  obtain ⟨kv, hkv, rfl⟩ := List.mem_map.mp hkey
  obtain ⟨given, hgiven, hread⟩ := pointwise.exists_left (mapM_eq_ok.mp haliases) (BTreeMap.mem_of_mem_collect hkv)
  simp only [bind_eq_ok, pure_eq_ok] at hread
  obtain ⟨target, htarget, rfl⟩ := hread
  have hgiven := hthere given.2 (List.mem_map_of_mem hgiven)
  cases hpack : given.2 with
  | ApiCall s =>
    rw [hpack] at htarget hgiven
    obtain ⟨target_slug, hslug, rfl⟩ := map_eq_ok.mp htarget
    refine ⟨rfl, BTreeMap.contains_key_iff.mp ?_⟩
    rw [parse_slug_eq_ok hslug]
    simpa [PackEndpointTarget.missing] using hgiven
  | Script s =>
    rw [hpack] at htarget hgiven
    obtain ⟨target_slug, hslug, rfl⟩ := map_eq_ok.mp htarget
    refine ⟨rfl, BTreeMap.contains_key_iff.mp ?_⟩
    rw [parse_slug_eq_ok hslug]
    simpa [PackEndpointTarget.missing] using hgiven

end

/-! Stores that valid packs fill. -/

/-- A definition that came with a valid pack, and all that it names. -/
structure Vetted (url : net.UrlCrate) (json : JsonCrate) (rows : Rows) (d : Definition) : Prop where
  valid : Valid url json d
  fits : d.Fits
  refs : ∀ key ∈ d.refs, Has rows key
  aliases : ∀ key ∈ alias_keys d, Has rows key

structure AllVetted (url : net.UrlCrate) (json : JsonCrate) (rows : Rows) : Prop where
  intact : Intact rows
  vetted : ∀ d, Holds rows d → Vetted url json rows d

section

variable {url : net.UrlCrate} {json : JsonCrate} {pointer_error : String → String} {keys : NewKeys} {rows rows' : Rows}
  {p : Pack} {owner_id : Uuid} {dry_run : Bool}

theorem alias_keys_stored (d : Definition) : alias_keys d.stored = alias_keys d := by
  cases d <;> rfl

theorem Vetted.mono {d : Definition} (h : Vetted url json rows d) (hmore : ∀ key, Has rows key → Has rows' key) :
    Vetted url json rows' d where
  valid := h.valid
  fits := h.fits
  refs key hkey := hmore key (h.refs key hkey)
  aliases key hkey := hmore key (h.aliases key hkey)

theorem AllVetted.put (h : AllVetted url json rows) {found : Option Definition} {d : Definition}
    (hputs : Puts keys found d rows rows') (hwf : d.Wf) (hvalid : Valid url json d)
    (htargets : ∀ key ∈ alias_keys d, Has rows key) :
    AllVetted url json rows' ∧ ∀ key, Has rows key → Has rows' key := by
  have hupserts := hputs.upserts h.intact hwf
  have hmore : ∀ key, Has rows key → Has rows' key := fun key hkey => (hupserts.has_iff key).mpr (.inr hkey)
  obtain ⟨hfits, _, _, hrefs⟩ := Definition.taken_of_puts h.intact hwf hputs
  refine ⟨⟨hputs.intact h.intact, fun x hx => ?_⟩, hmore⟩
  obtain rfl | ⟨hheld, _⟩ := (hupserts x).mp hx
  · have hd : Vetted url json rows d.stored :=
      { valid := hvalid.stored
        fits := hfits.stored
        refs := by rwa [d.refs_stored]
        aliases := by rwa [alias_keys_stored] }
    exact hd.mono hmore
  · exact (h.vetted x hheld).mono hmore

variable {α : Type} {item : String × α → Except ConvertError Definition}

/-- A loop over entries that are valid leaves what is vetted, wherever it stops. -/
theorem AllVetted.entries {known : Key → Prop} (h : AllVetted url json rows) (hknown : ∀ key, known key → Has rows key)
    {entries : List (String × α)} (hitem : ∀ entry ∈ entries, ∀ d, item entry = .ok d →
      d.Wf ∧ Valid url json d ∧ ∀ key ∈ alias_keys d, known key) :
    AllVetted url json (after (entries.mapM (import_entry keys dry_run item)) rows) := by
  have hloop : AllVetted url json (after (entries.mapM (import_entry keys dry_run item)) rows) ∧
      ∀ key, known key → Has (after (entries.mapM (import_entry keys dry_run item)) rows) key := by
    refine after_mapM (P := fun rows => AllVetted url json rows ∧ ∀ key, known key → Has rows key)
      (fun entry hentry rows hrows => ?_) ⟨h, hknown⟩
    obtain ⟨hvetted, hheld⟩ := hrows
    obtain hsame | ⟨_, d, found, hread, hputs⟩ := @after_import_entry keys rows dry_run _ item entry
    · rw [hsame]
      exact ⟨hvetted, hheld⟩
    · obtain ⟨hwf, hvalid, htargets⟩ := hitem entry hentry d hread
      obtain ⟨hafter, hmore⟩ := hvetted.put hputs hwf hvalid fun key hkey => hheld key (htargets key hkey)
      exact ⟨hafter, fun key hkey => hmore key (hheld key hkey)⟩
  exact hloop.1

/-- So does one over entries whose definitions have no aliases. -/
theorem AllVetted.entries_unaliased (h : AllVetted url json rows) {entries : List (String × α)}
    (hitem : ∀ entry ∈ entries, ∀ d, item entry = .ok d → d.Wf ∧ Valid url json d ∧ alias_keys d = []) :
    AllVetted url json (after (entries.mapM (import_entry keys dry_run item)) rows) := by
  have hnone : ∀ key : Key, False → Has rows key := fun _ hfalse => hfalse.elim
  refine h.entries hnone fun entry hentry d hd => ?_
  obtain ⟨hwf, hvalid, hnil⟩ := hitem entry hentry d hd
  exact ⟨hwf, hvalid, by simp [hnil]⟩

/-- What the pack names is there once its api_calls and scripts are. -/
theorem has_of_inPack {key : Key} (hkey : InPack p owner_id key)
    (hcalls : ∀ slug call, (Slug.as_str slug, call) ∈ p.api_calls → Has rows (.api_call owner_id slug))
    (hscripts : ∀ slug script, (Slug.as_str slug, script) ∈ p.scripts → Has rows (.script owner_id slug)) :
    Has rows key := by
  cases key with
  | api_call owner slug =>
    obtain ⟨rfl, call, hentry⟩ := hkey
    exact hcalls slug call hentry
  | script owner slug =>
    obtain ⟨rfl, script, hentry⟩ := hkey
    exact hscripts slug script hentry
  | service owner slug => exact hkey.elim
  | endpoint owner slug => exact hkey.elim

/-- An import of a valid pack leaves what is vetted, also where it fails. -/
theorem AllVetted.import_pack (hlaws : UrlLaws url) (hvalid : validate url json p = .ok ())
    (h : AllVetted url json rows) :
    AllVetted url json (after (import_pack url pointer_error keys p dry_run owner_id) rows) := by
  have hnil := validate_ok_iff.mp hvalid
  cases dry_run with
  | true => rwa [after_dry_run]
  | false =>
    have hafter : AllVetted url json (after (p.services.mapM
        (import_entry keys false (service_item url owner_id))) rows) :=
      h.entries_unaliased fun _ hentry _ => service_item_valid hlaws hnil hentry
    refine after_bind hafter fun ss mid hss => ?_
    rw [hss.after] at hafter
    have hafter' : AllVetted url json (after (p.api_calls.mapM
        (import_entry keys false (api_call_item pointer_error owner_id))) mid) :=
      hafter.entries_unaliased fun _ hentry _ => api_call_item_valid hnil hentry
    refine after_bind hafter' fun cs mid' hcs => ?_
    rw [hcs.after] at hafter'
    obtain ⟨_, hcalls⟩ := has_of_entries (fun _ _ => api_call_item_named) hafter.intact hcs
    have hlast : AllVetted url json (after (p.scripts.mapM
        (import_entry keys false (script_item pointer_error owner_id))) mid') :=
      hafter'.entries_unaliased fun _ hentry _ => script_item_valid hnil hentry
    refine after_bind hlast fun ts last hts => ?_
    rw [hts.after] at hlast
    obtain ⟨hmore, hscripts⟩ := has_of_entries (fun _ _ => script_item_named) hafter'.intact hts
    have hnames : ∀ key, InPack p owner_id key → Has last key := fun key hkey =>
      has_of_inPack hkey (fun slug call hentry => hmore _ (hcalls slug call hentry)) hscripts
    have hdone : AllVetted url json (after (p.endpoints.mapM
        (import_entry keys false (endpoint_item owner_id))) last) :=
      hlast.entries hnames fun _ hentry _ => endpoint_item_valid hnil hentry
    refine after_bind hdone fun es done hes => ?_
    rw [hes.after] at hdone
    exact hdone

theorem AllVetted.linked (h : AllVetted url json rows) : Linked rows := fun d hd => (h.vetted d hd).refs

theorem AllVetted.empty : AllVetted url json {} where
  intact := Intact.empty
  vetted d hd := absurd hd (not_holds_empty d)

/-- What is exported of what is vetted is a valid pack. -/
theorem AllVetted.export_valid (h : AllVetted url json rows) {slug : Slug}
    (hexport : Query.Yields (· = rows) (export_endpoint owner_id slug) p) : validate url json p = .ok () := by
  obtain ⟨e, he, rfl, rfl, hcarries⟩ := (yields_export_endpoint h.intact h.linked).mp hexport
  have hendpoint := h.vetted _ he
  have hwhole : Whole url json e.owner_id (Exported rows e) :=
    { valid := by
        rintro d (rfl | hneeded)
        · exact hendpoint.valid
        · exact (h.vetted d hneeded.held).valid
      wf := by
        rintro d (rfl | hneeded)
        · exact ⟨he.wf.1, .nil⟩
        · exact hneeded.held.wf
      fits := by
        rintro d (rfl | hneeded)
        · exact hendpoint.fits
        · exact (h.vetted d hneeded.held).fits
      owner := fun _ hd => exported_owner hd
      refs := fun _ hd _ hkey => exported_refs h.linked hd hkey }
  refine (validate_carried_iff hcarries hwhole).mpr fun e' he' kv hkv => ?_
  rw [exported_endpoint_iff.mp he'] at hkv
  obtain ⟨x, hx, hkey⟩ := hendpoint.aliases _ (List.mem_map_of_mem hkv)
  refine ⟨x, .inr (.selected hx ?_), hkey⟩
  have hvalue : kv.2 ∈ e.aliases.values := List.mem_map_of_mem hkv
  cases htarget : kv.2 with
  | ApiCall slug =>
    rw [htarget] at hkey hvalue
    cases x with
    | api_call t =>
      obtain ⟨howner, rfl⟩ := Key.api_call.inj hkey
      exact ⟨howner, .inr hvalue⟩
    | _ => cases hkey
  | Script slug =>
    rw [htarget] at hkey hvalue
    cases x with
    | script t =>
      obtain ⟨howner, rfl⟩ := Key.script.inj hkey
      exact ⟨howner, .inr hvalue⟩
    | _ => cases hkey

end

end api2mcp.pack
