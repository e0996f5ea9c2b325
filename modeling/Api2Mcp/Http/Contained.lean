import Api2Mcp.Control.Except
import Api2Mcp.Http.Bind
import Mathlib.Data.List.Forall2

namespace api2mcp.http

open btree net serde_json
open api2mcp.model

/-! Paths, as the lists of their segments. -/

/-- The segments of a path; the root has none. -/
def path_segments (path : String) : List (List Char) :=
  if path = "/" then [] else split_slash (path.toList.drop 1)

theorem split_slash_ne_nil (cs : List Char) : split_slash cs ≠ [] := by
  cases cs with
  | nil => simp [split_slash]
  | cons c rest =>
    unfold split_slash
    split
    · simp
    · split <;> simp

/-- A piece between slashes has none. -/
theorem slash_notMem_split {cs piece : List Char} (h : piece ∈ split_slash cs) : '/' ∉ piece := by
  induction cs generalizing piece with
  | nil =>
    obtain rfl : piece = [] := by simpa [split_slash] using h
    simp
  | cons c rest ih =>
    unfold split_slash at h
    split at h
    · obtain rfl | hrest := List.mem_cons.mp h
      · simp
      · exact ih hrest
    · rename_i hc
      split at h
      · rename_i hnil
        exact absurd hnil (split_slash_ne_nil rest)
      · rename_i first others hsplit
        obtain rfl | hrest := List.mem_cons.mp h
        · have hfirst := ih (hsplit ▸ List.mem_cons_self ..)
          simp [hfirst, Ne.symm hc]
        · exact ih (hsplit ▸ List.mem_cons_of_mem _ hrest)

theorem split_slash_of_notMem {text : List Char} (h : '/' ∉ text) : split_slash text = [text] := by
  induction text with
  | nil => rfl
  | cons c rest ih =>
    simp only [List.mem_cons, not_or] at h
    rw [split_slash, if_neg (Ne.symm h.1), ih h.2]

theorem split_slash_append {text rest : List Char} (h : '/' ∉ text) :
    split_slash (text ++ '/' :: rest) = text :: split_slash rest := by
  induction text with
  | nil => simp [split_slash]
  | cons c text ih =>
    simp only [List.mem_cons, not_or] at h
    rw [List.cons_append, split_slash, if_neg (Ne.symm h.1), ih h.2]

/-- The pieces that were joined come back. -/
theorem split_slash_join {text : List Char} {texts : List (List Char)}
    (h : ∀ t ∈ text :: texts, '/' ∉ t) :
    split_slash (text ++ texts.flatMap fun t => '/' :: t) = text :: texts := by
  induction texts generalizing text with
  | nil =>
    rw [List.flatMap_nil, List.append_nil]
    exact split_slash_of_notMem (h text (List.mem_cons_self ..))
  | cons next texts ih =>
    rw [List.flatMap_cons, List.cons_append, split_slash_append (h text (List.mem_cons_self ..)),
      ih fun t ht => h t (List.mem_cons_of_mem _ ht)]

/-! Templates: literals stay whole, and rendered values have no slash. -/

/-- A parsed segment is a text without slashes, or a placeholder. -/
theorem literal_of_parse_segment {raw : List Char} {text : String} (hne : raw ≠ [])
    (hslash : '/' ∉ raw) (h : parse_segment (String.ofList raw) = .ok (.Literal text)) :
    '/' ∉ text.toList ∧ text.toList ≠ [] := by
  unfold parse_segment at h
  dsimp only at h
  split at h
  · split at h
    · split at h <;> cases h
    · cases h
  split at h
  · cases h
  split at h
  · cases h
  · cases h
    rw [String.toList_ofList]
    exact ⟨hslash, hne⟩

theorem literals_of_parse_segments {raws : List (List Char)} {seen : List String}
    {segments : List Segment} (hslash : ∀ raw ∈ raws, '/' ∉ raw)
    (h : parse_segments raws seen = .ok segments) :
    segments.length = raws.length ∧
      ∀ text, .Literal text ∈ segments → '/' ∉ text.toList ∧ text.toList ≠ [] := by
  induction raws generalizing seen segments with
  | nil =>
    cases h
    simp
  | cons raw rest ih =>
    unfold parse_segments at h
    split at h
    · cases h
    rename_i hne
    have hrest : ∀ r ∈ rest, '/' ∉ r := fun r hr => hslash r (List.mem_cons_of_mem _ hr)
    have hmap : ∀ {seen' : List String} {segment : Segment},
        (parse_segments rest seen').map (segment :: ·) = .ok segments →
        (∀ text, segment = .Literal text → '/' ∉ text.toList ∧ text.toList ≠ []) →
        segments.length = (raw :: rest).length ∧
          ∀ text, .Literal text ∈ segments → '/' ∉ text.toList ∧ text.toList ≠ [] := by
      intro seen' segment hmapped hsegment
      cases hparsed : parse_segments rest seen' with
      | error e =>
        rw [hparsed] at hmapped
        cases hmapped
      | ok others =>
        rw [hparsed] at hmapped
        cases hmapped
        obtain ⟨hlength, hothers⟩ := ih hrest hparsed
        refine ⟨by simp [hlength], fun text htext => ?_⟩
        obtain heq | hmem := List.mem_cons.mp htext
        · exact hsegment text heq.symm
        · exact hothers text hmem
    split at h
    · cases h
    · split at h
      · cases h
      · exact hmap h fun text heq => (by cases heq)
    · rename_i literal hliteral
      refine hmap h fun text heq => ?_
      cases heq
      exact literal_of_parse_segment (by simpa using hne) (hslash raw (List.mem_cons_self ..)) hliteral

theorem UrlTemplate.literals_of_parse {template : String} {parsed : UrlTemplate}
    (h : UrlTemplate.parse template = .ok parsed) :
    ∀ text, .Literal text ∈ parsed.segments → '/' ∉ text.toList ∧ text.toList ≠ [] := by
  unfold UrlTemplate.parse at h
  dsimp only at h
  split at h
  · cases h
  split at h
  · cases h
  split at h
  · cases h
  split at h
  · cases h
  split at h
  · cases h
    simp
  · cases hparsed : parse_segments (split_slash (template.toList.drop 1)) [] with
    | error e =>
      rw [hparsed] at h
      cases h
    | ok segments =>
      rw [hparsed] at h
      cases h
      exact (literals_of_parse_segments (fun _ => slash_notMem_split) hparsed).2

theorem slash_notMem_utf8_percent_encode (value : String) : '/' ∉ utf8_percent_encode value := by
  intro h
  obtain heq | ⟨n, hn, heq⟩ | ⟨b, hascii, hkept, heq⟩ := percent.mem_encode h
  · cases heq
  · have hall : ∀ n : Fin 16, '/' ≠ percent.hex n := by decide
    exact hall ⟨n, hn⟩ heq
  · have hbytes := percent.utf8EncodeChar_ofNat hascii
    rw [← heq] at hbytes
    have hslash : String.utf8EncodeChar '/' = [47] := by decide
    rw [hslash] at hbytes
    obtain rfl : 47 = b := by simpa using hbytes
    exact absurd hkept (by decide)

/-- An encoded value decodes to the bytes it was. -/
theorem decode_utf8_percent_encode (value : String) :
    percent.decode (utf8_percent_encode value) = utf8 value :=
  percent.decode_encode (by decide) _

theorem utf8_inj {s t : String} (h : utf8 s = utf8 t) : s = t := by
  have hdata : s.toUTF8.data = t.toUTF8.data := Array.toList_inj.mp h
  exact String.toByteArray_inj.mp (ByteArray.ext hdata)

/-- What a segment was filled with. -/
inductive Filled (values : BTreeMap String String) : Segment → List Char → Prop
  | literal (text : String) : Filled values (.Literal text) text.toList
  | placeholder (name value : String) : values.get name = some value → value ≠ "" →
      Filled values (.Placeholder name) (utf8_percent_encode value)

theorem filled_of_render_segment {values : BTreeMap String String} {segment : Segment}
    {text : List Char} (h : render_segment values segment = .ok text) : Filled values segment text := by
  cases segment with
  | Literal literal =>
    cases h
    exact .literal literal
  | Placeholder name =>
    unfold render_segment at h
    dsimp only at h
    split at h
    · cases h
    rename_i value hvalue
    split at h
    · cases h
    rename_i hvalid
    cases h
    refine .placeholder name value hvalue ?_
    rintro rfl
    simp [validate_value] at hvalid

theorem encode_ne_nil {value : String} (h : value ≠ "") : utf8_percent_encode value ≠ [] := by
  intro hnil
  have hdecode := decode_utf8_percent_encode value
  rw [hnil] at hdecode
  refine h (utf8_inj (?_ : utf8 value = utf8 ""))
  rw [← hdecode]
  rfl

/-- Rendering fills each segment, in order, and the path has these segments
and no others. -/
theorem UrlTemplate.segments_of_render {template : UrlTemplate} {values : BTreeMap String String}
    {path : String}
    (hliterals : ∀ text, .Literal text ∈ template.segments → '/' ∉ text.toList ∧ text.toList ≠ [])
    (h : template.render values = .ok path) :
    List.Forall₂ (Filled values) template.segments (path_segments path) := by
  unfold UrlTemplate.render at h
  split at h
  · rename_i hempty
    cases h
    rw [List.isEmpty_iff.mp hempty, path_segments, if_pos rfl]
    exact .nil
  rename_i hsegments
  cases htexts : template.segments.mapM (render_segment values) with
  | error e =>
    rw [htexts] at h
    cases h
  | ok texts =>
    rw [htexts] at h
    cases h
    have hfilled : List.Forall₂ (Filled values) template.segments texts :=
      (except.mapM_eq_ok.mp htexts).imp fun _ _ => filled_of_render_segment
    have htext : ∀ text ∈ texts, '/' ∉ text ∧ text ≠ [] := by
      intro text hmem
      obtain ⟨segment, hsegment, hrendered⟩ := except.exists_of_mem_mapM htexts hmem
      cases filled_of_render_segment hrendered with
      | literal literal => exact hliterals literal hsegment
      | placeholder name value _ hne =>
        exact ⟨slash_notMem_utf8_percent_encode value, encode_ne_nil hne⟩
    cases hlist : texts with
    | nil =>
      rw [hlist, List.forall₂_nil_right_iff] at hfilled
      exact absurd (List.isEmpty_iff.mpr hfilled) hsegments
    | cons first others =>
      rw [hlist] at htext hfilled
      have hroot : String.ofList ((first :: others).flatMap fun text => '/' :: text) ≠ "/" := by
        intro heq
        have hchars := congrArg String.toList heq
        rw [String.toList_ofList, List.flatMap_cons, List.cons_append] at hchars
        have hnil : first ++ others.flatMap (fun text => '/' :: text) = [] := by simpa using hchars
        exact (htext first (List.mem_cons_self ..)).2 (List.append_eq_nil_iff.mp hnil).1
      rw [path_segments, if_neg hroot, String.toList_ofList, List.flatMap_cons, List.cons_append,
        List.drop_succ_cons, List.drop_zero, split_slash_join fun t ht => (htext t ht).1]
      exact hfilled

/-! Requests. -/

section

variable {crate : UrlCrate} {values : ValueCrate} {call : ApiCall} {service : Service}
  {args : BTreeMap String Value} {request : BoundRequest}

/-- The text the caller's arguments give a path param. -/
def Supplied (values : ValueCrate) (call : ApiCall) (args : BTreeMap String Value)
    (name text : String) : Prop :=
  (∃ p ∈ call.params, p.location = .Path ∧ p.name = name) ∧
    ∃ value, args.get name = some value ∧ scalar_string values name value = .ok text

/-- A header of the call's own, with a text on one line. -/
def OwnHeader (call : ApiCall) (header : String × String) : Prop :=
  (∃ p ∈ call.params, p.location = .Header ∧ p.name = header.1) ∧
    ∀ c ∈ header.2.toList, c ≠ '\r' ∧ c ≠ '\n'

/-- What the params are routed to comes from the arguments. -/
structure Routed (values : ValueCrate) (call : ApiCall) (args : BTreeMap String Value)
    (parts : Parts) : Prop where
  path_values : ∀ name text, parts.path_values.get name = some text → Supplied values call args name text
  headers : ∀ header ∈ parts.headers, OwnHeader call header

theorem Routed.bind_param {parts parts' : Parts} {p : Param} (h : Routed values call args parts)
    (hp : p ∈ call.params) (hbind : bind_param values args parts p = .ok parts') :
    Routed values call args parts' := by
  unfold http.bind_param at hbind
  split at hbind
  · cases hbind
    exact h
  rename_i value hvalue
  unfold bind_one at hbind
  split at hbind
  · rename_i hlocation
    obtain ⟨text, htext, rfl⟩ : ∃ text, scalar_string values p.name value = .ok text ∧
        { parts with path_values := parts.path_values.insert p.name text } = parts' := by
      simpa using hbind
    refine ⟨fun name text' hget => ?_, h.headers⟩
    rw [BTreeMap.get_insert] at hget
    split at hget
    · rename_i hname
      subst hname
      obtain rfl : text = text' := by simpa using hget
      exact ⟨⟨p, hp, hlocation, rfl⟩, value, hvalue, htext⟩
    · exact h.path_values name text' hget
  · obtain ⟨text, _, rfl⟩ : ∃ text, query_strings values p.name value = .ok text ∧
        { parts with query_values := parts.query_values.insert p.name text } = parts' := by
      simpa using hbind
    exact ⟨h.path_values, h.headers⟩
  · rename_i hlocation
    split at hbind
    · cases hbind
    simp only [except.bind_eq_ok] at hbind
    obtain ⟨text, _, hbind⟩ := hbind
    split at hbind
    · cases hbind
    rename_i hline
    obtain rfl := except.pure_eq_ok.mp hbind
    refine ⟨h.path_values, fun header hheader => ?_⟩
    obtain rfl | hold := BTreeMap.mem_insert hheader
    · refine ⟨⟨p, hp, hlocation, rfl⟩, fun c hc => ?_⟩
      by_contra hbad
      exact hline (List.any_eq_true.mpr ⟨c, hc, by simp only [decide_eq_true_eq, Bool.or_eq_true]; tauto⟩)
    · exact h.headers header hold
  · rename_i pointer hlocation
    obtain ⟨body, _, rfl⟩ : ∃ body, assign_body values parts.body pointer value p.name = .ok body ∧
        { parts with body := some body } = parts' := by
      simpa using hbind
    exact ⟨h.path_values, h.headers⟩
  · cases hbind

/-- The segments of a call's path: literals as they stand, and encoded values. -/
def Spelled (values : ValueCrate) (call : ApiCall) (args : BTreeMap String Value) :
    Segment → List Char → Prop
  | .Literal text, segment => segment = text.toList
  | .Placeholder name, segment =>
    ∃ text, Supplied values call args name text ∧ percent.decode segment = utf8 text

/-- Where a bound request goes and what it carries. -/
structure Contained (values : ValueCrate) (call : ApiCall) (service : Service)
    (args : BTreeMap String Value) (request : BoundRequest) : Prop where
  scheme : request.url.scheme = service.base_url.scheme
  host : request.url.host_str = service.base_url.host_str
  port : request.url.port_or_known_default = service.base_url.port_or_known_default
  userinfo : request.url.username = "" ∧ request.url.password = none
  fragment : request.url.fragment = none
  path : ∃ template, UrlTemplate.parse call.path_template = .ok template ∧
    List.Forall₂ (Spelled values call args) template.segments (path_segments request.url.path)
  method : request.method = call.method
  headers : ∀ header ∈ request.headers, OwnHeader call header

theorem contained_of_assemble_url {path query : String} {url : Url}
    (h : assemble_url crate service path query = .ok url) :
    contained url service.base_url path = true := by
  unfold assemble_url at h
  dsimp only at h
  cases hhost : service.base_url.host with
  | none =>
    simp only [hhost] at h
    cases h
  | some host =>
    simp only [hhost] at h
    generalize crate.parse _ = answer at h
    cases answer with
    | error e => cases h
    | ok parsed =>
      by_cases hcontained : contained parsed service.base_url path = true
      · simp only [hcontained, if_true] at h
        cases h
        exact hcontained
      · simp only [hcontained] at h
        cases h

/-- What `bind` goes through: the template, the routing, the path and the URL. -/
theorem bind_spec (h : bind crate values call service args = .ok request) :
    ∃ template parts, UrlTemplate.parse call.path_template = .ok template ∧
      Routed values call args parts ∧
      (∃ path, template.render parts.path_values = .ok path ∧
        contained request.url service.base_url path = true) ∧
      request.method = call.method ∧ request.headers = parts.headers := by
  unfold bind at h
  simp only [except.bind_eq_ok, except.mapError_eq_ok, except.pure_eq_ok] at h
  obtain ⟨template, hparse, parts, hparts, path, hrender, url, hurl, rfl⟩ := h
  have hrouted : Routed values call args parts := by
    refine except.foldlM_inv (Routed values call args) hparts ⟨?_, ?_⟩ ?_
    · intro name text hget
      cases hget
    · simp
    · intro p hp _ _ hrouted hbind
      exact hrouted.bind_param hp hbind
  exact ⟨template, parts, hparse, hrouted, ⟨path, hrender, contained_of_assemble_url hurl⟩, rfl, rfl⟩

/-- What a rendered segment was filled with was supplied. -/
theorem spelled_of_filled {parts : Parts} (hrouted : Routed values call args parts) {segment : Segment}
    {text : List Char} (h : Filled parts.path_values segment text) :
    Spelled values call args segment text := by
  cases h with
  | literal literal => rfl
  | placeholder name value hget _ =>
    exact ⟨value, hrouted.path_values name value hget, decode_utf8_percent_encode value⟩

theorem contained_of_bind (h : bind crate values call service args = .ok request) :
    Contained values call service args request := by
  obtain ⟨template, parts, hparse, hrouted, ⟨path, hrender, hcontained⟩, hmethod, hheaders⟩ := bind_spec h
  simp only [contained, Bool.and_eq_true, decide_eq_true_eq, Option.isNone_iff_eq_none] at hcontained
  obtain ⟨⟨⟨⟨⟨⟨hscheme, hhost⟩, hport⟩, hpath⟩, husername⟩, hpassword⟩, hfragment⟩ := hcontained
  have hliterals := UrlTemplate.literals_of_parse hparse
  refine ⟨hscheme, hhost, hport, ⟨husername, hpassword⟩, hfragment, ⟨template, hparse, ?_⟩, hmethod, ?_⟩
  · rw [hpath]
    exact (UrlTemplate.segments_of_render hliterals hrender).imp fun _ _ => spelled_of_filled hrouted
  · rw [hheaders]
    exact hrouted.headers

/-- A segment tells the value it was spelled with. -/
theorem Spelled.unique {args' : BTreeMap String Value} {name text text' : String} {segment : List Char}
    (h : Spelled values call args (.Placeholder name) segment)
    (h' : Spelled values call args' (.Placeholder name) segment)
    (htext : Supplied values call args name text) (htext' : Supplied values call args' name text') :
    text = text' := by
  have hsame : ∀ {args : BTreeMap String Value} {a b : String}, Supplied values call args name a →
      Supplied values call args name b → a = b := by
    rintro args a b ⟨_, value, hvalue, ha⟩ ⟨_, value', hvalue', hb⟩
    rw [hvalue, Option.some.injEq] at hvalue'
    subst hvalue'
    rw [ha, Except.ok.injEq] at hb
    exact hb
  obtain ⟨a, ha, hdecode⟩ := h
  obtain ⟨b, hb, hdecode'⟩ := h'
  rw [hdecode] at hdecode'
  rw [hsame htext ha, hsame htext' hb]
  exact utf8_inj hdecode'

/-- Two lists spelled by one path agree on every placeholder. -/
theorem supplied_of_spelled {args' : BTreeMap String Value} {segments : List Segment}
    {texts : List (List Char)} (h : List.Forall₂ (Spelled values call args) segments texts)
    (h' : List.Forall₂ (Spelled values call args') segments texts) {name text text' : String}
    (hmem : .Placeholder name ∈ segments) (htext : Supplied values call args name text)
    (htext' : Supplied values call args' name text') : text = text' := by
  induction h with
  | nil => cases hmem
  | cons hhead _ ih =>
    obtain ⟨hhead', htail'⟩ := List.forall₂_cons.mp h'
    obtain rfl | hrest := List.mem_cons.mp hmem
    · exact hhead.unique hhead' htext htext'
    · exact ih htail' hrest

/-- A bound request stays where the service is, its path is the template with
the values in it, and the path tells them: two requests of one call with the
same path were bound to the same values. -/
theorem bind_contained (h : bind crate values call service args = .ok request) :
    Contained values call service args request ∧
      ∀ service' args' request', bind crate values call service' args' = .ok request' →
        request'.url.path = request.url.path →
          ∀ template name text text', UrlTemplate.parse call.path_template = .ok template →
            .Placeholder name ∈ template.segments → Supplied values call args name text →
              Supplied values call args' name text' → text = text' := by
  have hcontained := contained_of_bind h
  refine ⟨hcontained, ?_⟩
  intro service' args' request' h' hsame template name text text' hparse hmem htext htext'
  obtain ⟨template₁, hparse₁, hspelled⟩ := hcontained.path
  obtain ⟨template₂, hparse₂, hspelled'⟩ := (contained_of_bind h').path
  rw [hparse, Except.ok.injEq] at hparse₁ hparse₂
  subst hparse₁ hparse₂
  rw [hsame] at hspelled'
  exact supplied_of_spelled hspelled hspelled' hmem htext htext'

end

/-- A service and a call of its, and what the url crate makes of one text. -/
def sample_bound_service : Service where
  owner_id := 1
  slug := default
  base_url := { scheme := "https", host := some (.Domain "crm.example"), path := "/v1" }
  origin_allowlist := []
  default_headers := []
  timeout_ms := 1000
  max_concurrency := 1
  rate_limit_per_min := none
  max_response_bytes := 1000

def sample_bound_call : ApiCall where
  owner_id := 1
  slug := default
  service_slug := default
  method := .GET
  path_template := "/users/{id}"
  query_fixed := []
  body_template := none
  access := .Read
  idempotent := true
  projection := none
  pagination := .None
  timeout_ms := none
  max_response_bytes := none
  params := [{ name := "id", location := .Path, ty := .String, required := true, default := none
               fixed := none, enum_values := none, description := none, position := 0 }]
  description := none

def sample_bound_crate : UrlCrate where
  parse text :=
    if text = "https://crm.example/users/a%2Fb" then
      .ok { scheme := "https", host := some (.Domain "crm.example"), path := "/users/a%2Fb" }
    else .error "relative URL without a base"
  join _ _ := .error "relative URL without a base"
  form_parse _ := []
  form_serialize _ := ""

/-- A slash in a value stays in its segment. -/
theorem bind_contained_slash :
    ∃ request, bind sample_bound_crate default sample_bound_call sample_bound_service
        [("id", .string "a/b")] = .ok request ∧ request.url.path = "/users/a%2Fb" ∧
      Contained default sample_bound_call sample_bound_service [("id", .string "a/b")] request := by
  have hbound : bind sample_bound_crate default sample_bound_call sample_bound_service
      [("id", .string "a/b")] = .ok _ := rfl
  exact ⟨_, rfl, rfl, (bind_contained hbound).1⟩

end api2mcp.http
