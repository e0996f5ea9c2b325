import Api2Mcp.Collections.Pointwise
import Api2Mcp.Http.BasePath
import Api2Mcp.Net.Form
import Api2Mcp.Net.WhatwgUrl
import Api2Mcp.Text.Utf8

namespace api2mcp.http

open btree net serde_json
open api2mcp.model

/-- What the url crate is relied on for: it follows the URL standard behind the
text of an origin, and writes forms as the standard does. -/
structure OriginLaws (caret : Bool) (crate : UrlCrate) : Prop where
  parse : ∀ {text url host}, crate.parse text = .ok url → url.host = some host →
    ∀ rest : String, rest.toList.head? = some '/' →
      crate.parse (origin_text url host ++ rest) =
        .ok (whatwg.path_start caret (root_url url host) (whatwg.preprocess rest))
  serialize : ∀ pairs, crate.form_serialize pairs = form_urlencoded.serialize pairs

/-- The literals of a template that the parser of URLs leaves as they are. -/
structure UrlTemplate.Plain (caret : Bool) (scheme : String) (template : UrlTemplate) : Prop where
  normal : ∀ text, .Literal text ∈ template.segments → whatwg.Normal caret scheme text.toList
  first : ∀ text, template.segments.head? = some (.Literal text) → whatwg.FirstNormal scheme text.toList

/-- The template of a call is accepted, and the arguments pass the checks that
filling it in makes. -/
structure Expanded (values : ValueCrate) (call : ApiCall) (args : BTreeMap String Value) (template : UrlTemplate)
    (parts : Parts) (path : String) : Prop where
  parsed : UrlTemplate.parse call.path_template = .ok template
  routed : call.params.foldlM (bind_param values args)
    { path_values := []
      query_values := BTreeMap.collect (call.query_fixed.map fun kv => (kv.1, [kv.2]))
      headers := []
      body := call.body_template } = .ok parts
  rendered : template.render parts.path_values = .ok path

section

variable {caret : Bool} {scheme : String}

variable (caret scheme) in
/-- The characters an encoded value is spelled with. -/
theorem of_mem_encoded_value {value : String} {c : Char} (h : c ∈ utf8_percent_encode value) :
    whatwg.path_set caret c = false ∧ whatwg.is_separator scheme c = false ∧ c ≠ ':' ∧ c ≠ '|' := by
  have hplain : whatwg.path_set caret c = false ∧ c ≠ '/' ∧ c ≠ '\\' ∧ c ≠ ':' ∧ c ≠ '|' := by
    obtain rfl | ⟨n, hn, rfl⟩ | ⟨b, hascii, hkept, rfl⟩ := percent.mem_encode h
    · exact ⟨(whatwg.path_set_hex caret).1, by decide⟩
    · have hall : ∀ n < 16, percent.hex n ≠ '/' ∧ percent.hex n ≠ '\\' ∧ percent.hex n ≠ ':' ∧ percent.hex n ≠ '|' := by
        decide
      exact ⟨(whatwg.path_set_hex caret).2 n hn, hall n hn⟩
    · have hall : ∀ caret, ∀ n : Fin 128, unreserved (UInt8.ofNat n) = true →
          whatwg.path_set caret (Char.ofNat n) = false ∧ Char.ofNat n ≠ '/' ∧ Char.ofNat n ≠ '\\' ∧
            Char.ofNat n ≠ ':' ∧ Char.ofNat n ≠ '|' := by
        decide
      have hlt : b.toNat < 128 := hascii
      exact hall caret ⟨b.toNat, hlt⟩ (by rwa [UInt8.ofNat_toNat])
  obtain ⟨hkept, hslash, hback, hcolon, hbar⟩ := hplain
  exact ⟨hkept, by simp [whatwg.is_separator, hslash, hback], hcolon, hbar⟩

variable (caret) in
/-- A value that passes the checks of placeholders stays as it is encoded. -/
theorem normal_of_validate_value {name value : String} (h : validate_value name value = .ok ()) :
    whatwg.Normal caret scheme (utf8_percent_encode value) ∧
      whatwg.FirstNormal scheme (utf8_percent_encode value) := by
  have hvalue : value ≠ "." ∧ value ≠ ".." := by
    unfold validate_value at h
    split at h
    · cases h
    split at h
    · cases h
    · rename_i hdots
      simpa using hdots
  have hdecode := decode_utf8_percent_encode value
  refine ⟨⟨fun c hc => (of_mem_encoded_value caret scheme hc).1,
    fun c hc => (of_mem_encoded_value caret scheme hc).2.1, ?_, ?_⟩, fun _ hdrive => ?_⟩
  · rw [Bool.eq_false_iff]
    intro hdot
    rw [whatwg.decode_of_is_single_dot hdot] at hdecode
    exact hvalue.1 (utf8_inj (hdecode.symm.trans (by decide)))
  · rw [Bool.eq_false_iff]
    intro hdots
    rw [whatwg.decode_of_is_double_dot hdots] at hdecode
    exact hvalue.2 (utf8_inj (hdecode.symm.trans (by decide)))
  · generalize hencoded : utf8_percent_encode value = encoded at hdrive
    match encoded, hdrive with
    | [a, b], hdrive =>
      obtain ⟨_, _, hcolon, hbar⟩ := of_mem_encoded_value caret scheme
        (show b ∈ utf8_percent_encode value by simp [hencoded])
      simp [whatwg.is_drive_letter, hcolon, hbar] at hdrive

/-- The text that a segment is rendered to. -/
inductive Written : Segment → List Char → Prop
  | literal (text : String) : Written (.Literal text) text.toList
  | value {name value : String} : validate_value name value = .ok () →
      Written (.Placeholder name) (utf8_percent_encode value)

theorem written_of_render_segment {values : BTreeMap String String} {segment : Segment} {text : List Char}
    (h : render_segment values segment = .ok text) : Written segment text := by
  cases segment with
  | Literal literal =>
    cases h
    exact .literal literal
  | Placeholder name =>
    unfold render_segment at h
    dsimp only at h
    split at h
    · cases h
    split at h
    · cases h
    · rename_i hvalid
      cases h
      exact .value hvalid

/-- A path is left as it is exactly when the literals in it are. -/
theorem normal_iff_plain {segments : List Segment} {texts : List (List Char)}
    (h : List.Forall₂ Written segments texts) :
    whatwg.NormalPath caret scheme texts ↔ UrlTemplate.Plain caret scheme ⟨segments⟩ := by
  constructor
  · intro hnormal
    refine ⟨fun text hmem => ?_, fun text hhead => ?_⟩
    · obtain ⟨_, htext, hwritten⟩ := pointwise.exists_right h hmem
      cases hwritten
      exact hnormal.normal _ htext
    · cases h with
      | nil => cases hhead
      | cons hwritten _ =>
        obtain rfl : _ = Segment.Literal text := by simpa using hhead
        cases hwritten
        exact hnormal.first _ rfl
  · intro hplain
    refine ⟨fun text hmem => ?_, fun text hhead => ?_⟩
    · obtain ⟨segment, hsegment, hwritten⟩ := pointwise.exists_left h hmem
      cases hwritten with
      | literal literal => exact hplain.normal literal hsegment
      | value hvalid => exact (normal_of_validate_value caret hvalid).1
    · cases h with
      | nil => cases hhead
      | cons hwritten _ =>
        obtain rfl : _ = text := by simpa using hhead
        cases hwritten with
        | literal literal => exact hplain.first literal rfl
        | value hvalid => exact (normal_of_validate_value caret hvalid).2

/-- The segments of a rendered path. -/
theorem UrlTemplate.texts_of_render {template : UrlTemplate} {values : BTreeMap String String} {path : String}
    (hliterals : ∀ text, .Literal text ∈ template.segments → '/' ∉ text.toList ∧ text.toList ≠ [])
    (h : template.render values = .ok path) :
    ∃ texts, texts ≠ [] ∧ path.toList = whatwg.path_text texts ∧ (∀ text ∈ texts, '/' ∉ text) ∧
      ∀ caret scheme, whatwg.NormalPath caret scheme texts ↔ template.Plain caret scheme := by
  unfold UrlTemplate.render at h
  split at h
  · rename_i hempty
    rw [List.isEmpty_iff] at hempty
    cases h
    have hplain : ∀ caret scheme, template.Plain caret scheme := by
      intro caret scheme
      constructor <;> simp [hempty]
    have hnormal : ∀ caret scheme, whatwg.NormalPath caret scheme [[]] := fun caret scheme =>
      whatwg.normalPath_nil.append_nil
    exact ⟨[[]], by simp, rfl, by simp, fun caret scheme => ⟨fun _ => hplain caret scheme, fun _ => hnormal caret scheme⟩⟩
  · rename_i hsegments
    obtain ⟨texts, htexts, rfl⟩ := except.map_eq_ok.mp h
    have hwritten : List.Forall₂ Written template.segments texts :=
      (except.mapM_eq_ok.mp htexts).imp fun _ _ => written_of_render_segment
    refine ⟨texts, ?_, by rw [String.toList_ofList]; rfl, fun text hmem => ?_, fun _ _ => normal_iff_plain hwritten⟩
    · rintro rfl
      rw [List.forall₂_nil_right_iff] at hwritten
      simp [hwritten] at hsegments
    · obtain ⟨segment, hsegment, htext⟩ := pointwise.exists_left hwritten hmem
      cases htext with
      | literal literal => exact (hliterals literal hsegment).1
      | value _ => exact slash_notMem_utf8_percent_encode _

/-! Queries. -/

theorem kept_of_mem_serialize {pairs : List (String × String)} {c : Char}
    (h : c ∈ (form_urlencoded.serialize pairs).toList) : whatwg.query_set c = false := by
  obtain rfl | rfl | rfl | rfl | ⟨n, hn, rfl⟩ | ⟨b, hascii, hkept, rfl⟩ := form_urlencoded.of_mem_serialize h
  · decide
  · decide
  · decide
  · decide
  · exact (whatwg.of_path_set ((whatwg.path_set_hex false).2 n hn)).1
  · have hall : ∀ n : Fin 128, form_urlencoded.byte_serialized_unchanged (UInt8.ofNat n) = true →
        whatwg.query_set (Char.ofNat n) = false := by
      decide
    have hlt : b.toNat < 128 := hascii
    exact hall ⟨b.toNat, hlt⟩ (by rwa [UInt8.ofNat_toNat])

/-- What stands behind the origin of a request. -/
def assembled_rest (path query : String) : String := path ++ if query = "" then "" else "?" ++ query

section

variable {crate : UrlCrate} {values : ValueCrate} {call : ApiCall} {service : Service}
  {args : BTreeMap String Value} {template : UrlTemplate} {parts : Parts} {path : String}

/-- A path that is normal is what the parser finds. -/
theorem path_start_of_normal {texts : List (List Char)} (pairs : List (String × String)) (url : Url)
    (hne : texts ≠ []) (hpath : path.toList = whatwg.path_text texts)
    (hnormal : whatwg.NormalPath caret url.scheme texts) :
    (whatwg.path_start caret url (whatwg.preprocess (assembled_rest path (form_urlencoded.serialize pairs)))).path = path ∧
      (whatwg.path_start caret url
        (whatwg.preprocess (assembled_rest path (form_urlencoded.serialize pairs)))).fragment = none := by
  have hchars : ∀ c ∈ path.toList, whatwg.query_set c = false ∧ c ≠ '?' := by
    rw [hpath]
    intro c hc
    obtain ⟨segment, hsegment, hmem⟩ := List.mem_flatMap.mp hc
    obtain rfl | hmem := List.mem_cons.mp hmem
    · decide
    · exact whatwg.of_path_set ((hnormal.normal segment hsegment).kept c hmem)
  have hmark : '?' ∉ path.toList := fun hmem => (hchars _ hmem).2 rfl
  have hrest : ∀ c ∈ (assembled_rest path (form_urlencoded.serialize pairs)).toList,
      whatwg.is_c0_control_or_space c = false ∧ c ≠ '#' := by
    unfold assembled_rest
    intro c hc
    rw [String.toList_append, List.mem_append] at hc
    obtain hc | hc := hc
    · exact whatwg.of_query_set (hchars c hc).1
    · split at hc
      · simp at hc
      · rw [String.toList_append, List.mem_append] at hc
        obtain hc | hc := hc
        · obtain rfl : c = '?' := by simpa using hc
          decide
        · exact whatwg.of_query_set (kept_of_mem_serialize hc)
  have hcut : (whatwg.cut '?' (assembled_rest path (form_urlencoded.serialize pairs)).toList).1 = path.toList := by
    unfold assembled_rest
    split
    · rw [String.append_empty, whatwg.cut_of_notMem hmark]
    · rw [String.toList_append, String.toList_append]
      exact congrArg Prod.fst (whatwg.cut_append_cons hmark _)
  rw [whatwg.preprocess_of_kept fun c hc => (hrest c hc).1]
  have hhash := whatwg.cut_of_notMem fun hmem => (hrest '#' hmem).2 rfl
  simp only [whatwg.path_start, whatwg.with_query, hhash, hcut, Option.map_none, and_true]
  rw [hpath, whatwg.path_start_state_of_normal hne hnormal, ← hpath, String.ofList_toList]

/-- What the parser finds behind an origin stays there. -/
theorem contained_path_start {base : Url} {host : Host} (hhost : base.host = some host) (rest : List Char) :
    contained (whatwg.path_start caret (root_url base host) rest) base path = true ↔
      (whatwg.path_start caret (root_url base host) rest).path = path ∧
        (whatwg.path_start caret (root_url base host) rest).fragment = none := by
  have hauthority : (whatwg.path_start caret (root_url base host) rest).scheme = base.scheme ∧
      (whatwg.path_start caret (root_url base host) rest).host_str = base.host_str ∧
      (whatwg.path_start caret (root_url base host) rest).port_or_known_default = base.port_or_known_default ∧
      (whatwg.path_start caret (root_url base host) rest).username = "" ∧
      (whatwg.path_start caret (root_url base host) rest).password = none := by
    refine ⟨rfl, ?_, rfl, rfl, rfl⟩
    rw [Url.host_str, Url.host_str, hhost]
    rfl
  obtain ⟨hscheme, hhost_str, hport, husername, hpassword⟩ := hauthority
  simp [contained, hscheme, hhost_str, hport, husername, hpassword]

/-- A request is refused for leaving the service exactly when the parser
changes a literal. -/
theorem assemble_url_iff (hlaws : OriginLaws caret crate) (hadmitted : Admitted crate service) {host : Host}
    (hhost : service.base_url.host = some host)
    (hliterals : ∀ text, .Literal text ∈ template.segments → '/' ∉ text.toList ∧ text.toList ≠ [])
    (hrendered : template.render parts.path_values = .ok path) (pairs : List (String × String)) :
    assemble_url crate service path (crate.form_serialize pairs) ≠ .error .ContainmentViolation ↔
      template.Plain caret service.base_url.scheme := by
  obtain ⟨text, hparse⟩ := hadmitted
  obtain ⟨texts, hne, hpath, hslash, hplain⟩ := UrlTemplate.texts_of_render hliterals hrendered
  obtain ⟨after, hafter⟩ := List.head?_eq_some_iff.mp (UrlTemplate.head_of_render hrendered)
  rw [← hplain caret]
  have hhead : (assembled_rest path (form_urlencoded.serialize pairs)).toList.head? = some '/' := by
    rw [assembled_rest, String.toList_append, hafter]
    rfl
  have hparsed := hlaws.parse hparse hhost _ hhead
  have hassembled : origin_text service.base_url host ++ path ++
      (if form_urlencoded.serialize pairs = "" then "" else "?" ++ form_urlencoded.serialize pairs) =
        origin_text service.base_url host ++ assembled_rest path (form_urlencoded.serialize pairs) :=
    String.append_assoc
  simp only [assemble_url, hhost, hlaws.serialize, hassembled, hparsed]
  constructor
  · intro hsafe
    split at hsafe
    · rename_i hcontained
      have hsame := congrArg String.toList ((contained_path_start hhost _).mp hcontained).1
      rw [hpath, whatwg.path_start_path, String.toList_ofList] at hsame
      exact whatwg.normal_of_path_start_state hne hslash hsame
    · exact absurd rfl hsafe
  · intro hnormal
    have hkept := path_start_of_normal pairs (root_url service.base_url host) hne hpath hnormal
    rw [if_pos ((contained_path_start hhost _).mpr hkept)]
    simp

theorem bind_eq_error_iff (hexpanded : Expanded values call args template parts path) (e : BindError) :
    bind crate values call service args = .error e ↔
      assemble_url crate service path (encode_query crate parts.query_values) = .error e := by
  unfold bind
  rw [hexpanded.parsed, hexpanded.routed]
  simp only [Except.mapError, Bind.bind, Except.bind, hexpanded.rendered]
  cases assemble_url crate service path (encode_query crate parts.query_values) with
  | error e' =>
    constructor
    · intro h
      cases h
      rfl
    · intro h
      cases h
      rfl
  | ok url =>
    constructor
    · intro h
      cases h
    · intro h
      cases h

end

end

/-- A template whose values pass their checks is bound without leaving the
service exactly when the base URL has no host, which is refused as such, or the
parser of URLs leaves every literal of the template as it is. -/
theorem usable_iff {caret : Bool} {crate : UrlCrate} (hlaws : OriginLaws caret crate) {values : ValueCrate} {service : Service}
    (hadmitted : Admitted crate service) {call : ApiCall} {args : BTreeMap String Value} {template : UrlTemplate}
    {parts : Parts} {path : String} (hexpanded : Expanded values call args template parts path) :
    bind crate values call service args ≠ .error .ContainmentViolation ↔
      (service.base_url.host = none ∨ template.Plain caret service.base_url.scheme) := by
  rw [Ne, bind_eq_error_iff hexpanded]
  cases hhost : service.base_url.host with
  | none =>
    simp [assemble_url, hhost]
  | some host =>
    have hiff : assemble_url crate service path (encode_query crate parts.query_values) ≠ .error .ContainmentViolation ↔
        template.Plain caret service.base_url.scheme :=
      assemble_url_iff hlaws hadmitted hhost (UrlTemplate.literals_of_parse hexpanded.parsed) hexpanded.rendered _
    simpa using hiff

/-- An origin, and what stands behind it. -/
def crm_origin : List Char := "https://crm.example".toList

def crm_url : Url := { scheme := "https", host := some (.Domain "crm.example") }

/-- The url crate, on the texts of one origin. -/
def crm_crate : UrlCrate where
  parse text :=
    let rest := text.toList.drop crm_origin.length
    if text.toList.take crm_origin.length = crm_origin && rest.head? = some '/' then
      .ok (whatwg.path_start true crm_url (whatwg.preprocess (String.ofList rest)))
    else .error "relative URL without a base"
  join _ _ := .error "relative URL without a base"
  form_parse := form_urlencoded.parse
  form_serialize := form_urlencoded.serialize

theorem crm_laws : OriginLaws true crm_crate := by
  refine ⟨fun {text url host} hparse hhost rest hhead => ?_, fun _ => rfl⟩
  have hurl : ∃ rest, url = whatwg.path_start true crm_url rest := by
    unfold crm_crate at hparse
    dsimp only at hparse
    split at hparse
    · cases hparse
      exact ⟨_, rfl⟩
    · cases hparse
  obtain ⟨before, rfl⟩ := hurl
  obtain rfl : Host.Domain "crm.example" = host := Option.some.inj hhost
  have horigin : (origin_text (whatwg.path_start true crm_url before) (.Domain "crm.example")).toList = crm_origin := rfl
  unfold crm_crate
  simp only [String.toList_append, horigin, List.take_left', List.drop_left', hhead, String.ofList_toList]
  rfl

/-- A service of that origin, and calls of its with one template each. -/
def crm_service : Service := { sample_bound_service with base_url := crm_url }

theorem crm_admitted : Admitted crm_crate crm_service := ⟨"https://crm.example/", by decide +kernel⟩

/-- A value is bound where the literals are plain. -/
theorem users_template_usable :
    bind crm_crate default sample_bound_call crm_service [("id", .string "a/b")] ≠ .error .ContainmentViolation := by
  have hexpanded : Expanded default sample_bound_call [("id", .string "a/b")] ⟨[.Literal "users", .Placeholder "id"]⟩
      ⟨[("id", "a/b")], [], [], none⟩ "/users/a%2Fb" := ⟨rfl, rfl, rfl⟩
  refine (usable_iff crm_laws crm_admitted hexpanded).mpr (.inr ⟨fun text hmem => ?_, fun text hhead => ?_⟩)
  · obtain rfl : text = "users" := by simpa using hmem
    exact ⟨by decide, by decide, by decide, by decide⟩
  · intro hfile
    exact absurd hfile (by decide)

/-- A space and the code of a dot are accepted in templates, and no such
template is ever bound. -/
theorem spaced_template_unusable :
    OriginLaws true crm_crate ∧ Admitted crm_crate crm_service ∧
      Expanded default { root_call with path_template := "/a b" } [] ⟨[.Literal "a b"]⟩ ⟨[], [], [], none⟩ "/a b" ∧
      bind crm_crate default { root_call with path_template := "/a b" } crm_service [] =
        .error .ContainmentViolation ∧
      Expanded default { root_call with path_template := "/%2e" } [] ⟨[.Literal "%2e"]⟩ ⟨[], [], [], none⟩ "/%2e" ∧
      bind crm_crate default { root_call with path_template := "/%2e" } crm_service [] =
        .error .ContainmentViolation := by
  refine ⟨crm_laws, crm_admitted, ⟨rfl, rfl, rfl⟩, rfl, ⟨rfl, rfl, rfl⟩, rfl⟩

end api2mcp.http
