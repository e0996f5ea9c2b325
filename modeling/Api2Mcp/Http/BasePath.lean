import Api2Mcp.Http.Contained

namespace api2mcp.http

open btree net serde_json
open api2mcp.model

/-- The root of a URL's origin. -/
def root_url (base : Url) (host : Host) : Url where
  scheme := base.scheme
  host := some host
  port := base.port
  path := "/"

/-- What the url crate is relied on for, of a URL with a host: the path is
empty or begins with a slash, and the text of the origin with a slash behind it
is a URL of that origin. No pairs are the empty query. -/
structure RootLaws (crate : UrlCrate) : Prop where
  path : ∀ {text url host}, crate.parse text = .ok url → url.host = some host →
    url.path = "" ∨ url.path.toList.head? = some '/'
  root : ∀ {text url host}, crate.parse text = .ok url → url.host = some host →
    crate.parse (origin_text url host ++ "/") =
      .ok (root_url url host)
  no_query : crate.form_serialize [] = ""

/-- The service with another path in its base URL. -/
def at_path (service : Service) (path : String) : Service :=
  { service with base_url := { service.base_url with path } }

section

variable (crate : UrlCrate) (values : ValueCrate)

/-- What validation asks of a base URL: that it is one. -/
def Admitted (service : Service) : Prop := ∃ text, crate.parse text = .ok service.base_url

/-- Every request of every call begins with the path of the base URL. -/
def KeepsBasePath (service : Service) : Prop :=
  ∀ call args request, bind crate values call service args = .ok request →
    service.base_url.path.toList <+: request.url.path.toList

/-- No call of the two sends the same URL with the same arguments. -/
def NeverSame (service service' : Service) : Prop :=
  ∀ call args request request', bind crate values call service args = .ok request →
    bind crate values call service' args = .ok request' → request.url ≠ request'.url

end

section

variable {crate : UrlCrate} {values : ValueCrate} {service : Service}

/-- The path of the base URL plays no part in a request. -/
theorem bind_at_path (call : ApiCall) (path : String) (args : BTreeMap String Value) :
    bind crate values call (at_path service path) args = bind crate values call service args := rfl

theorem host_of_bind {call : ApiCall} {args : BTreeMap String Value} {request : BoundRequest}
    (h : bind crate values call service args = .ok request) : ∃ host, service.base_url.host = some host := by
  unfold bind at h
  simp only [except.bind_eq_ok, except.mapError_eq_ok] at h
  obtain ⟨_, _, _, _, _, _, url, hurl, _⟩ := h
  unfold assemble_url at hurl
  cases hhost : service.base_url.host with
  | none =>
    simp only [hhost] at hurl
    cases hurl
  | some host => exact ⟨host, rfl⟩

theorem UrlTemplate.head_of_render {template : UrlTemplate} {path_values : BTreeMap String String} {path : String}
    (h : template.render path_values = .ok path) : path.toList.head? = some '/' := by
  unfold UrlTemplate.render at h
  split at h
  · cases h
    rfl
  · rename_i hsegments
    obtain ⟨texts, htexts, rfl⟩ := except.map_eq_ok.mp h
    cases texts with
    | nil =>
      have hlength := (except.mapM_eq_ok.mp htexts).length_eq
      rw [List.length_nil, List.length_eq_zero_iff] at hlength
      simp [hlength] at hsegments
    | cons text texts => simp

/-- A call of the root of its service. -/
def root_call : ApiCall where
  owner_id := 1
  slug := default
  service_slug := default
  method := .GET
  path_template := "/"
  query_fixed := []
  body_template := none
  access := .Read
  idempotent := true
  projection := none
  pagination := .None
  timeout_ms := none
  max_response_bytes := none
  params := []
  description := none

variable (values) in
theorem bind_root_call (hlaws : RootLaws crate) (hadmitted : Admitted crate service) {host : Host}
    (hhost : service.base_url.host = some host) :
    ∃ request, bind crate values root_call service [] = .ok request ∧ request.url.path = "/" := by
  obtain ⟨text, hparse⟩ := hadmitted
  have hroot := hlaws.root hparse hhost
  refine ⟨{ method := .GET, url := root_url service.base_url host, headers := [], body := none }, ?_, rfl⟩
  have htemplate : UrlTemplate.parse root_call.path_template = .ok ⟨[]⟩ := rfl
  have hcontained : contained (root_url service.base_url host) service.base_url "/" = true := by
    simp [contained, root_url, Url.host_str, Url.port_or_known_default, hhost]
  have hassembled : assemble_url crate service "/" "" = .ok (root_url service.base_url host) := by
    simp only [assemble_url, hhost, if_true, String.append_empty, hroot, hcontained]
  unfold bind
  rw [htemplate]
  simp only [root_call, except.bind_eq_ok, except.mapError_eq_ok, except.pure_eq_ok, List.foldlM_nil,
    List.map_nil]
  refine ⟨_, rfl, _, rfl, "/", rfl, _, ?_, rfl⟩
  rw [show encode_query crate (BTreeMap.collect []) = crate.form_serialize [] from rfl, hlaws.no_query]
  exact hassembled

end

/-- The requests of a set of services keep their base paths, and tell services
apart that differ in nothing else, exactly when there is no base path to keep. -/
theorem base_path_kept_iff (crate : UrlCrate) (values : ValueCrate) (hlaws : RootLaws crate) (services : Set Service)
    (hadmitted : ∀ service ∈ services, Admitted crate service) :
    ((∀ service ∈ services, KeepsBasePath crate values service) ∧
        ∀ service ∈ services, ∀ path, at_path service path ∈ services → path ≠ service.base_url.path →
          NeverSame crate values service (at_path service path)) ↔
      ∀ service ∈ services, ∀ host, service.base_url.host = some host →
        (service.base_url.path = "/" ∨ service.base_url.path = "") ∧
          ∀ path, at_path service path ∈ services → path = service.base_url.path := by
  constructor
  · rintro ⟨hkeeps, happart⟩ service hservice host hhost
    obtain ⟨request, hbound, hpath⟩ := bind_root_call values hlaws (hadmitted service hservice) hhost
    constructor
    · have hprefix := hkeeps service hservice root_call [] request hbound
      rw [hpath] at hprefix
      obtain ⟨rest, hrest⟩ := hprefix
      obtain ⟨hempty, _⟩ | ⟨hslash, _⟩ := List.append_eq_singleton_iff.mp hrest
      · exact .inr (String.toList_inj.mp hempty)
      · exact .inl (String.toList_inj.mp hslash)
    · intro path hmem
      by_contra hne
      exact happart service hservice path hmem hne root_call [] request request hbound hbound rfl
  · intro hroot
    refine ⟨fun service hservice call args request hbound => ?_, fun service hservice path hmem hne => ?_⟩
    · obtain ⟨host, hhost⟩ := host_of_bind hbound
      obtain ⟨_, _, _, _, ⟨path, hrender, hcontained⟩, _⟩ := bind_spec hbound
      have hpath : request.url.path = path := by
        simp only [contained, Bool.and_eq_true, decide_eq_true_eq] at hcontained
        exact hcontained.1.1.1.2
      have hhead := UrlTemplate.head_of_render hrender
      rw [hpath]
      obtain hslash | hempty := (hroot service hservice host hhost).1
      · rw [hslash]
        obtain ⟨rest, hrest⟩ := List.head?_eq_some_iff.mp hhead
        exact ⟨rest, hrest.symm⟩
      · rw [hempty]
        exact List.nil_prefix
    · intro call args request request' hbound _
      obtain ⟨host, hhost⟩ := host_of_bind hbound
      exact absurd ((hroot service hservice host hhost).2 path hmem) hne

/-- What the url crate makes of three texts. -/
def versioned_crate : UrlCrate where
  parse text :=
    if text = "https://crm.example/v2" then
      .ok { scheme := "https", host := some (.Domain "crm.example"), path := "/v2" }
    else if text = "https://crm.example/x" then
      .ok { scheme := "https", host := some (.Domain "crm.example"), path := "/x" }
    else if text = "https://crm.example/" then
      .ok { scheme := "https", host := some (.Domain "crm.example"), path := "/" }
    else .error "relative URL without a base"
  join _ _ := .error "relative URL without a base"
  form_parse _ := []
  form_serialize _ := ""

def versioned_service (path : String) : Service := at_path sample_bound_service path

theorem versioned_laws : RootLaws versioned_crate := by
  have hcases : ∀ {text url}, versioned_crate.parse text = .ok url →
      ∃ path, (path = "/v2" ∨ path = "/x" ∨ path = "/") ∧
        url = { scheme := "https", host := some (.Domain "crm.example"), path } := by
    intro text url hparse
    unfold versioned_crate at hparse
    dsimp only at hparse
    split at hparse
    · cases hparse
      exact ⟨_, .inl rfl, rfl⟩
    split at hparse
    · cases hparse
      exact ⟨_, .inr (.inl rfl), rfl⟩
    split at hparse
    · cases hparse
      exact ⟨_, .inr (.inr rfl), rfl⟩
    · cases hparse
  refine ⟨fun hparse _ => ?_, fun hparse hhost => ?_, rfl⟩
  · obtain ⟨path, rfl | rfl | rfl, rfl⟩ := hcases hparse
    · exact .inr rfl
    · exact .inr rfl
    · exact .inr rfl
  · obtain ⟨path, _, rfl⟩ := hcases hparse
    cases hhost
    rfl

/-- A service at the root of its host. -/
theorem root_service_kept : KeepsBasePath versioned_crate default (versioned_service "/") := by
  have hkept := base_path_kept_iff versioned_crate default versioned_laws {versioned_service "/"} <| by
    rintro service rfl
    exact ⟨"https://crm.example/", rfl⟩
  refine (hkept.mpr ?_).1 _ rfl
  rintro service rfl host _
  refine ⟨.inl rfl, fun path hmem => ?_⟩
  have hsame : at_path (versioned_service "/") path = versioned_service "/" := hmem
  exact congrArg (fun service : Service => service.base_url.path) hsame

/-- The call of `/x` goes to `/x` from `/v2` and from `/v1`. -/
theorem base_path_dropped :
    Admitted versioned_crate (versioned_service "/v2") ∧
      ¬ KeepsBasePath versioned_crate default (versioned_service "/v2") ∧
      ¬ NeverSame versioned_crate default (versioned_service "/v2") (versioned_service "/v1") := by
  have hbound : ∀ path, bind versioned_crate default { root_call with path_template := "/x" }
      (versioned_service path) [] = .ok
        { method := .GET, url := { scheme := "https", host := some (.Domain "crm.example"), path := "/x" }
          headers := [], body := none } := fun _ => rfl
  refine ⟨⟨"https://crm.example/v2", rfl⟩, fun hkeeps => ?_, fun hnever => ?_⟩
  · have hprefix := hkeeps _ [] _ (hbound "/v2")
    revert hprefix
    decide
  · exact hnever _ [] _ _ (hbound "/v2") (hbound "/v1") rfl

end api2mcp.http
