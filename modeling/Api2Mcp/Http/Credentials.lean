import Api2Mcp.Control.Except
import Api2Mcp.Http.Paginate

namespace api2mcp.http

open interact net
open api2mcp.model

/-! A request has no sensitive header but the credential it was given. -/

/-- The secret is the source's: the row's own, or what its variable was read
as. -/
def Holds (heard : List IoEvent) (source : CredentialSource) (secret : Secret) : Prop :=
  match source with
  | .Env key => (⟨.env key, some secret.raw⟩ : IoEvent) ∈ heard
  | .Stored stored => stored = some secret

/-- The header is what the provider's credential is sent as. -/
structure CredentialOf (heard : List IoEvent) (provider : AuthProvider)
    (header : HeaderName × HeaderValue) : Prop where
  name : HeaderName.try_from provider.header_name = some header.1
  value : ∃ secret, Holds heard provider.credential secret ∧
    secret.into_header_value provider.value_template = .ok header.2

/-- Each sensitive header is the credential of the provider there is. -/
def Attached (auth : Option AuthProvider) (heard : List IoEvent) (headers : HeaderMap) : Prop :=
  ∀ header ∈ headers, header.2.is_sensitive = true →
    ∃ provider, auth = some provider ∧ CredentialOf heard provider header

def AsksAttached (auth : Option AuthProvider) (heard : List IoEvent) : Question → Prop
  | .exchange _ request => Attached auth heard request.headers
  | _ => True

theorem mem_insert_header {headers : HeaderMap} {name : HeaderName} {value : HeaderValue}
    {header : HeaderName × HeaderValue} (h : header ∈ headers.insert name value) :
    header ∈ headers ∨ header = (name, value) := by
  obtain hrest | hlast := List.mem_append.mp h
  · exact .inl (List.mem_of_mem_filter hrest)
  · exact .inr (List.mem_singleton.mp hlast)

theorem from_str_plain {s : String} {value : HeaderValue} (h : HeaderValue.from_str s = some value) :
    value.is_sensitive = false := by
  unfold HeaderValue.from_str at h
  split at h
  · cases h
    rfl
  · cases h

/-- The headers of a definition are plain text. -/
theorem header_map_plain {texts : List (String × String)} {headers : HeaderMap}
    (h : header_map texts = .ok headers) : ∀ header ∈ headers, header.2.is_sensitive = false := by
  unfold header_map at h
  refine except.foldlM_inv (fun headers : HeaderMap => ∀ header ∈ headers, header.2.is_sensitive = false)
    h nofun ?_
  intro text _ out out' hplain hstep header hheader
  split at hstep
  · rename_i name value _ hvalue
    obtain rfl := Except.ok.inj hstep
    obtain hrest | rfl := mem_insert_header hheader
    · exact hplain header hrest
    · exact from_str_plain hvalue
  · cases hstep

/-- What a call has been told so far, the last first. -/
abbrev hear (heard : List IoEvent) (e : IoEvent) : List IoEvent := e :: heard

/-- Requests as far as their headers go. -/
abbrev Attaches {α : Type} (auth : Option AuthProvider) (post : List IoEvent → α → Prop)
    (heard : List IoEvent) (p : Io α) : Prop :=
  p.Safe hear (fun heard q => AsksAttached auth heard q) post heard

theorem credential_attached (auth : Option AuthProvider) (source : CredentialSource)
    (heard : List IoEvent) :
    Attaches auth (fun heard' result => ∀ secret, result = .ok secret → Holds heard' source secret) heard
      (credential source) := by
  unfold credential
  split
  · rename_i key
    refine .ask trivial fun value => ?_
    cases value with
    | none => exact .done nofun
    | some value =>
      refine .done ?_
      rintro secret ⟨⟩
      exact List.mem_cons_self
  · refine .done ?_
    rintro secret ⟨⟩
    rfl
  · exact .done nofun

/-- The credential goes where it belongs, and nothing else is sensitive. -/
theorem hop_headers_attached (request : BoundRequest) (auth : Option AuthProvider)
    (heard : List IoEvent) :
    Attaches auth (fun heard' result => ∀ headers, result = .ok headers → Attached auth heard' headers)
      heard (hop_headers request auth) := by
  unfold hop_headers
  split
  · exact .done nofun
  rename_i headers hheaders
  have hplain : ∀ heard', Attached auth heard' headers := by
    intro heard' header hheader hsensitive
    rw [header_map_plain hheaders header hheader] at hsensitive
    cases hsensitive
  split
  · refine .done ?_
    rintro _ ⟨⟩
    exact hplain heard
  rename_i provider
  have happly : Attaches (some provider) (fun heard' result => ∀ headers', result = .ok headers' →
      Attached (some provider) heard' headers') heard (apply provider request.url headers) := by
    unfold apply
    split
    · refine .done ?_
      rintro _ ⟨⟩
      exact hplain heard
    split
    · refine .done ?_
      rintro _ ⟨⟩
      exact hplain heard
    refine (credential_attached _ _ heard).bind fun heard' answer hanswer => ?_
    split
    · exact .done nofun
    rename_i secret
    split
    · exact .done nofun
    rename_i value hvalue
    split
    · exact .done nofun
    rename_i name hname
    refine .done ?_
    rintro _ ⟨⟩ header hheader hsensitive
    obtain hrest | rfl := mem_insert_header hheader
    · exact hplain heard' header hrest hsensitive
    · exact ⟨provider, rfl, hname, secret, hanswer secret rfl, hvalue⟩
  refine happly.bind fun heard' answer hanswer => ?_
  split
  · exact .done nofun
  · refine .done ?_
    rintro _ ⟨⟩
    exact hanswer _ rfl

section

variable {crate : UrlCrate} {from_slice : List UInt8 → Except String serde_json.Value} {client : Client}
  {params : SendParams}

theorem send_hops_attached (started : Instant) (left : Nat) (request : BoundRequest)
    (heard : List IoEvent) :
    Attaches params.auth (fun _ _ => True) heard (send_hops crate client params started left request) := by
  induction left using Nat.strongRecOn generalizing request heard with
  | ind left ih =>
    rw [send_hops.eq_def]
    simp only [Io.now_bind, Io.exchange_bind, Prog.pure_eq]
    split
    · exact .done trivial
    refine .ask trivial fun now => ?_
    split
    · exact .done trivial
    refine (hop_headers_attached request params.auth _).bind fun heard' answer hanswer => ?_
    split
    · exact .done trivial
    rename_i headers
    refine .ask (hanswer headers rfl) fun exchange => ?_
    split
    · exact .done trivial
    split
    · split
      · exact .done trivial
      split
      · exact .done trivial
      exact ih _ (Nat.lt_succ_self _) _ _
    split
    · exact .done trivial
    · exact .done trivial

/-- Whatever the pages of a call: the provider it was given is the only one
whose credential it sends. -/
theorem paginate_attached (pagination : Pagination) (max_pages : Nat) (first : BoundRequest)
    (heard : List IoEvent) :
    Attaches params.auth (fun _ _ => True) heard
      (paginate crate from_slice client first pagination max_pages params) := by
  have hpages : ∀ (left : Nat) (request : BoundRequest) (pages : List CallResponse) (heard : List IoEvent),
      Attaches params.auth (fun _ _ => True) heard
        (fetch_pages crate from_slice client pagination max_pages params left request pages) := by
    intro left
    induction left with
    | zero => exact fun _ _ _ => .done trivial
    | succ left ih =>
      intro request pages heard
      have hsend : Attaches params.auth (fun _ _ => True) heard (send crate client request params) :=
        .ask trivial fun started => send_hops_attached started _ request _
      unfold fetch_pages
      refine hsend.bind fun heard' result _ => ?_
      split
      · exact .done trivial
      split
      · exact .done trivial
      · exact .done trivial
      · exact ih _ _ heard'
  exact hpages max_pages first [] heard

end

end api2mcp.http
