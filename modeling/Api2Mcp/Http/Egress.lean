import Api2Mcp.Http.Paginate

namespace api2mcp.http

open net interact serde_json
open api2mcp.model

section

variable {crate : UrlCrate} {from_slice : List UInt8 → Except String Value} {client : Client}
  {params : SendParams}

/-- A request goes out on a client that was handed in, and its URL passed the
guard. -/
def Guarded (client : Client) (params : SendParams) : Question → Prop
  | .now | .env _ => True
  | .exchange client' request =>
    client' = client ∧ check_url request.url params.allowlist params.policy = .ok ()

theorem credential_guarded (source : CredentialSource) :
    (credential source).AllAsks (Guarded client params) := by
  unfold credential
  split
  · refine .ask trivial fun value => ?_
    cases value with
    | none => exact .done _
    | some value => exact .done _
  · exact .done _
  · exact .done _

theorem apply_guarded (provider : AuthProvider) (url : Url) (headers : HeaderMap) :
    (apply provider url headers).AllAsks (Guarded client params) := by
  unfold apply
  split
  · exact .done _
  split
  · exact .done _
  refine (credential_guarded _).bind fun answer => ?_
  split
  · exact .done _
  split
  · exact .done _
  split
  · exact .done _
  · exact .done _

theorem hop_headers_guarded (request : BoundRequest) (auth : Option AuthProvider) :
    (hop_headers request auth).AllAsks (Guarded client params) := by
  unfold hop_headers
  split
  · exact .done _
  split
  · exact .done _
  refine (apply_guarded _ _ _).bind fun answer => ?_
  split
  · exact .done _
  · exact .done _

/-- Every hop is checked before its request goes out. -/
theorem send_hops_guarded (started : Instant) (left : Nat) (request : BoundRequest) :
    (send_hops crate client params started left request).AllAsks (Guarded client params) := by
  induction left using Nat.strongRecOn generalizing request with
  | ind left ih =>
    rw [send_hops.eq_def]
    simp only [Io.now_bind, Io.exchange_bind, Prog.pure_eq]
    split
    · exact .done _
    rename_i hchecked
    refine .ask trivial fun now => ?_
    split
    · exact .done _
    refine (hop_headers_guarded _ _).bind fun headers => ?_
    split
    · exact .done _
    refine .ask ⟨rfl, hchecked⟩ fun exchange => ?_
    split
    · exact .done _
    split
    · split
      · exact .done _
      · split
        · exact .done _
        · exact ih _ (Nat.lt_succ_self _) _
    split
    · exact .done _
    · exact .done _

theorem paginate_guarded (first : BoundRequest) (pagination : Pagination) (max_pages : Nat) :
    (paginate crate from_slice client first pagination max_pages params).AllAsks
      (Guarded client params) := by
  have hpages : ∀ left request pages,
      (fetch_pages crate from_slice client pagination max_pages params left request pages).AllAsks
        (Guarded client params) := by
    intro left
    induction left with
    | zero => exact fun _ _ => .done _
    | succ left ih =>
      intro request pages
      unfold fetch_pages
      refine Prog.AllAsks.bind (.ask trivial fun started => send_hops_guarded _ _ _) fun response => ?_
      split
      · exact .done _
      split
      · exact .done _
      · exact .done _
      · exact ih _ _
  exact hpages _ _ _

end

section Runs

variable (crate : UrlCrate) (from_slice : List UInt8 → Except String Value)

/-- The events of a run so far: the pages and redirects of one call, whatever
the name server and the upstream answer. -/
def EgressRun (policy : SsrfPolicy) (allowlist : List Origin) (evs : List IoEvent) : Prop :=
  ∃ (service : Service) (first : BoundRequest) (pagination : Pagination) (max_pages : Nat)
    (params : SendParams), params.allowlist = allowlist ∧ params.policy = policy ∧
      (paginate crate from_slice (client_of service policy) first pagination max_pages params).Runs
        evs

/-- The URL of a request that goes out. -/
def requested : Question → Option Url
  | .exchange _ request => some request.url
  | _ => none

/-- The host is an IPv6 literal that may not be dialed. -/
def DeniedLiteral (policy : SsrfPolicy) (url : Url) : Prop :=
  ∃ v6, url.host = some (.Ipv6 v6) ∧ ¬ Dialable policy (.V6 v6)

/-- The allowlist lets an origin in whose host is such a literal. -/
def AdmitsDeniedLiteral (policy : SsrfPolicy) (allowlist : List Origin) : Prop :=
  ∃ (origin : Origin) (scheme : String) (v6 : Ipv6Addr) (port : Nat),
    (scheme = "http" ∨ scheme = "https") ∧ origin.inner = .Tuple scheme (.Ipv6 v6) port ∧
      Origin.contains allowlist origin = true ∧ ¬ Dialable policy (.V6 v6)

variable {crate from_slice} {policy : SsrfPolicy} {allowlist : List Origin}

/-- One request: the guard covers IPv4 literals, the resolver covers names, and
nothing covers IPv6 literals. -/
theorem dialed_dialable_iff {service : Service} {params : SendParams} {e : IoEvent}
    (hpolicy : params.policy = policy) (hguarded : Guarded (client_of service policy) params e.question) :
    (∀ ip ∈ dialed e, Dialable policy ip) ↔
      ∀ url, requested e.question = some url → ¬ DeniedLiteral policy url := by
  obtain ⟨question, answer⟩ := e
  cases question with
  | now => simp [dialed, requested]
  | env key => simp [dialed, requested]
  | exchange client request =>
    obtain ⟨hclient, hchecked⟩ := hguarded
    simp only [requested, Option.some.injEq, forall_eq']
    subst hclient
    cases hhost : request.url.host with
    | none => simp [dialed, connect_addrs, hhost, DeniedLiteral]
    | some host =>
      cases host with
      | Domain name =>
        refine iff_of_true (fun ip hip => ?_) (by simp [DeniedLiteral, hhost])
        simp only [dialed, connect_addrs, hhost] at hip
        split at hip
        · rename_i addrs haddrs
          exact GuardedResolver.dialable haddrs ip hip
        · cases hip
      | Ipv4 v4 =>
        refine iff_of_true (fun ip hip => ?_) (by simp [DeniedLiteral, hhost])
        have hliteral := ipv4_of_check_url hhost hchecked
        rw [hpolicy] at hliteral
        simp only [dialed, connect_addrs, hhost, List.mem_singleton] at hip
        rwa [hip]
      | Ipv6 v6 => simp [dialed, connect_addrs, hhost, DeniedLiteral]

/-- One run: it dials denied addresses exactly where it requests a URL with
such a literal. -/
theorem run_dialable_iff {evs : List IoEvent} {service : Service} {first : BoundRequest}
    {pagination : Pagination} {max_pages : Nat} {params : SendParams}
    (hpolicy : params.policy = policy)
    (hrun : (paginate crate from_slice (client_of service policy) first pagination max_pages
      params).Runs evs) :
    (∀ e ∈ evs, ∀ ip ∈ dialed e, Dialable policy ip) ↔
      ∀ e ∈ evs, ∀ url, requested e.question = some url → ¬ DeniedLiteral policy url := by
  have hguarded := (paginate_guarded first pagination max_pages).of_runs hrun
  constructor
  · intro hdialable e he
    exact (dialed_dialable_iff hpolicy (hguarded e he)).mp (hdialable e he)
  · intro hliteral e he
    exact (dialed_dialable_iff hpolicy (hguarded e he)).mpr (hliteral e he)

/-- The URL of an origin's root. -/
def root_of (scheme : String) (host : Host) (port : Nat) : Url :=
  { scheme, host := some host, port := if default_port scheme = some port then none else some port }

theorem origin_root_of {scheme : String} {host : Host} {port : Nat}
    (hscheme : scheme = "http" ∨ scheme = "https") :
    (root_of scheme host port).origin = .Tuple scheme host port := by
  have hdefault : ∃ p, default_port scheme = some p := by
    obtain rfl | rfl := hscheme
    · exact ⟨80, by decide⟩
    · exact ⟨443, by decide⟩
  obtain ⟨p, hp⟩ := hdefault
  by_cases hport : p = port
  · simp [Url.origin, root_of, Url.port_or_known_default, hp, hport]
  · simp [Url.origin, root_of, Url.port_or_known_default, hp, hport]

def sample_service : Service where
  owner_id := 0
  slug := default
  base_url := root_of "http" (.Ipv4 0) 80
  origin_allowlist := []
  default_headers := []
  timeout_ms := 0
  max_concurrency := 0
  rate_limit_per_min := none
  max_response_bytes := 0

variable (crate from_slice policy) in
/-- A run that requests the root of an admitted origin. -/
theorem exists_run (service : Service) (origin : Origin) {scheme : String} {v6 : Ipv6Addr}
    {port : Nat} (hscheme : scheme = "http" ∨ scheme = "https")
    (horigin : origin.inner = .Tuple scheme (.Ipv6 v6) port)
    (hcontains : Origin.contains allowlist origin = true) :
    ∃ evs, EgressRun crate from_slice policy allowlist evs ∧
      ∃ e ∈ evs, IpAddr.V6 v6 ∈ dialed e := by
  let url := root_of scheme (.Ipv6 v6) port
  have hof : Origin.of url = .ok origin := by
    have hinner : url.origin = origin.inner := (origin_root_of hscheme).trans horigin.symm
    have htuple : ¬ url.origin = .Opaque := by
      rw [hinner]
      exact origin.is_tuple
    rw [Origin.of, dif_neg htuple]
    congr 1
    cases origin
    simpa using hinner
  have hchecked : check_url url allowlist policy = .ok () :=
    check_url_ipv6 hscheme rfl hof hcontains
  let params : SendParams :=
    { allowlist, policy, auth := none, max_response_bytes := 0, deadline := 1, max_redirects := 0 }
  let request : Request := { method := .GET, url, headers := [], timeout := 1, body := none }
  let exchange : Exchange := { started := 0, lookup := .error "", outcome := .error ⟨false, []⟩ }
  let client := client_of service policy
  let evs : List IoEvent :=
    [⟨.now, (0 : Nat)⟩, ⟨.now, (0 : Nat)⟩, ⟨.exchange client request, exchange⟩]
  have hrun : (paginate crate from_slice client ⟨.GET, url, [], none⟩ .None 1 params).Runs evs := by
    simp only [paginate, fetch_pages, send, Io.now_bind, Prog.ask_bind]
    refine Prog.runs_ask ?_
    rw [send_hops.eq_def]
    simp only [hchecked, params, hop_headers, header_map, List.foldlM_nil, Io.now_bind,
      Prog.ask_bind]
    exact Prog.runs_ask (Prog.runs_ask (Prog.runs_nil _))
  refine ⟨evs, ⟨service, _, .None, 1, params, rfl, rfl, hrun⟩, ⟨.exchange client request, exchange⟩,
    by simp [evs], ?_⟩
  simp [dialed, connect_addrs, request, url, root_of]

/-- A denied literal that goes out was let in by the allowlist. -/
theorem admits_of_checked {url : Url} (hchecked : check_url url allowlist policy = .ok ())
    (hdenied : DeniedLiteral policy url) : AdmitsDeniedLiteral policy allowlist := by
  obtain ⟨v6, hhost, hdialable⟩ := hdenied
  obtain ⟨origin, horigin, hcontains⟩ := origin_of_check_url hchecked
  have hinner : origin.inner = url.origin := Origin.inner_of horigin
  have htuple : origin.inner ≠ .Opaque := origin.is_tuple
  cases hknown : default_port url.scheme with
  | none => exact absurd (by simp [hinner, Url.origin, hknown]) htuple
  | some known =>
    have hport : ∃ port, url.port_or_known_default = some port := by
      cases hport : url.port with
      | none => exact ⟨known, by simp [Url.port_or_known_default, hport, hknown]⟩
      | some port => exact ⟨port, by simp [Url.port_or_known_default, hport]⟩
    obtain ⟨port, hport⟩ := hport
    rw [Url.origin, hknown, hhost, hport] at hinner
    exact ⟨origin, url.scheme, v6, port, scheme_of_check_url hchecked, hinner, hcontains, hdialable⟩

/-- No run of any call dials an address the deny tables refuse, exactly when
the allowlist lets no IPv6 literal in that they refuse: IPv4 literals are
checked, names are filtered, and IPv6 literals are neither. -/
theorem no_denied_dial_iff (crate : UrlCrate) (from_slice : List UInt8 → Except String Value)
    (policy : SsrfPolicy) (allowlist : List Origin) :
    (∀ evs, EgressRun crate from_slice policy allowlist evs →
      ∀ e ∈ evs, ∀ ip ∈ dialed e, Dialable policy ip) ↔
        ¬ AdmitsDeniedLiteral policy allowlist := by
  constructor
  · rintro hsafe ⟨origin, scheme, v6, port, hscheme, horigin, hcontains, hdenied⟩
    obtain ⟨evs, hrun, e, he, hdialed⟩ :=
      exists_run crate from_slice policy sample_service origin hscheme horigin hcontains
    exact hdenied (hsafe evs hrun e he _ hdialed)
  · rintro hadmits evs
      ⟨service, first, pagination, max_pages, params, hallowlist, hpolicy, hrun⟩
    refine (run_dialable_iff hpolicy hrun).mpr fun e he url hurl hdenied => hadmits ?_
    have hguarded := (paginate_guarded first pagination max_pages).of_runs hrun e he
    obtain ⟨question, answer⟩ := e
    cases question with
    | now => cases hurl
    | env key => cases hurl
    | exchange client request =>
      obtain rfl : request.url = url := by simpa [requested] using hurl
      have hchecked := hguarded.2
      rw [hallowlist, hpolicy] at hchecked
      exact admits_of_checked hchecked hdenied

/-- `::ffff:169.254.169.254`, the cloud metadata service behind a mapped address. -/
def mapped_metadata : Ipv6Addr := Ipv6Addr.new 0 0 0 0 0 0xffff 0xa9fe 0xa9fe

/-- `http://[::ffff:a9fe:a9fe]`. -/
def mapped_origin : Origin := ⟨.Tuple "http" (.Ipv6 mapped_metadata) 80, by decide⟩

/-- With that origin on the allowlist a run dials the metadata service, under
the strictest policy. -/
theorem metadata_service_dialed :
    ∃ evs, EgressRun default (fun _ => .error "") {} [mapped_origin] evs ∧
      (∃ e ∈ evs, IpAddr.V6 mapped_metadata ∈ dialed e) ∧
        ¬ Dialable {} (.V6 mapped_metadata) ∧
          v4_from_segments 0xa9fe 0xa9fe ∈ embedded_v4_addresses mapped_metadata ∧
            classify (.V4 (Ipv4Addr.new 169 254 169 254)) = .Denied "link-local" := by
  have hcontains : Origin.contains [mapped_origin] mapped_origin = true := by decide
  obtain ⟨evs, hrun, hdialed⟩ :=
    exists_run default (fun _ => .error "") {} sample_service mapped_origin (.inl rfl) rfl hcontains
  refine ⟨evs, hrun, hdialed, ?_, by decide, by decide⟩
  rw [dialable_iff]
  decide

end Runs

end api2mcp.http
