import Api2Mcp.Http.Paginate
import Api2Mcp.Interact.Rules

namespace api2mcp.http

open net interact serde_json
open api2mcp.model

/-- Where a chain of redirects is: how many there were in a row, and the
request and the status of the last one. -/
structure Chain where
  followed : Nat := 0
  last : Option (Request × StatusCode) := none

/-- The chain after an event: a redirect makes it longer, any other end of a
request ends it. -/
def Chain.note (chain : Chain) : IoEvent → Chain
  | ⟨.exchange _ request, exchange⟩ =>
    match exchange.outcome with
    | .ok response =>
      if is_redirect response.status then ⟨chain.followed + 1, some (request, response.status)⟩ else {}
    | .error _ => {}
  | _ => chain

/-- The chain that the events end with. -/
def chain_of (evs : List IoEvent) : Chain := evs.foldl Chain.note {}

/-- The headers are the bare ones, with the provider's among them on the
provider's own origin only. -/
def Credentialed (auth : Option AuthProvider) (url : Url) (bare headers : HeaderMap) : Prop :=
  (auth = none → headers = bare) ∧
    ∀ provider, auth = some provider →
      (Origin.of url ≠ .ok provider.bound_origin → headers = bare) ∧
        (Origin.of url = .ok provider.bound_origin → ∃ (secret : Secret) (name : HeaderName)
          (value : HeaderValue), secret.into_header_value provider.value_template = .ok value ∧
            HeaderName.try_from provider.header_name = some name ∧
              headers = bare.insert name value)

/-- What holds of a request that goes out at the end of a chain. The headers it
was bound with are those of the first page, or none on a later page. -/
structure Confined (params : SendParams) (first : BoundRequest) (chain : Chain)
    (request : Request) : Prop where
  checked : check_url request.url params.allowlist params.policy = .ok ()
  credentialed : ∃ own bare, (own = first.headers ∨ own = []) ∧ header_map own = .ok bare ∧
    Credentialed params.auth request.url bare request.headers
  bounded : chain.followed ≤ params.max_redirects
  downgraded : ∀ previous status, chain.last = some (previous, status) → 301 ≤ status.as_u16 →
    status.as_u16 ≤ 303 → previous.method ≠ .GET → previous.method ≠ .HEAD →
      request.method = .GET ∧ request.body = none

/-- `Confined`, of the requests among the questions. -/
def Question.Confined (params : SendParams) (first : BoundRequest) (chain : Chain) :
    Question → Prop
  | .exchange _ request => http.Confined params first chain request
  | _ => True

/-- The request is what the last redirect led to. -/
def Arrived (chain : Chain) (request : BoundRequest) : Prop :=
  ∀ previous status, chain.last = some (previous, status) →
    (request.method, request.body) = downgrade previous.method previous.body status

theorem downgrade_dropped {method : Method} {body : Option Value} {status : StatusCode}
    (hlow : 301 ≤ status.as_u16) (hhigh : status.as_u16 ≤ 303) (hmethod : method ≠ .GET) :
    downgrade method body status = (.GET, none) := by
  simp [downgrade, hlow, hhigh, hmethod]

section

variable {crate : UrlCrate} {from_slice : List UInt8 → Except String Value} {client : Client}
  {params : SendParams} {first : BoundRequest}

/-- A program that sends nothing leaves the chain where it was. -/
abbrev Quiet {α : Type} (params : SendParams) (first : BoundRequest) (chain : Chain) (post : α → Prop)
    (p : Io α) : Prop :=
  p.Safe Chain.note (Question.Confined params first) (fun chain' a => chain' = chain ∧ post a) chain

theorem credential_quiet (source : CredentialSource) (chain : Chain) :
    Quiet params first chain (fun _ => True) (credential source) := by
  unfold credential
  split
  · refine .ask trivial fun value => ?_
    cases value with
    | none => exact .done ⟨rfl, trivial⟩
    | some value => exact .done ⟨rfl, trivial⟩
  · exact .done ⟨rfl, trivial⟩
  · exact .done ⟨rfl, trivial⟩

/-- The provider's header goes where the provider is bound to, or nowhere. -/
theorem apply_quiet (provider : AuthProvider) (url : Url) (bare : HeaderMap) (chain : Chain) :
    Quiet params first chain (fun result => ∀ headers, result = .ok headers →
      Credentialed (some provider) url bare headers) (apply provider url bare) := by
  have helsewhere (hne : Origin.of url ≠ .ok provider.bound_origin) :
      ∀ headers, (.ok bare : Except AuthError HeaderMap) = .ok headers →
        Credentialed (some provider) url bare headers := by
    rintro headers ⟨⟩
    refine ⟨fun _ => rfl, ?_⟩
    rintro provider ⟨⟩
    exact ⟨fun _ => rfl, fun horigin => absurd horigin hne⟩
  unfold apply
  split
  · rename_i e he
    exact .done ⟨rfl, helsewhere (by rw [he]; simp)⟩
  rename_i origin horigin
  split
  · rename_i hne
    exact .done ⟨rfl, helsewhere (by rw [horigin]; simpa using hne)⟩
  rename_i heq
  refine (credential_quiet _ chain).bind fun chain' answer => ?_
  rintro ⟨rfl, _⟩
  split
  · exact .done ⟨rfl, by simp⟩
  rename_i secret
  split
  · exact .done ⟨rfl, by simp⟩
  rename_i value hvalue
  split
  · exact .done ⟨rfl, by simp⟩
  rename_i name hname
  refine .done ⟨rfl, ?_⟩
  rintro headers ⟨⟩
  refine ⟨by simp, ?_⟩
  rintro provider ⟨⟩
  refine ⟨fun hne => absurd ?_ hne, fun _ => ⟨secret, name, value, hvalue, hname, rfl⟩⟩
  rw [horigin, not_not.mp heq]

theorem hop_headers_quiet (request : BoundRequest) (auth : Option AuthProvider) (chain : Chain) :
    Quiet params first chain (fun result => ∀ headers, result = .ok headers →
      ∃ bare, header_map request.headers = .ok bare ∧ Credentialed auth request.url bare headers)
      (hop_headers request auth) := by
  unfold hop_headers
  split
  · exact .done ⟨rfl, by simp⟩
  rename_i bare hbare
  split
  · refine .done ⟨rfl, ?_⟩
    rintro headers ⟨⟩
    exact ⟨bare, hbare, fun _ => rfl, by simp⟩
  rename_i provider
  refine (apply_quiet provider request.url bare chain).bind fun chain' answer => ?_
  rintro ⟨rfl, hanswer⟩
  split
  · exact .done ⟨rfl, by simp⟩
  rename_i headers
  refine .done ⟨rfl, ?_⟩
  rintro _ ⟨⟩
  exact ⟨bare, hbare, hanswer headers rfl⟩

/-- Where a redirect leads to, the method and the body are what the redirect
left of them. -/
theorem next_hop_arrived {request next : BoundRequest} {response : RawResponse}
    (h : next_hop crate request response = .ok next) :
    next.headers = request.headers ∧
      (next.method, next.body) = downgrade request.method request.body response.status := by
  unfold next_hop at h
  split at h
  · cases h
  split at h
  · cases h
  split at h
  · cases h
  cases h
  exact ⟨rfl, rfl⟩

/-- Every hop of a chain is confined, and a response that is handed on ends the
chain. -/
theorem send_hops_confined (started : Instant) (left : Nat) (request : BoundRequest)
    (chain : Chain) (hleft : chain.followed + left = params.max_redirects)
    (hown : request.headers = first.headers ∨ request.headers = [])
    (harrived : Arrived chain request) :
    (send_hops crate client params started left request).Safe Chain.note
      (Question.Confined params first) (fun chain' result => result.isOk → chain' = {}) chain := by
  induction left using Nat.strongRecOn generalizing request chain with
  | ind left ih =>
    rw [send_hops.eq_def]
    simp only [Io.now_bind, Io.exchange_bind, Prog.pure_eq]
    split
    · exact .done (by simp [Except.isOk, Except.toBool])
    rename_i hchecked
    refine .ask trivial fun now => ?_
    split
    · exact .done (by simp [Except.isOk, Except.toBool])
    refine (hop_headers_quiet request params.auth chain).bind fun chain' answer => ?_
    rintro ⟨rfl, hanswer⟩
    split
    · exact .done (by simp [Except.isOk, Except.toBool])
    rename_i headers
    obtain ⟨bare, hbare, hcredentialed⟩ := hanswer headers rfl
    have hconfined : Confined params first chain'
        { method := request.method, url := request.url, headers
          timeout := params.deadline - (now - started), body := request.body } := by
      refine ⟨hchecked, ⟨_, bare, hown, hbare, hcredentialed⟩, by omega, ?_⟩
      intro previous status hlast hlow hhigh hget _
      have harrived := harrived previous status hlast
      rw [downgrade_dropped hlow hhigh hget, Prod.mk.injEq] at harrived
      exact harrived
    refine .ask hconfined fun exchange => ?_
    split
    · exact .done (by simp [Except.isOk, Except.toBool])
    rename_i response houtcome
    split
    · rename_i hredirect
      split
      · exact .done (by simp [Except.isOk, Except.toBool])
      · rename_i left
        split
        · exact .done (by simp [Except.isOk, Except.toBool])
        rename_i next hnext
        obtain ⟨hheaders, hdowngraded⟩ := next_hop_arrived hnext
        simp only [Chain.note, houtcome, hredirect, if_true]
        refine ih left (Nat.lt_succ_self _) next _ (by simpa using by omega) (hheaders ▸ hown) ?_
        rintro previous status ⟨⟩
        exact hdowngraded
    · rename_i hfinal
      split
      · exact .done (by simp [Except.isOk, Except.toBool])
      · refine .done fun _ => ?_
        simp [Chain.note, houtcome, hfinal]

/-- A page after the first carries no headers of its own. -/
theorem next_request_headers {response : CallResponse} {pagination : Pagination}
    {next : BoundRequest} (h : next_request crate from_slice response pagination = .ok (some next)) :
    next.headers = [] := by
  unfold next_request at h
  split at h
  · cases h
  split at h
  · cases h
  split at h
  · cases h
  · cases h
  · cases h
    rfl
  · cases h

/-- Every page starts a chain of its own. -/
theorem fetch_pages_confined (pagination : Pagination) (max_pages left : Nat)
    (request : BoundRequest) (pages : List CallResponse)
    (hown : request.headers = first.headers ∨ request.headers = []) :
    (fetch_pages crate from_slice client pagination max_pages params left request pages).Safe
      Chain.note (Question.Confined params first) (fun _ _ => True) {} := by
  induction left generalizing request pages with
  | zero => exact .done trivial
  | succ left ih =>
    have hsend : (send crate client request params).Safe Chain.note (Question.Confined params first)
        (fun chain' result => result.isOk → chain' = {}) {} := by
      refine .ask trivial fun started => ?_
      exact send_hops_confined started _ request _ (Nat.zero_add _) hown (by rintro _ _ ⟨⟩)
    unfold fetch_pages
    refine hsend.bind fun chain result hchain => ?_
    split
    · exact .done trivial
    rename_i response
    obtain rfl : chain = {} := hchain rfl
    split
    · exact .done trivial
    · exact .done trivial
    · rename_i next hnext
      exact ih next _ (.inr (next_request_headers hnext))

end

/-- A hop that is answered with a redirect. -/
theorem send_hops_redirected {crate : UrlCrate} (client : Client) {params : SendParams}
    (started : Instant) (left : Nat) (request next : BoundRequest) (now : Instant)
    (exchange : Exchange) (headers : HeaderMap) {response : RawResponse}
    (hchecked : check_url request.url params.allowlist params.policy = .ok ())
    (htime : ¬ params.deadline < now - started)
    (hheaders : hop_headers request params.auth = .done (.ok headers))
    (houtcome : exchange.outcome = .ok response) (hredirect : is_redirect response.status = true)
    (hnext : next_hop crate request response = .ok next) :
    (send_hops crate client params started (left + 1) request).Emits
      [⟨.now, now⟩,
        ⟨.exchange client { method := request.method, url := request.url, headers
                            timeout := params.deadline - (now - started), body := request.body },
          exchange⟩]
      (send_hops crate client params started left next) := by
  rw [send_hops.eq_def]
  simp only [hchecked, Io.now_bind, hheaders, Prog.done_bind, Io.exchange_bind]
  refine .cons ?_
  rw [if_neg htime]
  refine .cons ?_
  simp only [houtcome, hredirect, if_true, hnext]
  exact .nil _

def chain_home : Url := { scheme := "https", host := some (.Domain "home.example") }

def chain_away : Url := { scheme := "https", host := some (.Domain "away.example"), port := some 8443 }

def chain_crate : UrlCrate where
  parse := fun _ => .error ""
  join := fun base _ => .ok (match base.port with | none => chain_away | some _ => chain_home)
  form_parse := fun _ => []
  form_serialize := fun _ => ""

def chain_provider : AuthProvider where
  owner_id := 0
  slug := default
  service_slug := default
  kind := .StaticHeader
  credential := .Stored (some ⟨"token"⟩)
  header_name := "authorization"
  value_template := "Bearer "
  scopes := []
  token_url := none
  bound_origin := ⟨.Tuple "https" (.Domain "home.example") 443, by decide⟩

def chain_params : SendParams where
  allowlist := [⟨.Tuple "https" (.Domain "away.example") 8443, by decide⟩, chain_provider.bound_origin]
  policy := {}
  auth := some chain_provider
  max_response_bytes := 0
  deadline := 1
  max_redirects := 5

def chain_moved (status : StatusCode) : RawResponse where
  status := status
  headers := [(⟨"location"⟩, ⟨utf8 "/", false⟩)]
  content_length := none
  chunks := []

def chain_bearer : HeaderMap := [(⟨"authorization"⟩, ⟨utf8 "Bearer token", true⟩)]

theorem next_hop_moved {crate : UrlCrate} {request : BoundRequest} {url : Url}
    (status : StatusCode) (hjoin : crate.join request.url "/" = .ok url) :
    next_hop crate request (chain_moved status) =
      .ok { method := (downgrade request.method request.body status).1, url
            headers := request.headers, body := (downgrade request.method request.body status).2 } := by
  have hlocation : HeaderValue.to_str ⟨utf8 "/", false⟩ = some "/" := by decide +kernel
  have hget : (chain_moved status).headers.get ⟨"location"⟩ = some ⟨utf8 "/", false⟩ := rfl
  simp only [next_hop, hget, hlocation, hjoin]
  rfl

/-- Each request of each chain of each page, whatever the upstream answers: its
URL passed the guard, the provider's header is on it only at the provider's own
origin, no more redirects led to it than are allowed, and a redirect that is to
be followed with GET left it no body. -/
theorem paginate_confined {crate : UrlCrate} {from_slice : List UInt8 → Except String Value}
    {client : Client} {params : SendParams} {first : BoundRequest} {pagination : Pagination}
    {max_pages : Nat} {evs : List IoEvent}
    (hrun : (paginate crate from_slice client first pagination max_pages params).Runs evs) :
    ∀ before client' request exchange after,
      evs = before ++ ⟨.exchange client' request, exchange⟩ :: after →
        Confined params first (chain_of before) request := by
  rintro before client' request exchange after rfl
  obtain ⟨rest, hemits⟩ := hrun
  have hsafe : (paginate crate from_slice client first pagination max_pages params).Safe Chain.note
      (Question.Confined params first) (fun _ _ => True) {} :=
    fetch_pages_confined pagination max_pages max_pages first [] (.inl rfl)
  exact hsafe.question hemits

/-- A POST that is redirected away and back: the credential stays at home, and
the body is gone after the first redirect. -/
theorem paginate_confined_chain : ∃ (before : List IoEvent) (request : Request),
    Confined chain_params ⟨.POST, chain_home, [], some .null⟩ (chain_of before) request ∧
      (chain_of before).followed = 2 ∧ request.url = chain_home ∧ request.headers = chain_bearer ∧
        request.body = none := by
  let client : Client := ⟨⟨{}⟩, false, false, false, [], 1, 1⟩
  let found := chain_moved ⟨302, by decide⟩
  let temporary := chain_moved ⟨307, by decide⟩
  have haway : (send_hops chain_crate client chain_params (0 : Nat) 5
      ⟨.POST, chain_home, [], some .null⟩).Emits _ _ :=
    send_hops_redirected client (0 : Nat) 4 ⟨.POST, chain_home, [], some .null⟩
      ⟨.GET, chain_away, [], none⟩ (0 : Nat) ⟨0, .ok [], .ok found⟩ chain_bearer rfl (by decide) rfl
      rfl rfl (next_hop_moved _ rfl)
  have hback : (send_hops chain_crate client chain_params (0 : Nat) 4
      ⟨.GET, chain_away, [], none⟩).Emits _ _ :=
    send_hops_redirected client (0 : Nat) 3 ⟨.GET, chain_away, [], none⟩ ⟨.GET, chain_home, [], none⟩
      (0 : Nat) ⟨0, .ok [], .ok temporary⟩ [] rfl (by decide) rfl rfl rfl (next_hop_moved _ rfl)
  have hagain : (send_hops chain_crate client chain_params (0 : Nat) 3
      ⟨.GET, chain_home, [], none⟩).Emits _ _ :=
    send_hops_redirected client (0 : Nat) 2 ⟨.GET, chain_home, [], none⟩ ⟨.GET, chain_away, [], none⟩
      (0 : Nat) ⟨0, .ok [], .ok found⟩ chain_bearer rfl (by decide) rfl rfl rfl (next_hop_moved _ rfl)
  have hsend : (send chain_crate client ⟨.POST, chain_home, [], some .null⟩ chain_params).Emits
      _ _ := .cons ((haway.append hback).append hagain)
  have hruns : (paginate chain_crate (fun _ => .error "") client ⟨.POST, chain_home, [], some .null⟩
      .None 1 chain_params).Runs _ := ⟨_, hsend.bind_left _⟩
  exact ⟨_, _, paginate_confined hruns [⟨.now, (0 : Nat)⟩, ⟨.now, (0 : Nat)⟩, ⟨.exchange _ _, _⟩,
    ⟨.now, (0 : Nat)⟩, ⟨.exchange _ _, _⟩, ⟨.now, (0 : Nat)⟩] client _ _ [] rfl, rfl, rfl, rfl, rfl⟩

end api2mcp.http
