import Api2Mcp.Http.Auth
import Api2Mcp.Http.Redact
import Api2Mcp.Http.World
import Api2Mcp.Interact.Rules

namespace api2mcp.http

open net

inductive BodyError where
  | ContentLengthExceedsCap (cap actual : Nat)
  | StreamExceedsCap (cap : Nat)
  | Transport (message : String)
  deriving DecidableEq, Repr

/-- The chunks appended to `buf` as long as they fit. -/
def read_chunks (crate : UrlCrate) (cap : Nat) (buf : List UInt8) :
    List (Except TransportError (List UInt8)) → Except BodyError (List UInt8)
  | [] => .ok buf
  | .error e :: _ => .error (.Transport (redact_message crate e.to_string))
  | .ok chunk :: chunks =>
    if buf.length + chunk.length > cap then .error (.StreamExceedsCap cap)
    else read_chunks crate cap (buf ++ chunk) chunks

def read_capped (crate : UrlCrate) (response : RawResponse) (cap : Nat) :
    Except BodyError (List UInt8) :=
  match response.content_length with
  | some len =>
    if len > cap then .error (.ContentLengthExceedsCap cap len)
    else read_chunks crate cap [] response.chunks
  | none => read_chunks crate cap [] response.chunks

end api2mcp.http

namespace api2mcp.http

open net interact
open api2mcp.model

/-- A request without its credential. -/
structure BoundRequest where
  method : Method
  url : Url
  headers : List (String × String)
  body : Option serde_json.Value

structure SendParams where
  allowlist : List Origin
  policy : SsrfPolicy
  auth : Option AuthProvider
  max_response_bytes : Nat
  deadline : Duration
  max_redirects : Nat

structure CallResponse where
  status : StatusCode
  headers : HeaderMap
  url : Url
  body : List UInt8

inductive CallError where
  | Guard (e : GuardError)
  | Auth (e : AuthError)
  | Body (e : BodyError)
  | TooManyRedirects (max : Nat)
  | MissingLocation
  | InvalidLocation (reason : String)
  | Timeout
  | InvalidHeader
  | Transport (message : String)
  deriving DecidableEq, Repr

def is_redirect (status : StatusCode) : Bool :=
  [301, 302, 303, 307, 308].contains status.as_u16

def downgrade (method : Method) (body : Option serde_json.Value) (status : StatusCode) :
    Method × Option serde_json.Value :=
  let downgrades := 301 ≤ status.as_u16 && status.as_u16 ≤ 303 && decide (method ≠ .GET)
  if downgrades then (.GET, none) else (method, body)

/-- A `BTreeMap` of header texts as a header map. -/
def header_map : List (String × String) → Except CallError HeaderMap :=
  List.foldlM (fun out h =>
    match HeaderName.try_from h.1, HeaderValue.from_str h.2 with
    | some name, some value => .ok (HeaderMap.insert out name value)
    | _, _ => .error .InvalidHeader) []

section

variable (crate : UrlCrate)

def map_transport_err (err : TransportError) : CallError :=
  if err.is_timeout then .Timeout
  else .Transport (redact_message crate (": ".intercalate err.chain))

/-- Where a redirect leads. -/
def next_hop (request : BoundRequest) (response : RawResponse) : Except CallError BoundRequest :=
  match response.headers.get ⟨"location"⟩ with
  | none => .error .MissingLocation
  | some location =>
    match location.to_str with
    | none => .error (.InvalidLocation "Location header is not valid ASCII")
    | some location =>
      match crate.join request.url location with
      | .error e => .error (.InvalidLocation e)
      | .ok url =>
        let (method, body) := downgrade request.method request.body response.status
        .ok { method, url, headers := request.headers, body }

/-- The headers of a hop, with the credential where it belongs. -/
def hop_headers (request : BoundRequest) (auth : Option AuthProvider) :
    Io (Except CallError HeaderMap) :=
  match header_map request.headers with
  | .error e => return .error e
  | .ok headers =>
    match auth with
    | none => return .ok headers
    | some provider => do
      match ← apply provider request.url headers with
      | .error e => return .error (.Auth e)
      | .ok headers => return .ok headers

/-- The loop of `send`, with `left` redirects still to be followed. -/
def send_hops (client : Client) (params : SendParams) (started : Instant) :
    Nat → BoundRequest → Io (Except CallError CallResponse)
  | left, request =>
    match check_url request.url params.allowlist params.policy with
    | .error e => return .error (.Guard e)
    | .ok () => do
      let now ← Io.now
      if params.deadline < now - started then return .error .Timeout
      let remaining := params.deadline - (now - started)
      match ← hop_headers request params.auth with
      | .error e => return .error e
      | .ok headers =>
        let exchange ← Io.exchange client
          { method := request.method, url := request.url, headers, timeout := remaining
            body := request.body }
        match exchange.outcome with
        | .error err => return .error (map_transport_err crate err)
        | .ok response =>
          if is_redirect response.status then
            match left with
            | 0 => return .error (.TooManyRedirects params.max_redirects)
            | left + 1 =>
              match next_hop crate request response with
              | .error e => return .error e
              | .ok request => send_hops client params started left request
          else
            match read_capped crate response params.max_response_bytes with
            | .error e => return .error (.Body e)
            | .ok body =>
              return .ok { status := response.status, headers := response.headers
                           url := request.url, body }

def send (client : Client) (request : BoundRequest) (params : SendParams) :
    Io (Except CallError CallResponse) := do
  let started ← Io.now
  send_hops crate client params started params.max_redirects request

section

variable {σ : Type} {note : σ → IoEvent → σ} {P : σ → Question → Prop}

/-- A record that does not read the environment does not change while the
headers of a hop are made. -/
theorem hop_headers_still (hnote : ∀ s key a, note s ⟨.env key, a⟩ = s) (hP : ∀ s key, P s (.env key))
    (request : BoundRequest) (auth : Option AuthProvider) (s : σ) :
    (hop_headers request auth).Safe note P (fun s' _ => s' = s) s := by
  have hcredential : ∀ source, (credential source).Safe note P (fun s' _ => s' = s) s := by
    intro source
    unfold credential
    split
    · refine .ask (hP s _) fun value => ?_
      rw [hnote]
      cases value with
      | none => exact .done rfl
      | some value => exact .done rfl
    · exact .done rfl
    · exact .done rfl
  have happly : ∀ provider headers, (apply provider request.url headers).Safe note P
      (fun s' _ => s' = s) s := by
    intro provider headers
    unfold apply
    split
    · exact .done rfl
    split
    · exact .done rfl
    refine (hcredential _).bind fun s' answer => ?_
    rintro rfl
    split
    · exact .done rfl
    split
    · exact .done rfl
    split
    · exact .done rfl
    · exact .done rfl
  unfold hop_headers
  split
  · exact .done rfl
  split
  · exact .done rfl
  refine (happly _ _).bind fun s' answer => ?_
  rintro rfl
  split
  · exact .done rfl
  · exact .done rfl

end

variable {crate}

/-- A hop whose answer is handed on. -/
theorem send_hops_emits {client : Client} {request : BoundRequest} {params : SendParams}
    {started : Instant} {left : Nat} (now : Instant) (exchange : Exchange) {headers : HeaderMap}
    {response : RawResponse} {body : List UInt8}
    (hchecked : check_url request.url params.allowlist params.policy = .ok ())
    (htime : ¬ params.deadline < now - started)
    (hheaders : hop_headers request params.auth = .done (.ok headers))
    (houtcome : exchange.outcome = .ok response) (hfinal : is_redirect response.status = false)
    (hbody : read_capped crate response params.max_response_bytes = .ok body) :
    (send_hops crate client params started left request).Emits
      [⟨.now, now⟩,
        ⟨.exchange client { method := request.method, url := request.url, headers
                            timeout := params.deadline - (now - started), body := request.body },
          exchange⟩]
      (.done (.ok { status := response.status, headers := response.headers, url := request.url, body })) := by
  rw [send_hops.eq_def]
  simp only [hchecked, hheaders, Io.now_bind, Io.exchange_bind, interact.Prog.pure_eq,
    interact.Prog.done_bind]
  refine .cons ?_
  rw [if_neg htime]
  refine .cons ?_
  simp only [houtcome, hfinal, hbody, Bool.false_eq_true, if_false]
  exact .nil _

/-- A request that is answered at once. -/
theorem send_emits (client : Client) (request : BoundRequest) {params : SendParams}
    (started now : Instant) (exchange : Exchange) {headers : HeaderMap} {response : RawResponse}
    {body : List UInt8} (hchecked : check_url request.url params.allowlist params.policy = .ok ())
    (htime : ¬ params.deadline < now - started)
    (hheaders : hop_headers request params.auth = .done (.ok headers))
    (houtcome : exchange.outcome = .ok response) (hfinal : is_redirect response.status = false)
    (hbody : read_capped crate response params.max_response_bytes = .ok body) :
    (send crate client request params).Emits
      [⟨.now, started⟩, ⟨.now, now⟩,
        ⟨.exchange client { method := request.method, url := request.url, headers
                            timeout := params.deadline - (now - started), body := request.body },
          exchange⟩]
      (.done (.ok { status := response.status, headers := response.headers, url := request.url, body })) := by
  unfold send
  rw [Io.now_bind]
  exact .cons (send_hops_emits now exchange hchecked htime hheaders houtcome hfinal hbody)

end

end api2mcp.http
