import Api2Mcp.Http.Paginate
import Api2Mcp.Http.Pinned

namespace api2mcp.http

open net interact serde_json jsonptr
open api2mcp.model

/-! The requests and the responses of a paginated call. -/

section

variable (crate : UrlCrate) (from_slice : List UInt8 → Except String Value) (client : Client)
  (pagination : Pagination) (max_pages : Nat) (params : SendParams)

/-- What has been asked so far sends the `requests` in turn, each of the first
ones answered by a response. The outcome is there once the loop has ended. -/
inductive Fetching : Nat → BoundRequest → List IoEvent → List BoundRequest → List CallResponse →
    Option (Except PaginateError Unit) → Prop
  | capped (request : BoundRequest) :
      Fetching 0 request [] [] [] (some (.error (.PageCapExceeded max_pages)))
  | sending {left : Nat} {request : BoundRequest} {evs : List IoEvent} {rest : Io (Except CallError CallResponse)}
      (hsend : (send crate client request params).Emits evs rest) (hopen : ∀ answer, rest ≠ .done answer) :
      Fetching (left + 1) request evs [request] [] none
  | failed {left : Nat} {request : BoundRequest} {evs : List IoEvent} {e : CallError}
      (hsend : (send crate client request params).Emits evs (.done (.error e))) :
      Fetching (left + 1) request evs [request] [] (some (.error (.Call e)))
  | refused {left : Nat} {request : BoundRequest} {evs : List IoEvent} {response : CallResponse} {e : PaginateError}
      (hsend : (send crate client request params).Emits evs (.done (.ok response)))
      (hnext : next_request crate from_slice response pagination = .error e) :
      Fetching (left + 1) request evs [request] [response] (some (.error e))
  | last {left : Nat} {request : BoundRequest} {evs : List IoEvent} {response : CallResponse}
      (hsend : (send crate client request params).Emits evs (.done (.ok response)))
      (hnext : next_request crate from_slice response pagination = .ok none) :
      Fetching (left + 1) request evs [request] [response] (some (.ok ()))
  | more {left : Nat} {request next : BoundRequest} {evs evs' : List IoEvent} {response : CallResponse}
      {requests : List BoundRequest} {responses : List CallResponse} {outcome : Option (Except PaginateError Unit)}
      (hsend : (send crate client request params).Emits evs (.done (.ok response)))
      (hnext : next_request crate from_slice response pagination = .ok (some next))
      (hrest : Fetching left next evs' requests responses outcome) :
      Fetching (left + 1) request (evs ++ evs') (request :: requests) (response :: responses) outcome

/-- What the loop has come to, with the pages it had before. -/
def Concluded (pages responses : List CallResponse) (rest : Io (Except PaginateError (List CallResponse)))
    (outcome : Option (Except PaginateError Unit)) : Prop :=
  ∀ result, outcome = some result → rest = .done (result.map fun _ => pages ++ responses)

end

section

variable {crate : UrlCrate} {from_slice : List UInt8 → Except String Value} {client : Client}
  {pagination : Pagination} {max_pages : Nat} {params : SendParams}

/-- Every run of the loop sends requests in turn. -/
theorem fetching_of_emits {left : Nat} {request : BoundRequest} {pages : List CallResponse} {evs : List IoEvent}
    {rest : Io (Except PaginateError (List CallResponse))}
    (h : (fetch_pages crate from_slice client pagination max_pages params left request pages).Emits evs rest) :
    ∃ requests responses outcome,
      Fetching crate from_slice client pagination max_pages params left request evs requests responses outcome ∧
        Concluded pages responses rest outcome := by
  induction left generalizing request pages evs with
  | zero =>
    obtain ⟨rfl, rfl⟩ := Prog.Emits.of_done h
    exact ⟨_, _, _, .capped request, by rintro _ ⟨⟩; rfl⟩
  | succ left ih =>
    unfold fetch_pages at h
    obtain ⟨rest', hsend, hopen, -⟩ | ⟨answer, before, after, rfl, hsend, hafter⟩ := h.of_bind_open
    · exact ⟨_, _, _, .sending hsend hopen, by rintro _ ⟨⟩⟩
    cases answer with
    | error e =>
      obtain ⟨rfl, rfl⟩ := Prog.Emits.of_done hafter
      rw [List.append_nil]
      exact ⟨_, _, _, .failed hsend, by rintro _ ⟨⟩; rfl⟩
    | ok response =>
      dsimp only at hafter
      split at hafter
      · rename_i e hnext
        obtain ⟨rfl, rfl⟩ := Prog.Emits.of_done hafter
        rw [List.append_nil]
        exact ⟨_, _, _, .refused hsend hnext, by rintro _ ⟨⟩; rfl⟩
      · rename_i hnext
        obtain ⟨rfl, rfl⟩ := Prog.Emits.of_done hafter
        rw [List.append_nil]
        exact ⟨_, _, _, .last hsend hnext, by rintro _ ⟨⟩; rfl⟩
      · rename_i next hnext
        obtain ⟨requests, responses, outcome, hrest, hconcluded⟩ := ih hafter
        refine ⟨_, _, _, .more hsend hnext hrest, fun result hresult => ?_⟩
        rw [hconcluded result hresult, List.append_assoc, List.singleton_append]

/-- Requests that were sent in turn to an end are a run of the loop. -/
theorem Fetching.emits {left : Nat} {request : BoundRequest} {evs : List IoEvent} {requests : List BoundRequest}
    {responses : List CallResponse} {outcome : Except PaginateError Unit}
    (h : Fetching crate from_slice client pagination max_pages params left request evs requests responses
      (some outcome)) (pages : List CallResponse) :
    (fetch_pages crate from_slice client pagination max_pages params left request pages).Emits evs
      (.done (outcome.map fun _ => pages ++ responses)) := by
  generalize hsome : some outcome = ended at h
  induction h generalizing pages with
  | capped request =>
    cases hsome
    exact .nil _
  | sending => cases hsome
  | failed hsend =>
    cases hsome
    exact hsend.bind_done rfl
  | refused hsend hnext =>
    cases hsome
    refine hsend.bind_done ?_
    simp only [hnext]
    rfl
  | last hsend hnext =>
    cases hsome
    refine hsend.bind_done ?_
    simp only [hnext]
    rfl
  | @more _ _ _ _ _ response _ _ _ hsend hnext _ ih =>
    refine hsend.bind ?_
    simp only [hnext]
    have hrest := ih (pages ++ [response]) hsome
    rwa [List.append_assoc, List.singleton_append] at hrest

theorem of_getElem?_singleton {α : Type} {a b : α} {k : Nat} (h : [a][k]? = some b) : k = 0 ∧ b = a := by
  cases k with
  | zero => exact ⟨rfl, (Option.some.inj h).symm⟩
  | succ k => cases h

/-- What a response leads to: the next request, or the end of the loop. -/
theorem Fetching.ended {left : Nat} {request : BoundRequest} {evs : List IoEvent} {requests : List BoundRequest}
    {responses : List CallResponse} {outcome : Option (Except PaginateError Unit)}
    (h : Fetching crate from_slice client pagination max_pages params left request evs requests responses outcome)
    {k : Nat} {response : CallResponse} (hresponse : responses[k]? = some response) :
    k + 1 < requests.length ∨ requests.length = k + 1 ∧
      ((next_request crate from_slice response pagination = .ok none ∧ outcome = some (.ok ())) ∨
        ∃ e, outcome = some (.error e) ∧ next_request crate from_slice response pagination ≠ .ok none) := by
  induction h generalizing k with
  | capped => cases hresponse
  | sending => cases hresponse
  | failed => cases hresponse
  | refused _ hnext =>
    obtain ⟨rfl, rfl⟩ := of_getElem?_singleton hresponse
    refine .inr ⟨rfl, .inr ⟨_, rfl, ?_⟩⟩
    rw [hnext]
    rintro ⟨⟩
  | last _ hnext =>
    obtain ⟨rfl, rfl⟩ := of_getElem?_singleton hresponse
    exact .inr ⟨rfl, .inl ⟨hnext, rfl⟩⟩
  | @more left request next evs evs' response requests responses outcome _ hnext hrest ih =>
    cases k with
    | zero =>
      obtain rfl := Option.some.inj hresponse
      cases hrest with
      | capped =>
        refine .inr ⟨rfl, .inr ⟨_, rfl, ?_⟩⟩
        rw [hnext]
        rintro ⟨⟩
      | _ => exact .inl (by simp)
    | succ k =>
      obtain hmore | ⟨hlength, hend⟩ := ih hresponse
      · exact .inl (Nat.succ_lt_succ hmore)
      · exact .inr ⟨congrArg Nat.succ hlength, hend⟩

/-- Every request after the first was made of a response, which came from the
request before it. -/
theorem Fetching.next {left : Nat} {request : BoundRequest} {evs : List IoEvent} {requests : List BoundRequest}
    {responses : List CallResponse} {outcome : Option (Except PaginateError Unit)}
    (h : Fetching crate from_slice client pagination max_pages params left request evs requests responses outcome) :
    (∀ head, requests[0]? = some head → head = request) ∧
      ∀ k next, requests[k + 1]? = some next → ∃ response, responses[k]? = some response ∧
        next_request crate from_slice response pagination = .ok (some next) := by
  induction h with
  | capped => exact ⟨by rintro _ ⟨⟩, by rintro _ _ ⟨⟩⟩
  | sending => exact ⟨by rintro _ ⟨⟩; rfl, by rintro _ _ ⟨⟩⟩
  | failed => exact ⟨by rintro _ ⟨⟩; rfl, by rintro _ _ ⟨⟩⟩
  | refused => exact ⟨by rintro _ ⟨⟩; rfl, by rintro _ _ ⟨⟩⟩
  | last => exact ⟨by rintro _ ⟨⟩; rfl, by rintro _ _ ⟨⟩⟩
  | @more left request next evs evs' response requests responses outcome _ hnext _ ih =>
    refine ⟨by rintro _ ⟨⟩; rfl, fun k following hfollowing => ?_⟩
    rw [List.getElem?_cons_succ] at hfollowing
    cases k with
    | zero =>
      obtain rfl := ih.1 following hfollowing
      exact ⟨response, rfl, hnext⟩
    | succ k => exact ih.2 k following hfollowing

/-- A page that names no next one is the last. -/
theorem Fetching.final {left : Nat} {request : BoundRequest} {evs : List IoEvent} {requests : List BoundRequest}
    {responses : List CallResponse} {outcome : Option (Except PaginateError Unit)}
    (h : Fetching crate from_slice client pagination max_pages params left request evs requests responses outcome)
    {k : Nat} {response : CallResponse} (hresponse : responses[k]? = some response)
    (hnone : next_request crate from_slice response pagination = .ok none) :
    requests.length = k + 1 ∧ outcome = some (.ok ()) := by
  obtain hmore | ⟨hlength, ⟨-, houtcome⟩ | ⟨_, -, hnext⟩⟩ := h.ended hresponse
  · obtain ⟨response', hresponse', hnext⟩ := h.next.2 k _ (List.getElem?_eq_getElem hmore)
    obtain rfl := Option.some.inj (hresponse.symm.trans hresponse')
    rw [hnone] at hnext
    cases hnext
  · exact ⟨hlength, houtcome⟩
  · exact absurd hnone hnext

/-! What a page has of the first one. -/

/-- Two URLs differ in the pairs of a key alone. -/
def SameAddress (crate : UrlCrate) (key : String) (url url' : Url) : Prop :=
  { url' with query := none } = { url with query := none } ∧
    ((query_pairs crate url').filter fun kv => kv.1 ≠ key).Perm
      ((query_pairs crate url).filter fun kv => kv.1 ≠ key)

/-- The request is the first one with the cursor in its query. -/
structure SamePage (crate : UrlCrate) (key cursor : String) (first request : BoundRequest) : Prop where
  method : request.method = first.method
  headers : request.headers = first.headers
  body : request.body = first.body
  address : SameAddress crate key first.url request.url
  cursor : (query_pairs crate request.url).filter (fun kv => kv.1 = key) = [(key, cursor)]

/-- Each request after the first is the first one, with the cursor that the
response before it holds. -/
def SamePages (crate : UrlCrate) (from_slice : List UInt8 → Except String Value) (path : PointerBuf) (key : String)
    (first : BoundRequest) (requests : List BoundRequest) (responses : List CallResponse) : Prop :=
  ∀ k request, requests[k + 1]? = some request → ∃ response body cursor, responses[k]? = some response ∧
    from_slice response.body = .ok body ∧ resolve path.tokens body = some (.string cursor) ∧
      SamePage crate key cursor first request

/-- A next page is a bare `GET` of the last one, with the cursor. -/
theorem next_request_cursor {path : PointerBuf} {key : String} {response : CallResponse} {next : BoundRequest}
    (h : next_request crate from_slice response (.Cursor path key) = .ok (some next)) :
    ∃ body cursor, from_slice response.body = .ok body ∧ resolve path.tokens body = some (.string cursor) ∧
      next = { method := .GET, url := set_query_param crate response.url key cursor, headers := [], body := none } := by
  simp only [next_request] at h
  split at h
  · cases h
  rename_i body hbody
  split at h
  · cases h
  · cases h
  · rename_i cursor hcursor
    cases h
    exact ⟨body, cursor, hbody, hcursor, rfl⟩
  · cases h

theorem filter_set_query_param (hlaws : FormLaws crate) (url : Url) (key value : String) :
    (query_pairs crate (set_query_param crate url key value)).filter (fun kv => kv.1 ≠ key) =
        (query_pairs crate url).filter (fun kv => kv.1 ≠ key) ∧
      (query_pairs crate (set_query_param crate url key value)).filter (fun kv => kv.1 = key) = [(key, value)] := by
  rw [query_pairs_set_query_param hlaws, List.filter_append, List.filter_append, List.filter_filter, List.filter_filter]
  constructor
  · simp
  · have hnone : (query_pairs crate url).filter (fun kv => decide (kv.1 = key) && decide (kv.1 ≠ key)) = [] :=
      List.filter_eq_nil_iff.mpr fun kv _ => by simp
    rw [hnone]
    simp

/-- Writing the cursor changes nothing else in a URL. -/
theorem same_address_set (hlaws : FormLaws crate) (key cursor : String) (url url' : Url) :
    SameAddress crate key url (set_query_param crate url' key cursor) ↔ SameAddress crate key url url' := by
  unfold SameAddress
  rw [(filter_set_query_param hlaws url' key cursor).1]
  exact Iff.rfl

theorem same_page_iff (hlaws : FormLaws crate) (key cursor : String) (first : BoundRequest) (url : Url) :
    SamePage crate key cursor first
        { method := .GET, url := set_query_param crate url key cursor, headers := [], body := none } ↔
      (first.method = .GET ∧ first.headers = [] ∧ first.body = none) ∧ SameAddress crate key first.url url := by
  constructor
  · rintro ⟨hmethod, hheaders, hbody, haddress, -⟩
    exact ⟨⟨hmethod.symm, hheaders.symm, hbody.symm⟩, (same_address_set hlaws _ _ _ _).mp haddress⟩
  · rintro ⟨⟨hmethod, hheaders, hbody⟩, haddress⟩
    exact ⟨hmethod.symm, hheaders.symm, hbody.symm, (same_address_set hlaws _ _ _ _).mpr haddress,
      (filter_set_query_param hlaws url key cursor).2⟩

/-- Every run of a call with a cursor sends requests in turn. Those after the
first are the first one with the cursor of the page before exactly if there are
none of them, or the first is a bare `GET` whose pages came from its address. -/
theorem same_pages_iff (hlaws : FormLaws crate) (from_slice : List UInt8 → Except String Value) (client : Client)
    (max_pages : Nat) (params : SendParams) (path : PointerBuf) (key : String) (first : BoundRequest) :
    (∀ evs rest, (paginate crate from_slice client first (.Cursor path key) max_pages params).Emits evs rest →
        ∃ requests responses outcome, Fetching crate from_slice client (.Cursor path key) max_pages params max_pages
          first evs requests responses outcome) ∧
      ∀ evs requests responses outcome, Fetching crate from_slice client (.Cursor path key) max_pages params max_pages
          first evs requests responses outcome →
        (SamePages crate from_slice path key first requests responses ↔
          requests.length ≤ 1 ∨ (first.method = .GET ∧ first.headers = [] ∧ first.body = none) ∧
            ∀ k response, k + 1 < requests.length → responses[k]? = some response →
              SameAddress crate key first.url response.url) := by
  constructor
  · intro evs rest hemits
    obtain ⟨requests, responses, outcome, hfetching, -⟩ := fetching_of_emits hemits
    exact ⟨requests, responses, outcome, hfetching⟩
  intro evs requests responses outcome hfetching
  obtain ⟨-, hnext⟩ := hfetching.next
  -- The page that a later request was made of, and what is then left to be compared.
  have hpage : ∀ k request, requests[k + 1]? = some request → ∃ response body cursor,
      responses[k]? = some response ∧ from_slice response.body = .ok body ∧
        resolve path.tokens body = some (.string cursor) ∧ (SamePage crate key cursor first request ↔
          (first.method = .GET ∧ first.headers = [] ∧ first.body = none) ∧
            SameAddress crate key first.url response.url) := by
    intro k request hrequest
    obtain ⟨response, hresponse, hmade⟩ := hnext k request hrequest
    obtain ⟨body, cursor, hbody, hcursor, rfl⟩ := next_request_cursor hmade
    exact ⟨response, body, cursor, hresponse, hbody, hcursor, same_page_iff hlaws key cursor first response.url⟩
  constructor
  · intro hsame
    obtain hone | hmany := Nat.lt_or_ge 1 requests.length
    rotate_left
    · exact .inl hmany
    have hafter : ∀ k, k + 1 < requests.length → ∃ response, responses[k]? = some response ∧
        (first.method = .GET ∧ first.headers = [] ∧ first.body = none) ∧
          SameAddress crate key first.url response.url := by
      intro k hk
      have hrequest : requests[k + 1]? = some requests[k + 1] := List.getElem?_eq_getElem hk
      obtain ⟨response, body, cursor, hresponse, hbody, hcursor, hiff⟩ := hpage k _ hrequest
      obtain ⟨response', body', cursor', hresponse', hbody', hcursor', hpage'⟩ := hsame k _ hrequest
      obtain rfl := Option.some.inj (hresponse.symm.trans hresponse')
      obtain rfl := Except.ok.inj (hbody.symm.trans hbody')
      obtain rfl := Value.string.inj (Option.some.inj (hcursor.symm.trans hcursor'))
      exact ⟨response, hresponse, hiff.mp hpage'⟩
    obtain ⟨-, -, hbare, -⟩ := hafter 0 hone
    refine .inr ⟨hbare, fun k response hk hresponse => ?_⟩
    obtain ⟨response', hresponse', -, haddress⟩ := hafter k hk
    obtain rfl := Option.some.inj (hresponse.symm.trans hresponse')
    exact haddress
  · rintro hcondition k request hrequest
    obtain ⟨hk, -⟩ := List.getElem?_eq_some_iff.mp hrequest
    obtain ⟨response, body, cursor, hresponse, hbody, hcursor, hiff⟩ := hpage k request hrequest
    obtain hone | ⟨hbare, haddress⟩ := hcondition
    · omega
    · exact ⟨response, body, cursor, hresponse, hbody, hcursor, hiff.mpr ⟨hbare, haddress k response hk hresponse⟩⟩

end

/-! A search of two pages, asked for with a body or without one. -/

def search_path : PointerBuf := ⟨["next"]⟩

/-- The text of a page that has a next one. -/
def search_bytes : List UInt8 := utf8 "\x7b\"next\":\"2\"\x7d"

def search_slice (bytes : List UInt8) : Except String Value :=
  if bytes = search_bytes then .ok (.object [("next", .string "2")]) else .error "expected value"

def search_params : SendParams where
  allowlist := [⟨.Tuple "https" (.Domain "svc.example") 443, by decide⟩]
  policy := {}
  auth := none
  max_response_bytes := 1000
  deadline := 1000
  max_redirects := 5

def search_response : CallResponse where
  status := .OK
  headers := []
  url := (things_request "q=rust").url
  body := search_bytes

def search_exchange : Exchange where
  started := 0
  lookup := .error ""
  outcome := .ok { status := .OK, headers := [], content_length := none, chunks := [.ok search_bytes] }

def search_request (method : Method) (body : Option Value) : BoundRequest :=
  { things_request "q=rust" with method, body }

/-- The first page names a second one, which is being asked for. -/
theorem search_fetching (method : Method) (body : Option Value) :
    ∃ evs, Fetching things_crate search_slice (client_of things_service {}) (.Cursor search_path "page") 10
      search_params 10 (search_request method body) evs
      [search_request method body, things_request "q=rust&page=2"] [search_response] none := by
  have hread : ∀ response : RawResponse, response.content_length = none → response.chunks = [.ok search_bytes] →
      read_capped things_crate response search_params.max_response_bytes = .ok search_bytes := by
    intro response hlength hchunks
    have hlen : search_bytes.length = 12 := rfl
    have hcap : search_params.max_response_bytes = 1000 := rfl
    simp [read_capped, hlength, hchunks, read_chunks, hlen, hcap]
  let evs : List IoEvent := [⟨.now, 0⟩, ⟨.now, 0⟩,
    ⟨.exchange (client_of things_service {}) { method, url := (things_request "q=rust").url, headers := []
                                               timeout := 1000, body }, search_exchange⟩]
  have hsend : (send things_crate (client_of things_service {}) (search_request method body) search_params).Emits evs
      (.done (.ok search_response)) :=
    send_emits (client_of things_service {}) (search_request method body) 0 0 search_exchange rfl
      (Nat.not_lt_zero _) rfl rfl rfl (hread _ rfl rfl)
  have hurl : set_query_param things_crate search_response.url "page" "2" = (things_request "q=rust&page=2").url := by
    decide +kernel
  have hnext : next_request things_crate search_slice search_response (.Cursor search_path "page") =
      .ok (some (things_request "q=rust&page=2")) := by
    have hslice : search_slice search_response.body = .ok (.object [("next", .string "2")]) := if_pos rfl
    have hcursor : resolve search_path.tokens (.object [("next", .string "2")]) = some (.string "2") := rfl
    simp only [next_request, hslice, hcursor, hurl]
    rfl
  exact ⟨_, .more hsend hnext (.sending (.nil _) (by rintro _ ⟨⟩))⟩

theorem search_repeated :
    ∃ evs, Fetching things_crate search_slice (client_of things_service {}) (.Cursor search_path "page") 10
        search_params 10 (search_request .GET none) evs
        [search_request .GET none, things_request "q=rust&page=2"] [search_response] none ∧
      SamePages things_crate search_slice search_path "page" (search_request .GET none)
        [search_request .GET none, things_request "q=rust&page=2"] [search_response] := by
  obtain ⟨evs, hfetching⟩ := search_fetching .GET none
  refine ⟨evs, hfetching, ((same_pages_iff things_crate_laws search_slice (client_of things_service {}) 10
    search_params search_path "page" (search_request .GET none)).2 _ _ _ _ hfetching).mpr
      (.inr ⟨⟨rfl, rfl, rfl⟩, fun k response hk hresponse => ?_⟩)⟩
  obtain rfl : k = 0 := Nat.lt_one_iff.mp (Nat.succ_lt_succ_iff.mp hk)
  obtain rfl := Option.some.inj hresponse
  exact ⟨rfl, .refl _⟩

/-- The second page of a search that is posted is asked for without the search. -/
theorem posted_search_got : ¬ ∀ (crate : UrlCrate), FormLaws crate →
    ∀ (from_slice : List UInt8 → Except String Value) (client : Client) (max_pages : Nat) (params : SendParams)
      (path : PointerBuf) (key : String) (first : BoundRequest) (evs : List IoEvent) (requests : List BoundRequest)
      (responses : List CallResponse) (outcome : Option (Except PaginateError Unit)),
      Fetching crate from_slice client (.Cursor path key) max_pages params max_pages first evs requests responses
        outcome → SamePages crate from_slice path key first requests responses := by
  intro h
  obtain ⟨evs, hfetching⟩ := search_fetching .POST (some (.object [("q", .string "rust")]))
  obtain ⟨_, _, _, _, _, _, hpage⟩ := h _ things_crate_laws _ _ _ _ _ _ _ _ _ _ _ hfetching 0 _ rfl
  cases hpage.body

end api2mcp.http
