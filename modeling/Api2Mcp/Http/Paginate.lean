import Api2Mcp.Http.Send
import Api2Mcp.Model.ApiCall

namespace api2mcp.http

open net
open api2mcp.model

/-- `Duration::from_millis`. -/
def from_millis (ms : Nat) : Duration := ms * 1000

/-- The service's default headers; a malformed one is left out. -/
def default_header_map (service : Service) : HeaderMap :=
  service.default_headers.foldl (fun headers h =>
    match HeaderName.try_from h.1, HeaderValue.from_str h.2 with
    | some name, some value => headers.insert name value
    | _, _ => headers) []

/-- What `build_client` asks of the builder. -/
def client_of (service : Service) (policy : SsrfPolicy) : Client where
  dns_resolver := ⟨policy⟩
  follows_redirects := false
  uses_proxy := false
  sends_referer := false
  default_headers := default_header_map service
  connect_timeout := from_millis service.timeout_ms
  read_timeout := from_millis service.timeout_ms

end api2mcp.http

namespace api2mcp.http

open net serde_json jsonptr
open api2mcp.model

inductive PaginateError where
  | Call (e : CallError)
  | PageCapExceeded (max : Nat)
  | ResponseNotJson (message : String)
  | CursorNotString (pointer actual : String)
  deriving DecidableEq, Repr

section

variable (crate : UrlCrate) (from_slice : List UInt8 → Except String Value)

/-- The pairs of the query with `key` moved to the end and set. -/
def set_query_param (url : Url) (key value : String) : Url :=
  let kept := (crate.form_parse (url.query.getD "")).filter fun kv => kv.1 ≠ key
  { url with query := some (crate.form_serialize (kept ++ [(key, value)])) }

def next_request (response : CallResponse) (pagination : Pagination) :
    Except PaginateError (Option BoundRequest) :=
  match pagination with
  | .None => .ok none
  | .Cursor next_cursor_path query_param =>
    match from_slice response.body with
    | .error e => .error (.ResponseNotJson e)
    | .ok body =>
      match resolve next_cursor_path.tokens body with
      | none | some .null => .ok none
      | some (.string cursor) =>
        .ok (some { method := .GET, url := set_query_param crate response.url query_param cursor
                    headers := [], body := none })
      | some other =>
        .error (.CursorNotString next_cursor_path.to_string other.json_type_name)

/-- The loop of `paginate`, with `left` pages still to be fetched. -/
def fetch_pages (client : Client) (pagination : Pagination) (max_pages : Nat)
    (params : SendParams) : Nat → BoundRequest → List CallResponse →
      Io (Except PaginateError (List CallResponse))
  | 0, _, _ => return .error (.PageCapExceeded max_pages)
  | left + 1, current, pages => do
    match ← send crate client current params with
    | .error e => return .error (.Call e)
    | .ok response =>
      match next_request crate from_slice response pagination with
      | .error e => return .error e
      | .ok none => return .ok (pages ++ [response])
      | .ok (some request) =>
        fetch_pages client pagination max_pages params left request (pages ++ [response])

def paginate (client : Client) (first : BoundRequest) (pagination : Pagination) (max_pages : Nat)
    (params : SendParams) : Io (Except PaginateError (List CallResponse)) :=
  fetch_pages crate from_slice client pagination max_pages params max_pages first []

end

end api2mcp.http
