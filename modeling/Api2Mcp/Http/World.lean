import Api2Mcp.Http.Resolver
import Api2Mcp.Interact.Prog
import Api2Mcp.Json.Value
import Api2Mcp.Net.Http
import Api2Mcp.Store.Basic

namespace api2mcp.http

open net interact

/-- A point of the monotonic clock. -/
abbrev Instant := Nat

/-- What an upstream client is built with. -/
structure Client where
  dns_resolver : GuardedResolver
  follows_redirects : Bool
  uses_proxy : Bool
  sends_referer : Bool
  default_headers : HeaderMap
  connect_timeout : Duration
  read_timeout : Duration
  deriving DecidableEq

/-- One request handed to a client. -/
structure Request where
  method : Method
  url : Url
  headers : HeaderMap
  timeout : Duration
  body : Option serde_json.Value

/-- A failed request: its message and those of its sources. -/
structure TransportError where
  is_timeout : Bool
  chain : List String

/-- `impl Display for reqwest::Error`, the message without its sources. -/
def TransportError.to_string (e : TransportError) : String := e.chain.head?.getD ""

/-- What came back, the body in decompressed chunks. -/
structure RawResponse where
  status : StatusCode
  headers : HeaderMap
  content_length : Option Nat
  chunks : List (Except TransportError (List UInt8))

/-- What the world does with a request: when it was started, what the name
server said about the host, and how it ended. -/
structure Exchange where
  started : Instant
  lookup : Except String (List IpAddr)
  outcome : Except TransportError RawResponse

/-- What a call asks the world: the time, a variable of the environment, a
request. -/
inductive Question where
  | now
  | env (key : String)
  | exchange (client : Client) (request : Request)

abbrev Answer : Question → Type
  | .now => Instant
  | .env _ => Option String
  | .exchange .. => Exchange

abbrev Io := Prog Question Answer

abbrev IoEvent := Event Question Answer

def Io.now : Io Instant := Prog.query Question.now

def Io.env (key : String) : Io (Option String) := Prog.query (Question.env key)

def Io.exchange (client : Client) (request : Request) : Io Exchange :=
  Prog.query (Question.exchange client request)

@[simp] theorem Io.now_bind {α : Type} (f : Instant → Io α) : (Io.now >>= f) = .ask .now f := rfl

@[simp] theorem Io.env_bind {α : Type} (key : String) (f : Option String → Io α) :
    (Io.env key >>= f) = .ask (.env key) f := rfl

@[simp] theorem Io.exchange_bind {α : Type} (client : Client) (request : Request)
    (f : Exchange → Io α) : (Io.exchange client request >>= f) = .ask (.exchange client request) f :=
  rfl

/-- The addresses a connection to the host is tried at: a literal without
asking the resolver, a name at what the resolver hands out. -/
def connect_addrs (client : Client) (url : Url) (lookup : Except String (List IpAddr)) :
    Except DnsError (List IpAddr) :=
  match url.host with
  | none => .ok []
  | some (.Ipv4 addr) => .ok [.V4 addr]
  | some (.Ipv6 addr) => .ok [.V6 addr]
  | some (.Domain name) => client.dns_resolver.resolve name lookup

/-- The addresses an event opens connections to. -/
def dialed : IoEvent → List IpAddr
  | ⟨.exchange client request, exchange⟩ =>
    match connect_addrs client request.url exchange.lookup with
    | .ok addrs => addrs
    | .error _ => []
  | _ => []

end api2mcp.http
