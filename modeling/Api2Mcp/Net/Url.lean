import Api2Mcp.Net.IpParser

namespace net

inductive Host where
  | Domain (name : String)
  | Ipv4 (addr : Ipv4Addr)
  | Ipv6 (addr : Ipv6Addr)
  deriving DecidableEq, Repr

/-- The text of a host: an IPv6 address stands in brackets. -/
def Host.to_string : Host → String
  | .Domain name => name
  | .Ipv4 addr => Ipv4Addr.to_string addr
  | .Ipv6 addr => "[" ++ Ipv6Addr.groups_text addr ++ "]"

/-- A parsed URL. A port that is the scheme's default is absent. -/
structure Url where
  scheme : String
  username : String := ""
  password : Option String := none
  host : Option Host
  port : Option Nat := none
  path : String := "/"
  query : Option String := none
  fragment : Option String := none
  deriving DecidableEq, Repr

inductive UrlOrigin where
  | Opaque
  | Tuple (scheme : String) (host : Host) (port : Nat)
  deriving DecidableEq, Repr

def default_port (scheme : String) : Option Nat :=
  if scheme = "http" || scheme = "ws" then some 80
  else if scheme = "https" || scheme = "wss" then some 443
  else if scheme = "ftp" then some 21
  else none

namespace Url

def host_str (url : Url) : Option String := url.host.map Host.to_string

def port_or_known_default (url : Url) : Option Nat := url.port.or (default_port url.scheme)

/-- The origin of a URL of a scheme that has a default port; every other
scheme's is opaque. -/
def origin (url : Url) : UrlOrigin :=
  match default_port url.scheme, url.host, url.port_or_known_default with
  | some _, some host, some port => .Tuple url.scheme host port
  | _, _, _ => .Opaque

/-- The serialization. -/
def to_string (url : Url) : String :=
  let userinfo :=
    match url.password with
    | some password => url.username ++ ":" ++ password ++ "@"
    | none => if url.username = "" then "" else url.username ++ "@"
  let authority :=
    match url.host with
    | some host =>
      "//" ++ userinfo ++ host.to_string ++
        (match url.port with | some port => ":" ++ Nat.repr port | none => "")
    | none => ""
  let query := match url.query with | some query => "?" ++ query | none => ""
  let fragment := match url.fragment with | some fragment => "#" ++ fragment | none => ""
  url.scheme ++ ":" ++ authority ++ url.path ++ query ++ fragment

end Url

/-- The canonical text of an origin. -/
def UrlOrigin.ascii_serialization : UrlOrigin → String
  | .Opaque => "null"
  | .Tuple scheme host port =>
    if default_port scheme = some port then scheme ++ "://" ++ host.to_string
    else scheme ++ "://" ++ host.to_string ++ ":" ++ Nat.repr port

/-- What the `url` and `form_urlencoded` crates compute on texts. -/
structure UrlCrate where
  parse : String → Except String Url
  join : Url → String → Except String Url
  form_parse : String → List (String × String)
  form_serialize : List (String × String) → String
  deriving Inhabited

end net
