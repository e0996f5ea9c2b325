import Api2Mcp.Net.Http
import Api2Mcp.Net.Url

namespace api2mcp.http

open net

def ALWAYS_REDACT : List String := ["authorization", "cookie", "set-cookie", "proxy-authorization"]

def REDACTED : String := "<redacted>"

/-- Unicode white space. -/
def is_whitespace (c : Char) : Bool :=
  let n := c.toNat
  (9 ≤ n && n ≤ 13) || n = 0x20 || n = 0x85 || n = 0xa0 || n = 0x1680 ||
    (0x2000 ≤ n && n ≤ 0x200a) || n = 0x2028 || n = 0x2029 || n = 0x202f || n = 0x205f || n = 0x3000

/-- The maximal runs without white space; `word` is the one being read,
backwards. -/
def words (word : List Char) : List Char → List (List Char)
  | [] => if word.isEmpty then [] else [word.reverse]
  | c :: cs =>
    if is_whitespace c then
      if word.isEmpty then words [] cs else word.reverse :: words [] cs
    else words (c :: word) cs

/-- `str::split_whitespace`. -/
def split_whitespace (s : String) : List String := (words [] s.toList).map String.ofList

def redact_url (url : Url) : String :=
  { url with username := "", password := none, query := none, fragment := none : Url }.to_string

def redact_message (crate : UrlCrate) (message : String) : String :=
  " ".intercalate ((split_whitespace message).map fun word =>
    match crate.parse word with
    | .ok url => if url.scheme = "http" || url.scheme = "https" then redact_url url else word
    | .error _ => word)

end api2mcp.http
