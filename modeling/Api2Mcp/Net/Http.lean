import Mathlib.Data.List.Basic

namespace net

inductive Method where
  | GET | POST | PUT | DELETE | HEAD | OPTIONS | CONNECT | PATCH | TRACE
  | Extension (name : String)
  deriving DecidableEq, Repr

/-- Three digits, the first one not zero. -/
structure StatusCode where
  as_u16 : Nat
  valid : 100 ≤ as_u16 ∧ as_u16 < 1000
  deriving DecidableEq

def StatusCode.OK : StatusCode := ⟨200, by decide⟩

def StatusCode.is_success (status : StatusCode) : Bool :=
  200 ≤ status.as_u16 && status.as_u16 < 300

/-- The bytes of a text. -/
def utf8 (s : String) : List UInt8 := s.toUTF8.data.toList

theorem utf8_eq (s : String) : utf8 s = s.toList.flatMap String.utf8EncodeChar := by
  have hencode : s.toByteArray = s.toList.utf8Encode := String.utf8Encode_toList.symm
  show s.toByteArray.data.toList = _
  rw [hencode, List.utf8Encode]
  simp

/-- A character a header name may be written with. -/
def name_char (c : Char) : Bool :=
  ('a' ≤ c && c ≤ 'z') || ('A' ≤ c && c ≤ 'Z') || ('0' ≤ c && c ≤ '9') ||
    "!#$%&'*+-.^_|~".toList.contains c || c == Char.ofNat 96

/-- A method that is not one of the known ones is any token. -/
def Method.from_bytes : String → Option Method
  | "GET" => some .GET
  | "POST" => some .POST
  | "PUT" => some .PUT
  | "DELETE" => some .DELETE
  | "HEAD" => some .HEAD
  | "OPTIONS" => some .OPTIONS
  | "CONNECT" => some .CONNECT
  | "PATCH" => some .PATCH
  | "TRACE" => some .TRACE
  | name => if name = "" || !name.toList.all name_char then none else some (.Extension name)

def Method.as_str : Method → String
  | .GET => "GET" | .POST => "POST" | .PUT => "PUT" | .DELETE => "DELETE" | .HEAD => "HEAD"
  | .OPTIONS => "OPTIONS" | .CONNECT => "CONNECT" | .PATCH => "PATCH" | .TRACE => "TRACE"
  | .Extension name => name

/-- A header name, in lower case. -/
structure HeaderName where
  as_str : String
  deriving DecidableEq, Repr

def HeaderName.try_from (s : String) : Option HeaderName :=
  if s = "" || s.utf8ByteSize > 65535 || !s.toList.all name_char then none
  else some ⟨String.ofList (s.toList.map Char.toLower)⟩

structure HeaderValue where
  bytes : List UInt8
  is_sensitive : Bool := false
  deriving DecidableEq, Repr

namespace HeaderValue

/-- A byte a header value may hold. -/
def is_valid (b : UInt8) : Bool := (b ≥ 32 && b != 127) || b == 9

def is_visible_ascii (b : UInt8) : Bool := (b ≥ 32 && b < 127) || b == 9

def from_str (s : String) : Option HeaderValue :=
  if (utf8 s).all is_valid then some ⟨utf8 s, false⟩ else none

def to_str (v : HeaderValue) : Option String :=
  if v.bytes.all is_visible_ascii then
    some (String.ofList (v.bytes.map fun b => Char.ofNat b.toNat))
  else none

/-- A text is a header value by its characters. -/
theorem isSome_from_str (s : String) : (from_str s).isSome = true ↔
    ∀ c ∈ s.toList, (String.utf8EncodeChar c).all is_valid = true := by
  unfold from_str
  rw [utf8_eq]
  split
  · rename_i hall
    simpa using hall
  · rename_i hall
    simpa using hall

end HeaderValue

/-- Names with their values, in order. -/
abbrev HeaderMap := List (HeaderName × HeaderValue)

namespace HeaderMap

def get (headers : HeaderMap) (name : HeaderName) : Option HeaderValue :=
  (headers.find? fun h => h.1 = name).map (·.2)

/-- The value replaces every value the name had. -/
def insert (headers : HeaderMap) (name : HeaderName) (value : HeaderValue) : HeaderMap :=
  headers.filter (fun h => h.1 ≠ name) ++ [(name, value)]

end HeaderMap

end net
