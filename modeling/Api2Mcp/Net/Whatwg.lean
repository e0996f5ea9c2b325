import Api2Mcp.Net.Url
import Api2Mcp.Text.Utf8

/-!
The origin of what a text leads to, by the basic URL parser of the URL
standard, for a base whose scheme is special. Each definition is a state of the
parser, on the characters that are left; the states that cannot change the
origin any more are left out. The host parser is a parameter.
-/

namespace whatwg

open net

def is_tab_or_newline (c : Char) : Bool := c = '\t' || c = '\n' || c = '\r'

def is_c0_control_or_space (c : Char) : Bool := c.toNat ≤ 0x20

/-- What the parser reads of its input. -/
def preprocess (input : String) : List Char :=
  (text.trim_matches is_c0_control_or_space input).toList.filter fun c => !is_tab_or_newline c

/-- In a special URL a backslash is a slash. -/
def is_slash (c : Char) : Bool := c = '/' || c = '\\'

def is_special (scheme : String) : Bool := ["http", "https", "ws", "wss", "ftp"].contains scheme

/-- Where the authority of a special URL ends. -/
def ends_authority (c : Char) : Bool := c = '/' || c = '\\' || c = '?' || c = '#'

/-- What stands after the last `@`; `none` when there is none. -/
def after_at (authority : List Char) : Option (List Char) :=
  if '@' ∈ authority then some ((authority.reverse.takeWhile (· ≠ '@')).reverse) else none

/-- The host and what follows its `:`; a `:` in brackets is the host's. -/
def split_port (bracket : Bool) : List Char → List Char × Option (List Char)
  | [] => ([], none)
  | c :: rest =>
    if c = ':' && !bracket then ([], some rest)
    else
      let (host, port) := split_port (c = '[' || (bracket && c ≠ ']')) rest
      (c :: host, port)

/-- The port state: `none` is a failure, and no digits are no port. -/
def parse_port (scheme : String) (digits : List Char) : Option (Option Nat) :=
  if !digits.all Char.isDigit then none
  else if digits = [] then some none
  else
    let port := digits.foldl (fun n c => n * 10 + (c.toNat - '0'.toNat)) 0
    if port > 65535 then none else if default_port scheme = some port then some none else some (some port)

section

variable (host_parse : List Char → Option Host)

/-- The host state and the port state. -/
def host_state (scheme : String) (text : List Char) : Option UrlOrigin :=
  let (host, port) := split_port false text
  if host = [] then none
  else
    match host_parse host, parse_port scheme (port.getD []) with
    | some host, some port =>
      match port.or (default_port scheme) with
      | some port => some (.Tuple scheme host port)
      | none => some .Opaque
    | _, _ => none

def authority_state (scheme : String) (rest : List Char) : Option UrlOrigin :=
  let authority := rest.takeWhile fun c => !ends_authority c
  match after_at authority with
  | some host => host_state host_parse scheme host
  | none => host_state host_parse scheme authority

def special_authority_ignore_slashes_state (scheme : String) (rest : List Char) : Option UrlOrigin :=
  authority_state host_parse scheme (rest.dropWhile is_slash)

def relative_slash_state (base : Url) : List Char → Option UrlOrigin
  | [] => some base.origin
  | c :: rest =>
    if is_slash c then special_authority_ignore_slashes_state host_parse base.scheme rest else some base.origin

def relative_state (base : Url) : List Char → Option UrlOrigin
  | [] => some base.origin
  | c :: rest => if is_slash c then relative_slash_state host_parse base rest else some base.origin

def special_relative_or_authority_state (base : Url) : List Char → Option UrlOrigin
  | '/' :: '/' :: rest => special_authority_ignore_slashes_state host_parse base.scheme rest
  | rest => relative_state host_parse base rest

def scheme_char (c : Char) : Bool := c.isAlphanum || c = '+' || c = '-' || c = '.'

/-- The scheme in lower case, and what stands after its `:`. -/
def scheme_of : List Char → Option (String × List Char)
  | [] => none
  | c :: rest =>
    if !c.isAlpha then none
    else
      match (c :: rest).dropWhile scheme_char with
      | ':' :: after => some (String.ofList (((c :: rest).takeWhile scheme_char).map Char.toLower), after)
      | _ => none

/-- A text of its own, without a base. -/
def absolute_origin (input : List Char) : Option UrlOrigin :=
  match scheme_of input with
  | none => none
  | some (scheme, rest) =>
    if is_special scheme then special_authority_ignore_slashes_state host_parse scheme rest else some .Opaque

/-- The origin of the path of a `blob:` URL, where that is an HTTP one. -/
def blob_origin (rest : List Char) : UrlOrigin :=
  match absolute_origin host_parse (rest.takeWhile fun c => c ≠ '?' && c ≠ '#') with
  | some (.Tuple scheme host port) =>
    if scheme = "http" || scheme = "https" then .Tuple scheme host port else .Opaque
  | _ => .Opaque

/-- The origin of the text resolved against the base; `none` is a failure. -/
def resolve_origin (base : Url) (input : String) : Option UrlOrigin :=
  let input := preprocess input
  match scheme_of input with
  | none => relative_state host_parse base input
  | some (scheme, rest) =>
    if is_special scheme then
      if scheme = base.scheme then special_relative_or_authority_state host_parse base rest
      else special_authority_ignore_slashes_state host_parse scheme rest
    else if scheme = "blob" then some (blob_origin host_parse rest)
    else some .Opaque

end

/-- What is trimmed stands before the first character that stays. -/
theorem trim_matches_cons {p : Char → Bool} {s : String} {c : Char} {rest : List Char} (h : s.toList = c :: rest)
    (hc : p c = false) : ∃ rest', (text.trim_matches p s).toList = c :: rest' := by
  have hback : ∀ front : List Char, ∃ kept, (front ++ [c]).dropWhile p = kept ++ [c] := by
    intro front
    induction front with
    | nil => exact ⟨[], by simp [hc]⟩
    | cons d front ih =>
      rw [List.cons_append, List.dropWhile_cons]
      split
      · exact ih
      · exact ⟨d :: front, rfl⟩
  obtain ⟨kept, hkept⟩ := hback rest.reverse
  refine ⟨kept.reverse, ?_⟩
  rw [text.trim_matches, h, List.dropWhile_cons_of_neg (by rw [hc]; simp), List.reverse_cons, hkept]
  simp

theorem preprocess_of_slash {input : String} {rest : List Char} (h : input.toList = '/' :: rest) :
    ∃ rest', preprocess input = '/' :: rest' := by
  obtain ⟨rest', htrim⟩ := trim_matches_cons (p := is_c0_control_or_space) h (by decide)
  exact ⟨rest'.filter fun c => !is_tab_or_newline c, by rw [preprocess, htrim]; rfl⟩

section

variable {host_parse : List Char → Option Host} {base : Url}

/-- A text that begins with a slash is relative. -/
theorem resolve_origin_of_slash {input : String} {rest : List Char} (h : preprocess input = '/' :: rest) :
    resolve_origin host_parse base input = relative_slash_state host_parse base rest := by
  have hscheme : scheme_of ('/' :: rest) = none := by
    simp only [scheme_of, show ('/' : Char).isAlpha = false by decide, Bool.not_false, if_true]
  simp only [resolve_origin, h, hscheme, relative_state, show is_slash '/' = true by decide, if_true]

end

end whatwg
