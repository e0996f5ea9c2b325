import Mathlib.Data.List.TakeWhile
import Api2Mcp.Net.WhatwgPath

/-!
The basic URL parser, for a text without a base. The query and the fragment are
cut off first, as every state that comes before them ends at their delimiters.
-/

namespace whatwg

open net

/-- What stands before a character, and what stands after it. -/
def cut (d : Char) (text : List Char) : List Char × Option (List Char) :=
  (text.takeWhile (· ≠ d), if d ∈ text then some ((text.dropWhile (· ≠ d)).drop 1) else none)

/-- The percent-encode set of the query of a URL. -/
def query_set_of (scheme : String) : Char → Bool := if special scheme then special_query_set else query_set

/-- The query state and the fragment state. -/
def with_query (url : Url) (query fragment : Option (List Char)) : Url :=
  { url with
    query := query.map fun query => String.ofList (encode (query_set_of url.scheme) query)
    fragment := fragment.map fun fragment => String.ofList (encode fragment_set fragment) }

/-- All that follows the authority. -/
def path_start (caret : Bool) (url : Url) (rest : List Char) : Url :=
  let (rest, fragment) := cut '#' rest
  let (path, query) := cut '?' rest
  with_query { url with path := String.ofList (path_start_state caret url.scheme path) } query fragment

/-! The host. -/

def forbidden_host (c : Char) : Bool :=
  [Char.ofNat 0, '\t', '\n', '\r', ' ', '#', '/', ':', '<', '>', '?', '@', '[', '\\', ']', '^', '|'].contains c

def opaque_host_parse (text : List Char) : Option Host :=
  if text.any forbidden_host then none else some (.Domain (String.ofList (encode c0_control_set text)))

section

variable (domain ipv6 : List Char → Option Host)

/-- The host parser. What it makes of a domain and of what stands in brackets
are parameters. -/
def host_parse (scheme : String) (text : List Char) : Option Host :=
  if text.head? = some '[' then
    if text.getLast? = some ']' then ipv6 (text.drop 1).dropLast else none
  else if special scheme then domain text
  else opaque_host_parse text

end

/-! The states before the path, of a text without its query and its fragment. -/

namespace absolute

/-- What stands before the last `@`. -/
def before_at (authority : List Char) : List Char := ((authority.reverse.dropWhile (· ≠ '@')).drop 1).reverse

def with_credentials (caret : Bool) (url : Url) (userinfo : List Char) : Url :=
  let (username, password) := cut ':' userinfo
  { url with
    username := String.ofList (encode (userinfo_set caret) username)
    password :=
      match password with
      | none | some [] => none
      | some password => some (String.ofList (encode (userinfo_set caret) password)) }

section

variable (caret : Bool) (domain ipv6 : List Char → Option Host)

/-- The host state and the port state. -/
def host_state (url : Url) (text : List Char) : Option Url :=
  let (host, port) := split_port false text
  if host.isEmpty && (special url.scheme || port.isSome) then none
  else
    match host_parse domain ipv6 url.scheme host, parse_port url.scheme (port.getD []) with
    | some host, some port => some { url with host := some host, port }
    | _, _ => none

/-- The authority state, at the end of the authority. -/
def authority_state (url : Url) (authority : List Char) : Option Url :=
  match after_at authority with
  | none => host_state domain ipv6 url authority
  | some host =>
    if host.isEmpty then none
    else host_state domain ipv6 (with_credentials caret url (before_at authority)) host

def with_path (url : Url) (path : List Char) : Url := { url with path := String.ofList path }

/-- From the authority state on. -/
def from_authority (scheme : String) (rest : List Char) : Option Url :=
  (authority_state caret domain ipv6 { scheme, host := none }
      (rest.takeWhile fun c => !is_separator scheme c)).map fun url =>
    with_path url (path_start_state caret scheme (rest.dropWhile fun c => !is_separator scheme c))

def file_url (host : String) (path : List Char) : Url := with_path { scheme := "file", host := some (.Domain host) } path

/-- A drive letter is no host, and the local one is the empty one. -/
def file_host_state (rest : List Char) : Option Url :=
  let buffer := rest.takeWhile fun c => !is_slash c
  let path := path_start_state caret "file" (rest.dropWhile fun c => !is_slash c)
  if is_drive_letter buffer then some (file_url "" (path_of caret "file" rest))
  else if buffer.isEmpty then some (file_url "" path)
  else
    (host_parse domain ipv6 "file" buffer).map fun host =>
      with_path { scheme := "file", host := some (if host = .Domain "localhost" then .Domain "" else host) } path

def file_slash_state (rest : List Char) : Option Url :=
  match rest with
  | [] => some (file_url "" (path_of caret "file" []))
  | c :: after =>
    if is_slash c then file_host_state caret domain ipv6 after else some (file_url "" (path_of caret "file" rest))

def file_state (rest : List Char) : Option Url :=
  match rest with
  | [] => some (file_url "" (path_of caret "file" []))
  | c :: after =>
    if is_slash c then file_slash_state caret domain ipv6 after else some (file_url "" (path_of caret "file" rest))

/-- A space is encoded where a query or a fragment follows it. -/
def opaque_path_state (more : Bool) : List Char → List Char
  | [] => []
  | [c] => if c = ' ' && more then ['%', '2', '0'] else encode_char c0_control_set c
  | c :: next :: rest => encode_char c0_control_set c ++ opaque_path_state more (next :: rest)

def path_or_authority_state (scheme : String) (rest : List Char) : Option Url :=
  match rest with
  | [] => some (with_path { scheme, host := none } (path_of caret scheme []))
  | c :: after =>
    if c = '/' then from_authority caret domain ipv6 scheme after
    else some (with_path { scheme, host := none } (path_of caret scheme rest))

/-- What stands after the scheme; `more` is whether there is a query or a
fragment. -/
def after_scheme (scheme : String) (more : Bool) (rest : List Char) : Option Url :=
  if scheme = "file" then file_state caret domain ipv6 rest
  else if is_special scheme then from_authority caret domain ipv6 scheme (rest.dropWhile is_slash)
  else if rest.head? = some '/' then path_or_authority_state caret domain ipv6 scheme (rest.drop 1)
  else some (with_path { scheme, host := none } (opaque_path_state more rest))

end

end absolute

section

variable (caret : Bool) (domain ipv6 : List Char → Option Host)

/-- The URL of a text that has nothing to strip. -/
def parse_stripped (input : List Char) : Option Url :=
  match scheme_of input with
  | none => none
  | some (scheme, rest) =>
    let (rest, fragment) := cut '#' rest
    let (rest, query) := cut '?' rest
    (absolute.after_scheme caret domain ipv6 scheme (query.isSome || fragment.isSome) rest).map fun url =>
      with_query url query fragment

/-- The URL of a text, without a base. -/
def parse (input : String) : Option Url := parse_stripped caret domain ipv6 (preprocess input)

end

theorem path_start_path (caret : Bool) (url : Url) (rest : List Char) : (path_start caret url rest).path =
    String.ofList (path_start_state caret url.scheme (cut '?' (cut '#' rest).1).1) := rfl

theorem cut_of_notMem {d : Char} {text : List Char} (h : d ∉ text) : cut d text = (text, none) := by
  have hall : ∀ c ∈ text, decide (c ≠ d) = true := fun c hc => decide_eq_true fun heq => h (heq ▸ hc)
  rw [cut, if_neg h, List.takeWhile_eq_self_iff.mpr hall]

theorem cut_append_cons {d : Char} {text : List Char} (h : d ∉ text) (rest : List Char) :
    cut d (text ++ d :: rest) = (text, some rest) := by
  have hall : ∀ c ∈ text, decide (c ≠ d) = true := fun c hc => decide_eq_true fun heq => h (heq ▸ hc)
  rw [cut, if_pos (by simp), List.takeWhile_append_of_pos hall, List.dropWhile_append_of_pos hall]
  simp

/-- What a query has no code for. -/
theorem of_query_set {c : Char} (h : query_set c = false) : is_c0_control_or_space c = false ∧ c ≠ '#' := by
  simp only [query_set, c0_control_set, Bool.or_eq_false_iff, decide_eq_false_iff_not] at h
  obtain ⟨⟨⟨⟨⟨⟨hcontrol, _⟩, hspace⟩, _⟩, hhash⟩, _⟩, _⟩ := h
  refine ⟨decide_eq_false fun hle => ?_, hhash⟩
  have hval : c.toNat = ' '.toNat := by
    have hcode : ' '.toNat = 32 := rfl
    omega
  exact hspace (Char.toNat_inj.mp hval)

theorem of_path_set {caret : Bool} {c : Char} (h : path_set caret c = false) : query_set c = false ∧ c ≠ '?' := by
  simp only [path_set, Bool.or_eq_false_iff, decide_eq_false_iff_not] at h
  obtain ⟨⟨⟨⟨⟨hquery, hmark⟩, _⟩, _⟩, _⟩, _⟩ := h
  exact ⟨hquery, hmark⟩

theorem not_tab_or_newline {c : Char} (h : is_c0_control_or_space c = false) : is_tab_or_newline c = false := by
  have hall : ∀ d ∈ ['\t', '\n', '\r'], is_c0_control_or_space d = true := by decide
  have hne : ∀ d ∈ ['\t', '\n', '\r'], c ≠ d := by
    rintro d hd rfl
    rw [hall c hd] at h
    cases h
  simp [is_tab_or_newline, hne]

/-- A text that has nothing to strip. -/
theorem preprocess_of_kept {input : String} (h : ∀ c ∈ input.toList, is_c0_control_or_space c = false) :
    preprocess input = input.toList := by
  have hstay : ∀ {cs : List Char}, (∀ c ∈ cs, c ∈ input.toList) → cs.dropWhile is_c0_control_or_space = cs := by
    intro cs hcs
    cases cs with
    | nil => rfl
    | cons c cs => exact List.dropWhile_cons_of_neg (by simp [h c (hcs c (List.mem_cons_self ..))])
  rw [preprocess, text.trim_matches, hstay fun _ => id, hstay fun c hc => List.mem_reverse.mp hc,
    List.reverse_reverse, String.toList_ofList, List.filter_eq_self]
  intro c hc
  simp [not_tab_or_newline (h c hc)]

end whatwg
