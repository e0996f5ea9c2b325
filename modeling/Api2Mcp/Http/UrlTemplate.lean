import Api2Mcp.Collections.BTree
import Api2Mcp.Net.Http
import Api2Mcp.Text.Fmt
import Api2Mcp.Text.Percent

namespace api2mcp.http

/-- One element of a parsed template: fixed text, or a placeholder that is the
whole segment. -/
inductive Segment where
  | Literal (text : String)
  | Placeholder (name : String)
  deriving DecidableEq, Repr

structure UrlTemplate where
  segments : List Segment
  deriving DecidableEq, Repr

inductive TemplateError where
  | NotAbsolute (template : String)
  | DoubleSlashStart (template : String)
  | ContainsQueryOrFragment (template : String)
  | ContainsSchemeSeparator (template : String)
  | MixedSegment (segment : String)
  | DotSegment (segment : String)
  | EmptySegment
  | DuplicatePlaceholder (name : String)
  | MalformedPercentEncoding (segment : String)
  | MissingValue (name : String)
  | EmptyValue (name : String)
  | DotValue (name : String)
  | ControlCharacter (name : String)
  deriving DecidableEq, Repr

/-- `impl Display for TemplateError`. -/
def TemplateError.to_string : TemplateError → String
  | .NotAbsolute t => "template " ++ fmt.debug t ++ " must start with '/'"
  | .DoubleSlashStart t => "template " ++ fmt.debug t ++ " must not start with '//'"
  | .ContainsQueryOrFragment t => "template " ++ fmt.debug t ++ " must not contain '?' or '#'"
  | .ContainsSchemeSeparator t =>
    "template " ++ fmt.debug t ++ " must not contain a scheme separator '://'"
  | .MixedSegment s =>
    "segment " ++ fmt.debug s ++
      " mixes literal text with a placeholder, or is a malformed placeholder"
  | .DotSegment s => "segment " ++ fmt.debug s ++ " is a '.' or '..' dot-segment"
  | .EmptySegment => "template contains an empty path segment"
  | .DuplicatePlaceholder n => "placeholder " ++ fmt.debug n ++ " is declared more than once"
  | .MalformedPercentEncoding s =>
    "literal segment " ++ fmt.debug s ++ " contains a malformed percent-encoding"
  | .MissingValue n => "no value supplied for placeholder " ++ fmt.debug n
  | .EmptyValue n => "value for placeholder " ++ fmt.debug n ++ " is empty"
  | .DotValue n => "value for placeholder " ++ fmt.debug n ++ " is exactly '.' or '..'"
  | .ControlCharacter n => "value for placeholder " ++ fmt.debug n ++ " contains a control character"

def is_ascii_hexdigit (c : Char) : Bool :=
  c.isDigit || ('a' ≤ c && c ≤ 'f') || ('A' ≤ c && c ≤ 'F')

/-- Every `%` is followed by two hexadecimal digits. -/
def percent_encoded : List Char → Bool
  | [] => true
  | '%' :: a :: b :: rest => is_ascii_hexdigit a && is_ascii_hexdigit b && percent_encoded rest
  | '%' :: _ => false
  | _ :: rest => percent_encoded rest

def validate_percent_encoding (s : String) : Except TemplateError Unit :=
  if percent_encoded s.toList then .ok () else .error (.MalformedPercentEncoding s)

/-- The text between a brace at either end, if that is what the segment is. -/
def strip_braces (raw : List Char) : Option (List Char) :=
  match raw with
  | '{' :: rest => if rest.getLast? = some '}' then some rest.dropLast else none
  | _ => none

def parse_segment (raw : String) : Except TemplateError Segment :=
  let cs := raw.toList
  if cs.contains '{' || cs.contains '}' then
    match strip_braces cs with
    | some name =>
      if name.isEmpty || !name.all (fun c => c.isAlphanum || c = '_') then .error (.MixedSegment raw)
      else .ok (.Placeholder (String.ofList name))
    | none => .error (.MixedSegment raw)
  else if raw = "." || raw = ".." then .error (.DotSegment raw)
  else
    match validate_percent_encoding raw with
    | .error e => .error e
    | .ok () => .ok (.Literal raw)

/-- `str::split('/')`. -/
def split_slash : List Char → List (List Char)
  | [] => [[]]
  | c :: rest =>
    if c = '/' then [] :: split_slash rest
    else
      match split_slash rest with
      | [] => [[c]]
      | first :: others => (c :: first) :: others

def parse_segments : List (List Char) → List String → Except TemplateError (List Segment)
  | [], _ => .ok []
  | raw :: rest, seen =>
    if raw.isEmpty then .error .EmptySegment
    else
      match parse_segment (String.ofList raw) with
      | .error e => .error e
      | .ok (.Placeholder name) =>
        if seen.contains name then .error (.DuplicatePlaceholder name)
        else (parse_segments rest (name :: seen)).map (.Placeholder name :: ·)
      | .ok (.Literal text) => (parse_segments rest seen).map (.Literal text :: ·)

namespace UrlTemplate

def parse (template : String) : Except TemplateError UrlTemplate :=
  let cs := template.toList
  if cs.head? ≠ some '/' then .error (.NotAbsolute template)
  else if cs.take 2 = ['/', '/'] then .error (.DoubleSlashStart template)
  else if cs.contains '?' || cs.contains '#' then .error (.ContainsQueryOrFragment template)
  else if cs.tails.any (fun t => t.take 3 = [':', '/', '/']) then
    .error (.ContainsSchemeSeparator template)
  else if template = "/" then .ok ⟨[]⟩
  else (parse_segments (split_slash (cs.drop 1)) []).map (⟨·⟩)

end UrlTemplate

/-- The bytes that stand as they are: letters, digits, `-`, `.`, `_` and `~`. -/
def unreserved (b : UInt8) : Bool :=
  (48 ≤ b && b ≤ 57) || (65 ≤ b && b ≤ 90) || (97 ≤ b && b ≤ 122) || b == 45 || b == 46 ||
    b == 95 || b == 126

/-- `utf8_percent_encode(value, UNRESERVED_ENCODE_SET)`. -/
def utf8_percent_encode (value : String) : List Char := percent.encode unreserved (net.utf8 value)

/-- C0 and C1 controls. -/
def is_control_char (c : Char) : Bool :=
  let n := c.toNat
  n ≤ 0x1f || n = 0x7f || (0x80 ≤ n && n ≤ 0x9f)

def validate_value (name value : String) : Except TemplateError Unit :=
  if value = "" then .error (.EmptyValue name)
  else if value = "." || value = ".." then .error (.DotValue name)
  else if value.toList.any is_control_char then .error (.ControlCharacter name)
  else .ok ()

/-- The text of one segment. -/
def render_segment (values : btree.BTreeMap String String) :
    Segment → Except TemplateError (List Char)
  | .Literal literal => .ok literal.toList
  | .Placeholder name =>
    match values.get name with
    | none => .error (.MissingValue name)
    | some value =>
      match validate_value name value with
      | .error e => .error e
      | .ok () => .ok (utf8_percent_encode value)

def UrlTemplate.render (template : UrlTemplate) (values : btree.BTreeMap String String) :
    Except TemplateError String :=
  if template.segments.isEmpty then .ok "/"
  else
    (template.segments.mapM (render_segment values)).map fun texts =>
      String.ofList (texts.flatMap fun text => '/' :: text)

end api2mcp.http
