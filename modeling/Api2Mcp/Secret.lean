import Api2Mcp.Net.Http

namespace api2mcp

/-- A credential. Nothing but `into_header_value` reads it. -/
structure Secret where
  raw : String
  deriving DecidableEq

inductive CredError where
  | MissingEnvVar (env_key : String)
  | InvalidHeaderValue
  | MissingStoredCredential
  deriving DecidableEq, Repr

namespace Secret

def PLACEHOLDER : List Char := "{token}".toList

/-- Every occurrence of `pattern` from the left replaced; `skip` counts the
characters of an occurrence that are still to be passed over. -/
def replace (pattern replacement : List Char) : Nat → List Char → List Char
  | _, [] => []
  | skip + 1, _ :: cs => replace pattern replacement skip cs
  | 0, c :: cs =>
    if pattern.isPrefixOf (c :: cs) then
      replacement ++ replace pattern replacement (pattern.length - 1) cs
    else c :: replace pattern replacement 0 cs

def into_header_value (secret : Secret) (template : String) : Except CredError net.HeaderValue :=
  let text := template.toList
  let rendered :=
    if text.tails.any PLACEHOLDER.isPrefixOf then
      String.ofList (replace PLACEHOLDER secret.raw.toList 0 text)
    else template ++ secret.raw
  match net.HeaderValue.from_str rendered with
  | none => .error .InvalidHeaderValue
  | some value => .ok { value with is_sensitive := true }

end Secret

end api2mcp
