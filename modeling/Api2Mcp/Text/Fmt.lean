import Mathlib.Data.List.Basic

namespace fmt

/-- A character, escaped the same between either kind of quotes. Characters
outside ASCII are kept. -/
def escape_debug (c : Char) : String :=
  if c = '\\' then "\\\\"
  else if c = '\n' then "\\n"
  else if c = '\r' then "\\r"
  else if c = '\t' then "\\t"
  else if c.toNat = 0 then "\\0"
  else if c.toNat < 32 || c.toNat = 127 then
    "\\u\x7b" ++ String.ofList (Nat.toDigits 16 c.toNat) ++ "\x7d"
  else c.toString

/-- What `{:?}` on a character puts between the single quotes. -/
def escape_debug_char (c : Char) : String := if c = '\'' then "\\'" else escape_debug c

/-- What `{:?}` on a string puts for a character. -/
def escape_debug_str (c : Char) : String := if c = '"' then "\\\"" else escape_debug c

/-- `{:?}` on a string. -/
def debug (s : String) : String := "\"" ++ String.join (s.toList.map escape_debug_str) ++ "\""

/-- `{:?}` on a set of strings. -/
def debug_set (items : List String) : String :=
  "\x7b" ++ ", ".intercalate (items.map debug) ++ "\x7d"

/-- `{:?}` on a vector of strings. -/
def debug_vec (items : List String) : String := "[" ++ ", ".intercalate (items.map debug) ++ "]"

end fmt
