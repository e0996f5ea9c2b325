import Mathlib.Data.List.SplitOn

namespace html

/-- The apostrophe. -/
def APOSTROPHE : Char := Char.ofNat 39

/-- The character that a reference stands for, up to the semicolon. -/
def reference (name : List Char) : Option Char :=
  if name = "amp".toList then some '&'
  else if name = "lt".toList then some '<'
  else if name = "gt".toList then some '>'
  else if name = "quot".toList then some '"'
  else if name = "#39".toList then some APOSTROPHE
  else none

/-- The text of an attribute value, read up to the end of a reference that has
begun. Where an ampersand begins none of the references above it is kept. -/
def read_value : Option (List Char) → List Char → List Char
  | none, [] => []
  | some name, [] => '&' :: name.reverse
  | none, c :: cs => if c = '&' then read_value (some []) cs else c :: read_value none cs
  | some name, c :: cs =>
    if c = ';' then
      match reference name.reverse with
      | some d => d :: read_value none cs
      | none => '&' :: name.reverse ++ ';' :: read_value none cs
    else read_value (some (c :: name)) cs

/-- What is written for a character in an attribute value. -/
def escape (c : Char) : List Char :=
  if c = '&' then "&amp;".toList
  else if c = '<' then "&lt;".toList
  else if c = '>' then "&gt;".toList
  else if c = '"' then "&quot;".toList
  else if c = APOSTROPHE then "&#39;".toList
  else [c]

theorem read_escape (c : Char) (rest : List Char) :
    read_value none (escape c ++ rest) = c :: read_value none rest := by
  unfold escape
  split
  · rename_i h
    rw [h]
    rfl
  rename_i hamp
  split
  · rename_i h
    rw [h]
    rfl
  split
  · rename_i h
    rw [h]
    rfl
  split
  · rename_i h
    rw [h]
    rfl
  split
  · rename_i h
    rw [h]
    rfl
  · rw [List.singleton_append, read_value, if_neg hamp]

/-- A text that is escaped is read as it was. -/
theorem read_escaped (cs : List Char) : read_value none (cs.flatMap escape) = cs := by
  induction cs with
  | nil => rfl
  | cons c cs ih => rw [List.flatMap_cons, read_escape, ih]

theorem quote_notMem_escape (c : Char) : '"' ∉ escape c := by
  unfold escape
  split
  · decide
  split
  · decide
  split
  · decide
  split
  · decide
  rename_i hquote
  split
  · decide
  · exact fun h => hquote (List.mem_singleton.mp h).symm

theorem quote_notMem_escaped (cs : List Char) : '"' ∉ cs.flatMap escape := by
  intro h
  obtain ⟨c, -, hc⟩ := List.mem_flatMap.mp h
  exact quote_notMem_escape c hc

/-- The name of an attribute, from what is before the quote of its value. -/
def attribute_name (before : List Char) : String :=
  String.ofList ((before.reverse.drop 1).takeWhile (· ≠ ' ')).reverse

/-- The attributes of a tag, from what stands between its quotes. -/
def attributes_of : List (List Char) → List (String × String)
  | before :: value :: rest => (attribute_name before, String.ofList (read_value none value)) :: attributes_of rest
  | _ => []

/-- The attributes of a tag whose values are all in double quotes. -/
def attributes (tag : String) : List (String × String) := attributes_of (tag.toList.splitOn '"')

/-- The name and the value that an input is submitted with. -/
def input_entry (tag : String) : Option (String × String) := do
  let name ← (attributes tag).lookup "name"
  let value ← (attributes tag).lookup "value"
  return (name, value)

end html
