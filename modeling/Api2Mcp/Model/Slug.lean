import Api2Mcp.Collections.BTree
import Api2Mcp.Text.Fmt
import Mathlib.Data.String.Basic
import Mathlib.Order.Defs.Unbundled

namespace api2mcp.model

/-- The characters a slug is made of: `a-z`, `0-9`, `_` and `-`. -/
def slugChar (c : Char) : Bool :=
  ('a' ≤ c && c ≤ 'z') || ('0' ≤ c && c ≤ '9') || c == '_' || c == '-'

inductive SlugError where
  | Empty
  | TooLong (len : Nat)
  | InvalidChar (c : Char)
  deriving DecidableEq, Repr

/-- `impl Display for SlugError`. -/
def SlugError.to_string : SlugError → String
  | .Empty => "slug must not be empty"
  | .TooLong len => "slug must be at most 64 bytes, got " ++ Nat.repr len
  | .InvalidChar c =>
    "slug contains invalid character '" ++ fmt.escape_debug_char c ++
      "' (allowed: a-z, 0-9, '_', '-')"

/-- A validated identifier: services, api_calls, scripts, endpoints and tags
are named by one. The length is in bytes. -/
structure Slug where
  as_str : String
  nonempty : as_str ≠ ""
  fits : as_str.utf8ByteSize ≤ 64
  chars : as_str.toList.all slugChar = true
  deriving DecidableEq

namespace Slug

theorem ext_str {a b : Slug} (h : a.as_str = b.as_str) : a = b := by
  cases a
  cases b
  cases h
  rfl

/-- `impl FromStr for Slug`. -/
def from_str (s : String) : Except SlugError Slug :=
  if hempty : s = "" then .error .Empty
  else if hlen : s.utf8ByteSize > 64 then .error (.TooLong s.utf8ByteSize)
  else
    match hbad : s.toList.find? fun c => !slugChar c with
    | some c => .error (.InvalidChar c)
    | none => .ok ⟨s, hempty, Nat.le_of_not_lt hlen, by simpa using hbad⟩

/-- Parsing a slug's own text gives that slug back. -/
theorem from_str_as_str (slug : Slug) : from_str slug.as_str = .ok slug := by
  have hchars := slug.chars
  have hfind : slug.as_str.toList.find? (fun c => !slugChar c) = none := by
    simpa using hchars
  unfold from_str
  rw [dif_neg slug.nonempty, dif_neg (Nat.not_lt_of_le slug.fits)]
  split
  · rename_i hbad
    simp [hfind] at hbad
  · rfl

theorem as_str_of_from_str {s : String} {slug : Slug} (h : from_str s = .ok slug) :
    slug.as_str = s := by
  unfold from_str at h
  split at h
  · cases h
  · split at h
    · cases h
    · split at h
      · cases h
      · cases h
        rfl

/-- Slugs are in the order of their texts. -/
instance : LT Slug := ⟨fun a b => a.as_str < b.as_str⟩

instance : DecidableLT Slug := fun a b => inferInstanceAs (Decidable (a.as_str < b.as_str))

instance : IsStrictTotalOrder Slug (· < ·) where
  irrefl a := irrefl_of (· < ·) a.as_str
  trans a b c hab hbc := by
    have hab : a.as_str < b.as_str := hab
    have hbc : b.as_str < c.as_str := hbc
    exact trans_of (· < ·) hab hbc
  trichotomous a b hab hba := ext_str (Std.Trichotomous.trichotomous (r := (· < ·)) a.as_str b.as_str hab hba)

/-- The slug of the examples. -/
def crm : Slug := ⟨"crm", by decide, by decide, by decide⟩

instance : Inhabited Slug := ⟨⟨"x", by decide, by decide, by decide⟩⟩

end Slug

end api2mcp.model

namespace api2mcp.model

open btree

/-- A tag is a validated name; wrapping the slug keeps it from being taken for
a service or an api_call. -/
structure Tag where
  name : Slug
  deriving DecidableEq

instance : LT Tag := ⟨fun a b => a.name < b.name⟩

instance : DecidableLT Tag := fun a b => inferInstanceAs (Decidable (a.name < b.name))

instance : IsStrictTotalOrder Tag (· < ·) where
  irrefl a := irrefl_of (· < ·) a.name
  trans a b c hab hbc := by
    have hab : a.name < b.name := hab
    have hbc : b.name < c.name := hbc
    exact trans_of (· < ·) hab hbc
  trichotomous a b hab hba := by
    have hname := Std.Trichotomous.trichotomous (r := (· < ·)) a.name b.name hab hba
    cases a
    cases b
    cases hname
    rfl

/-- A boolean expression over an item's tags. -/
inductive TagExpr where
  | Has (tag : Tag)
  | Not (inner : TagExpr)
  | And (left right : TagExpr)
  | Or (left right : TagExpr)
  deriving DecidableEq

def eval_tag_expr (tags : BTreeSet Tag) : TagExpr → Bool
  | .Has tag => tags.contains tag
  | .Not inner => !eval_tag_expr tags inner
  | .And left right => eval_tag_expr tags left && eval_tag_expr tags right
  | .Or left right => eval_tag_expr tags left || eval_tag_expr tags right

end api2mcp.model
