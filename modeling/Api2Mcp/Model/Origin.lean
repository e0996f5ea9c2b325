import Api2Mcp.Net.Url

namespace api2mcp.model

inductive OriginError where
  | InvalidUrl (message : String)
  | Opaque
  deriving DecidableEq, Repr

/-- `impl Display for OriginError`. -/
def OriginError.to_string : OriginError → String
  | .InvalidUrl m => "not a valid URL: " ++ m
  | .Opaque => "origin is opaque (scheme has no host/port), not a reachable network origin"

/-- A network origin; an opaque one is none. -/
structure Origin where
  inner : net.UrlOrigin
  is_tuple : inner ≠ .Opaque
  deriving DecidableEq

namespace Origin

/-- The origin of the examples. -/
def crm : Origin := ⟨.Tuple "https" (.Domain "crm.example") 443, by decide⟩

def of (url : net.Url) : Except OriginError Origin :=
  if h : url.origin = .Opaque then .error .Opaque else .ok ⟨url.origin, h⟩

def ascii_serialization (origin : Origin) : String := origin.inner.ascii_serialization

/-- `impl FromStr for Origin`. -/
def from_str (crate : net.UrlCrate) (s : String) : Except OriginError Origin :=
  match crate.parse s with
  | .error e => .error (.InvalidUrl e)
  | .ok url => of url

/-- `BTreeSet<Origin>::contains`: origins are compared by their text. -/
def contains (set : List Origin) (origin : Origin) : Bool :=
  set.any fun o => o.ascii_serialization = origin.ascii_serialization

/-- `BTreeSet<Origin>::insert`. -/
def insert (origin : Origin) : List Origin → List Origin
  | [] => [origin]
  | o :: rest =>
    if origin.ascii_serialization < o.ascii_serialization then origin :: o :: rest
    else if origin.ascii_serialization = o.ascii_serialization then o :: rest
    else o :: insert origin rest

theorem inner_of {url : net.Url} {origin : Origin} (h : of url = .ok origin) :
    origin.inner = url.origin := by
  unfold of at h
  split at h
  · cases h
  · cases h
    rfl

end Origin

end api2mcp.model
