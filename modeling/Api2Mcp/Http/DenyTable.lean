import Api2Mcp.Net.Ip

namespace api2mcp.http

open net

/-- One row of a deny table. -/
structure DenyRange where
  net : IpNet
  label : String

inductive IpVerdict where
  | Allowed
  | Denied (label : String)
  deriving DecidableEq, Repr

def V4_DENY : List DenyRange :=
  let row (a b c d : BitVec 8) (prefix_len : Nat) (label : String) : DenyRange :=
    ⟨.V4 (Ipv4Addr.new a b c d) prefix_len, label⟩
  [row 0 0 0 0 8 "current-network",
    row 10 0 0 0 8 "private-use",
    row 100 64 0 0 10 "cgnat",
    row 127 0 0 0 8 "loopback",
    row 169 254 0 0 16 "link-local",
    row 172 16 0 0 12 "private-use",
    row 192 0 0 0 24 "ietf-protocol-assignments",
    row 192 0 2 0 24 "documentation-test-net-1",
    row 198 51 100 0 24 "documentation-test-net-2",
    row 203 0 113 0 24 "documentation-test-net-3",
    row 192 88 99 0 24 "6to4-relay-anycast",
    row 192 168 0 0 16 "private-use",
    row 198 18 0 0 15 "benchmark-testing",
    row 224 0 0 0 4 "multicast",
    row 240 0 0 0 4 "reserved"]

def V6_DENY : List DenyRange :=
  let row (a b c d e f g h : BitVec 16) (prefix_len : Nat) (label : String) : DenyRange :=
    ⟨.V6 (Ipv6Addr.new a b c d e f g h) prefix_len, label⟩
  [row 0 0 0 0 0 0 0 0 128 "unspecified",
    row 0 0 0 0 0 0 0 1 128 "loopback",
    row 0 0 0 0 0 0xffff 0 0 96 "ipv4-mapped",
    row 0x64 0xff9b 0 0 0 0 0 0 96 "nat64",
    row 0x64 0xff9b 1 0 0 0 0 0 48 "nat64-private",
    row 0x100 0 0 0 0 0 0 0 64 "discard-only",
    row 0x2001 0xdb8 0 0 0 0 0 0 32 "documentation",
    row 0x2001 0 0 0 0 0 0 0 23 "ietf-protocol-assignments",
    row 0x2002 0 0 0 0 0 0 0 16 "6to4",
    row 0xfc00 0 0 0 0 0 0 0 7 "unique-local",
    row 0xfe80 0 0 0 0 0 0 0 10 "link-local",
    row 0xff00 0 0 0 0 0 0 0 8 "multicast"]

def lookup (table : List DenyRange) (ip : IpAddr) : IpVerdict :=
  match table.find? fun entry => entry.net.contains ip with
  | some entry => .Denied entry.label
  | none => .Allowed

def v4_from_segments (hi lo : BitVec 16) : Ipv4Addr :=
  Ipv4Addr.new (hi.extractLsb' 8 8) (hi.extractLsb' 0 8) (lo.extractLsb' 8 8) (lo.extractLsb' 0 8)

/-- Every IPv4 address an IPv6 address carries: mapped or compatible, NAT64,
6to4. -/
def embedded_v4_addresses (v6 : Ipv6Addr) : List Ipv4Addr :=
  match v6.segments with
  | [s0, s1, s2, s3, s4, s5, s6, s7] =>
    (if s0 = 0 ∧ s1 = 0 ∧ s2 = 0 ∧ s3 = 0 ∧ s4 = 0 ∧ (s5 = 0 ∨ s5 = 0xffff) then
      [v4_from_segments s6 s7] else []) ++
    (if s0 = 0x64 ∧ s1 = 0xff9b ∧ s2 = 0 ∧ s3 = 0 ∧ s4 = 0 ∧ s5 = 0 then
      [v4_from_segments s6 s7] else []) ++
    (if s0 = 0x2002 then [v4_from_segments s1 s2] else [])
  | _ => []

def classify_v4 (v4 : Ipv4Addr) : IpVerdict := lookup V4_DENY (.V4 v4)

/-- The verdict of the first address that is denied. -/
def first_denied : List Ipv4Addr → IpVerdict
  | [] => .Allowed
  | v4 :: rest =>
    match classify_v4 v4 with
    | .Denied label => .Denied label
    | .Allowed => first_denied rest

def classify_v6 (v6 : Ipv6Addr) : IpVerdict :=
  match lookup V6_DENY (.V6 v6) with
  | .Denied label => .Denied label
  | .Allowed => first_denied (embedded_v4_addresses v6)

def classify : IpAddr → IpVerdict
  | .V4 v4 => classify_v4 v4
  | .V6 v6 => classify_v6 v6

theorem first_denied_allowed {v4s : List Ipv4Addr} (h : first_denied v4s = .Allowed) :
    ∀ v4 ∈ v4s, classify (.V4 v4) = .Allowed := by
  induction v4s with
  | nil =>
    intro v4 hv4
    cases hv4
  | cons v4 rest ih =>
    intro v4' hv4'
    cases hverdict : classify_v4 v4 with
    | Denied label => simp [first_denied, hverdict] at h
    | Allowed =>
      simp only [first_denied, hverdict] at h
      obtain rfl | hrest := List.mem_cons.mp hv4'
      · exact hverdict
      · exact ih h v4' hrest

/-- An IPv6 address is allowed only if every IPv4 address it carries is. -/
theorem classify_embedded {v6 : Ipv6Addr} (h : classify (.V6 v6) = .Allowed) :
    ∀ v4 ∈ embedded_v4_addresses v6, classify (.V4 v4) = .Allowed := by
  cases hverdict : lookup V6_DENY (.V6 v6) with
  | Denied label => simp [classify, classify_v6, hverdict] at h
  | Allowed =>
    simp only [classify, classify_v6, hverdict] at h
    exact first_denied_allowed h

end api2mcp.http
