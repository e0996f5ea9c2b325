import Mathlib.Data.List.Basic

namespace net

abbrev Ipv4Addr := BitVec 32

abbrev Ipv6Addr := BitVec 128

inductive IpAddr where
  | V4 (addr : Ipv4Addr)
  | V6 (addr : Ipv6Addr)
  deriving DecidableEq, Repr

namespace Ipv4Addr

def new (a b c d : BitVec 8) : Ipv4Addr := a ++ b ++ c ++ d

def octets (ip : Ipv4Addr) : List (BitVec 8) :=
  [ip.extractLsb' 24 8, ip.extractLsb' 16 8, ip.extractLsb' 8 8, ip.extractLsb' 0 8]

def is_loopback (ip : Ipv4Addr) : Bool := ip.extractLsb' 24 8 == 127#8

/-- Dotted decimal. -/
def to_string (ip : Ipv4Addr) : String :=
  ".".intercalate (ip.octets.map fun o => Nat.repr o.toNat)

end Ipv4Addr

namespace Ipv6Addr

def new (a b c d e f g h : BitVec 16) : Ipv6Addr := a ++ b ++ c ++ d ++ e ++ f ++ g ++ h

/-- The eight 16-bit groups, the first one most significant. -/
def segments (ip : Ipv6Addr) : List (BitVec 16) :=
  [ip.extractLsb' 112 16, ip.extractLsb' 96 16, ip.extractLsb' 80 16, ip.extractLsb' 64 16,
    ip.extractLsb' 48 16, ip.extractLsb' 32 16, ip.extractLsb' 16 16, ip.extractLsb' 0 16]

def is_loopback (ip : Ipv6Addr) : Bool := ip == 1#128

/-- The first longest run of zero groups, as its start and its length. -/
def longest_zero_sequence : Nat → List (BitVec 16) → Nat × Nat
  | _, [] => (0, 0)
  | i, seg :: segs =>
    let here := ((seg :: segs).takeWhile (· == 0#16)).length
    let later := longest_zero_sequence (i + 1) segs
    if here > 0 && here ≥ later.2 then (i, here) else later

def hex (seg : BitVec 16) : String := String.ofList (Nat.toDigits 16 seg.toNat)

/-- Groups in hexadecimal, the first longest run of two or more zero groups
written as `::`. -/
def groups_text (ip : Ipv6Addr) : String :=
  let segs := ip.segments
  let (start, len) := longest_zero_sequence 0 segs
  let write (part : List (BitVec 16)) := ":".intercalate (part.map hex)
  if len < 2 then write segs
  else write (segs.take start) ++ "::" ++ write (segs.drop (start + len))

/-- `impl Display`: an IPv4-mapped address keeps the dotted form. -/
def to_string (ip : Ipv6Addr) : String :=
  if ip.extractLsb' 32 96 = 0xffff#96 then "::ffff:" ++ Ipv4Addr.to_string (ip.extractLsb' 0 32)
  else groups_text ip

end Ipv6Addr

namespace IpAddr

def is_loopback : IpAddr → Bool
  | V4 ip => Ipv4Addr.is_loopback ip
  | V6 ip => Ipv6Addr.is_loopback ip

def to_string : IpAddr → String
  | V4 ip => Ipv4Addr.to_string ip
  | V6 ip => Ipv6Addr.to_string ip

/-- `impl Ord`: every IPv4 address before every IPv6 address. -/
def lt : IpAddr → IpAddr → Bool
  | V4 a, V4 b => a < b
  | V4 _, V6 _ => true
  | V6 _, V4 _ => false
  | V6 a, V6 b => a < b

end IpAddr

/-- A network: the addresses that agree with `addr` on the first `prefix_len` bits. -/
inductive IpNet where
  | V4 (addr : Ipv4Addr) (prefix_len : Nat)
  | V6 (addr : Ipv6Addr) (prefix_len : Nat)
  deriving DecidableEq

def IpNet.contains : IpNet → IpAddr → Bool
  | .V4 addr prefix_len, .V4 ip => ip >>> (32 - prefix_len) == addr >>> (32 - prefix_len)
  | .V6 addr prefix_len, .V6 ip => ip >>> (128 - prefix_len) == addr >>> (128 - prefix_len)
  | _, _ => false

end net
