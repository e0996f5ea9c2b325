import Api2Mcp.Net.Ip
import Mathlib.Algebra.Group.Nat.Defs

namespace net

/-- `char::to_digit`. -/
def to_digit (radix : Nat) (c : Char) : Option Nat :=
  let d :=
    if '0' ≤ c && c ≤ '9' then some (c.toNat - '0'.toNat)
    else if 'a' ≤ c && c ≤ 'z' then some (c.toNat - 'a'.toNat + 10)
    else if 'A' ≤ c && c ≤ 'Z' then some (c.toNat - 'A'.toNat + 10)
    else none
  d.filter (· < radix)

namespace AddrParser

/-- The digits at the front, most significant first, and the rest. -/
def digits (radix : Nat) : List Char → List Nat × List Char
  | [] => ([], [])
  | c :: cs =>
    match to_digit radix c with
    | some d => let (ds, rest) := digits radix cs; (d :: ds, rest)
    | none => ([], c :: cs)

/-- A number of at most `max_digits` digits that fits in `bits` bits. -/
def read_number (radix max_digits bits : Nat) (zero_prefix_allowed : Bool) (s : List Char) :
    Option (Nat × List Char) :=
  let (ds, rest) := digits radix s
  if ds.length > max_digits then none
  else if ds.length = 0 then none
  else if !zero_prefix_allowed && s.head? = some '0' && ds.length > 1 then none
  else
    let value := ds.foldl (fun n d => n * radix + d) 0
    if value < 2 ^ bits then some (value, rest) else none

def read_given_char (c : Char) : List Char → Option (List Char)
  | c' :: cs => if c' = c then some cs else none
  | [] => none

/-- The separator stands before every item but the first. -/
def read_separator {α : Type} (sep : Char) (index : Nat)
    (inner : List Char → Option (α × List Char)) (s : List Char) : Option (α × List Char) :=
  if index > 0 then (read_given_char sep s).bind inner else inner s

def read_octets : Nat → Nat → List Char → Option (List Nat × List Char)
  | 0, _, s => some ([], s)
  | n + 1, i, s =>
    (read_separator '.' i (read_number 10 3 8 false) s).bind fun (octet, s) =>
      (read_octets n (i + 1) s).map fun (octets, s) => (octet :: octets, s)

def read_ipv4_addr (s : List Char) : Option (Ipv4Addr × List Char) :=
  (read_octets 4 0 s).bind fun (octets, s) =>
    match octets with
    | [a, b, c, d] =>
      some (Ipv4Addr.new (.ofNat 8 a) (.ofNat 8 b) (.ofNat 8 c) (.ofNat 8 d), s)
    | _ => none

/-- Up to `room` groups from index `i` on; the flag says that the last two of
them were written as an IPv4 address. -/
def read_groups : Nat → Nat → List Char → List (BitVec 16) × Bool × List Char
  | 0, _, s => ([], false, s)
  | room + 1, i, s =>
    let ipv4 := if room > 0 then read_separator ':' i read_ipv4_addr s else none
    match ipv4 with
    | some (v4, s) => ([v4.extractLsb' 16 16, v4.extractLsb' 0 16], true, s)
    | none =>
      match read_separator ':' i (read_number 16 4 16 true) s with
      | some (group, s) =>
        let (groups, v4, s) := read_groups room (i + 1) s
        (.ofNat 16 group :: groups, v4, s)
      | none => ([], false, s)

def from_segments : List (BitVec 16) → Option Ipv6Addr
  | [a, b, c, d, e, f, g, h] => some (Ipv6Addr.new a b c d e f g h)
  | _ => none

def read_ipv6_addr (s : List Char) : Option (Ipv6Addr × List Char) :=
  let (front, front_ipv4, s) := read_groups 8 0 s
  if front.length = 8 then (from_segments front).map (·, s)
  else if front_ipv4 then none
  else
    (read_given_char ':' s).bind fun s => (read_given_char ':' s).bind fun s =>
      let (back, _, s) := read_groups (8 - (front.length + 1)) 0 s
      let zeroes := List.replicate (8 - front.length - back.length) 0#16
      (from_segments (front ++ zeroes ++ back)).map (·, s)

def read_ip_addr (s : List Char) : Option (IpAddr × List Char) :=
  match read_ipv4_addr s with
  | some (v4, s) => some (.V4 v4, s)
  | none => (read_ipv6_addr s).map fun (v6, s) => (.V6 v6, s)

end AddrParser

/-- `impl FromStr`: the whole text is one address. -/
def IpAddr.from_str (s : String) : Option IpAddr :=
  match AddrParser.read_ip_addr s.toList with
  | some (ip, []) => some ip
  | _ => none

example : IpAddr.from_str "64:ff9b::169.254.169.254" =
    some (.V6 (Ipv6Addr.new 0x64 0xff9b 0 0 0 0 0xa9fe 0xa9fe)) := by decide

example : IpAddr.from_str "[::1]" = none := by decide

section Display

open AddrParser

theorem digits_append {radix : Nat} {cs rest : List Char}
    (hcs : cs.all (fun c => (to_digit radix c).isSome) = true)
    (hrest : ∀ c, rest.head? = some c → to_digit radix c = none) :
    digits radix (cs ++ rest) = ((digits radix cs).1, rest) := by
  induction cs with
  | nil =>
    cases rest with
    | nil => rfl
    | cons c rest => simp [digits, hrest c rfl]
  | cons c cs ih =>
    simp only [List.all_cons, Bool.and_eq_true] at hcs
    obtain ⟨d, hd⟩ := Option.isSome_iff_exists.mp hcs.1
    simp only [List.cons_append, digits, hd, ih hcs.2]

/-- A number is read up to the first character that is no digit. -/
theorem read_number_append {radix max_digits bits n : Nat} {zero : Bool} {cs rest : List Char}
    (hread : read_number radix max_digits bits zero cs = some (n, []))
    (hne : cs ≠ []) (hcs : cs.all (fun c => (to_digit radix c).isSome) = true)
    (hrest : ∀ c, rest.head? = some c → to_digit radix c = none) :
    read_number radix max_digits bits zero (cs ++ rest) = some (n, rest) := by
  have hhead : (cs ++ rest).head? = cs.head? := by
    cases cs with
    | nil => exact absurd rfl hne
    | cons c cs => rfl
  have hself : digits radix cs = ((digits radix cs).1, []) := by
    have hend := @digits_append radix cs [] hcs (by simp)
    rwa [List.append_nil] at hend
  unfold read_number at hread ⊢
  rw [hself] at hread
  rw [digits_append hcs hrest, hhead]
  dsimp only at hread ⊢
  split at hread
  · cases hread
  split at hread
  · cases hread
  split at hread
  · cases hread
  split at hread
  · rename_i hlen hzero hprefix hfits
    rw [if_neg hlen, if_neg hzero, if_neg hprefix, if_pos hfits]
    simp only [Option.some.injEq, Prod.mk.injEq, and_true] at hread ⊢
    exact hread
  · cases hread

/-- The decimal digits of an octet. -/
def octet_digits (n : Nat) : List Nat :=
  if n < 10 then [n] else if n < 100 then [n / 10, n % 10] else [n / 100, n / 10 % 10, n % 10]

theorem to_digit_digitChar : ∀ d < 10, to_digit 10 d.digitChar = some d := by decide

theorem digits_digitChar {ds : List Nat} (h : ∀ d ∈ ds, d < 10) : digits 10 (ds.map Nat.digitChar) = (ds, []) := by
  induction ds with
  | nil => rfl
  | cons d ds ih =>
    rw [List.map_cons, digits, to_digit_digitChar d (h d List.mem_cons_self)]
    simp only [ih fun d' hd' => h d' (List.mem_cons_of_mem _ hd')]

theorem toDigits_octet : ∀ n : Fin 256, Nat.toDigits 10 n = (octet_digits n).map Nat.digitChar := by decide +kernel

theorem octet_digits_lt {n : Nat} (h : n < 256) : ∀ d ∈ octet_digits n, d < 10 := by
  unfold octet_digits
  split
  · simpa
  split
  · simp only [List.forall_mem_cons]
    refine ⟨by omega, by omega, by simp⟩
  · simp only [List.forall_mem_cons]
    refine ⟨by omega, by omega, by omega, by simp⟩

theorem octet_digits_value (n : Nat) : (octet_digits n).foldl (fun n d => n * 10 + d) 0 = n := by
  unfold octet_digits
  split
  · simp
  split
  · simp only [List.foldl_cons, List.foldl_nil]
    omega
  · simp only [List.foldl_cons, List.foldl_nil]
    omega

/-- There are one to three of them, and more than one do not begin with a zero. -/
theorem octet_digits_shape (n : Nat) : octet_digits n ≠ [] ∧ (octet_digits n).length ≤ 3 ∧
    ∀ d rest, octet_digits n = d :: rest → rest ≠ [] → 0 < d := by
  unfold octet_digits
  split
  · simp
  split
  · refine ⟨List.cons_ne_nil _ _, Nat.le_succ 2, fun d rest heq _ => ?_⟩
    obtain ⟨rfl, -⟩ := List.cons.inj heq
    omega
  · refine ⟨List.cons_ne_nil _ _, Nat.le_refl 3, fun d rest heq _ => ?_⟩
    obtain ⟨rfl, -⟩ := List.cons.inj heq
    omega

theorem read_number_octet (n : Fin 256) :
    read_number 10 3 8 false (Nat.repr n).toList = some (n.val, []) ∧ (Nat.repr n).toList ≠ [] ∧
      (Nat.repr n).toList.all (fun c => (to_digit 10 c).isSome) = true := by
  have hlt := octet_digits_lt n.isLt
  obtain ⟨hne, hlen, hfirst⟩ := octet_digits_shape n
  have hprefix : ¬ (!false && ((octet_digits n).map Nat.digitChar).head? = some '0' &&
      (octet_digits n).length > 1) = true := by
    have hzero : ∀ d < 10, d.digitChar = '0' → d = 0 := by decide
    simp only [Bool.not_false, Bool.true_and, Bool.and_eq_true, decide_eq_true_eq, List.head?_map,
      Option.map_eq_some_iff]
    rintro ⟨⟨d, hhead, hchar⟩, hlong⟩
    obtain ⟨rest, heq⟩ := List.head?_eq_some_iff.mp hhead
    have hpos : 0 < d := by
      refine hfirst d rest heq fun hrest => ?_
      rw [heq, hrest] at hlong
      exact Nat.lt_irrefl 1 hlong
    rw [hzero d (hlt d (List.mem_of_mem_head? hhead)) hchar] at hpos
    exact absurd hpos (Nat.lt_irrefl 0)
  rw [Nat.toList_repr, toDigits_octet]
  refine ⟨?_, fun hmap => hne (List.map_eq_nil_iff.mp hmap), ?_⟩
  · have hbits : n.val < 2 ^ 8 := n.isLt
    rw [read_number, digits_digitChar hlt]
    dsimp only
    rw [if_neg (Nat.not_lt.mpr hlen), if_neg fun h => hne (List.length_eq_zero_iff.mp h), if_neg hprefix,
      octet_digits_value, if_pos hbits]
  · rw [List.all_map, List.all_eq_true]
    intro d hd
    rw [Function.comp_apply, to_digit_digitChar d (hlt d hd)]
    rfl
theorem read_octet {o : BitVec 8} {rest : List Char}
    (hrest : ∀ c, rest.head? = some c → to_digit 10 c = none) :
    read_number 10 3 8 false ((Nat.repr o.toNat).toList ++ rest) = some (o.toNat, rest) := by
  obtain ⟨hread, hne, hdigits⟩ := read_number_octet ⟨o.toNat, o.isLt⟩
  exact read_number_append hread hne hdigits hrest

theorem Ipv4Addr.new_octets (ip : Ipv4Addr) :
    Ipv4Addr.new (ip.extractLsb' 24 8) (ip.extractLsb' 16 8) (ip.extractLsb' 8 8)
      (ip.extractLsb' 0 8) = ip := by
  unfold Ipv4Addr.new
  rw [BitVec.extractLsb'_append_extractLsb'_eq_extractLsb' (by omega),
    BitVec.extractLsb'_append_extractLsb'_eq_extractLsb' (by omega),
    BitVec.extractLsb'_append_extractLsb'_eq_extractLsb' (by omega)]
  simp

/-- Reading back the dotted form of an IPv4 address gives the address. -/
theorem IpAddr.from_str_to_string (ip : Ipv4Addr) :
    IpAddr.from_str (Ipv4Addr.to_string ip) = some (.V4 ip) := by
  have htext : (Ipv4Addr.to_string ip).toList =
      (Nat.repr (ip.extractLsb' 24 8).toNat).toList ++
        ('.' :: ((Nat.repr (ip.extractLsb' 16 8).toNat).toList ++
          ('.' :: ((Nat.repr (ip.extractLsb' 8 8).toNat).toList ++
            ('.' :: ((Nat.repr (ip.extractLsb' 0 8).toNat).toList ++ [])))))) := by
    have hdots : Ipv4Addr.to_string ip =
        Nat.repr (ip.extractLsb' 24 8).toNat ++ "." ++ Nat.repr (ip.extractLsb' 16 8).toNat ++
          "." ++ Nat.repr (ip.extractLsb' 8 8).toNat ++ "." ++
            Nat.repr (ip.extractLsb' 0 8).toNat := rfl
    rw [hdots]
    simp only [String.toList_append, List.append_assoc, List.append_nil]
    rfl
  have hdot : ∀ cs c, ('.' :: cs : List Char).head? = some c → to_digit 10 c = none := by
    intro cs c hc
    obtain rfl : '.' = c := by simpa using hc
    decide
  have hlast : ∀ c, ([] : List Char).head? = some c → to_digit 10 c = none := by simp
  have hparts : read_ipv4_addr (Ipv4Addr.to_string ip).toList = some (ip, []) := by
    rw [htext]
    simp only [read_ipv4_addr, read_octets, read_separator, Nat.lt_irrefl, if_false, gt_iff_lt,
      Nat.zero_lt_succ, Nat.zero_add, Nat.reduceAdd, if_true, read_given_char,
      Option.bind_some, read_octet (hdot _), read_octet hlast, Option.map_some,
      BitVec.ofNat_toNat, BitVec.setWidth_eq, Ipv4Addr.new_octets]
  simp only [IpAddr.from_str, read_ip_addr, hparts]

/-- No address starts with a bracket. -/
theorem IpAddr.from_str_bracket {s : String} {cs : List Char} (hs : s.toList = '[' :: cs) :
    IpAddr.from_str s = none := by
  have hdigit : ∀ radix, to_digit radix '[' = none := by
    intro radix
    simp [to_digit]
  have hdigits : ∀ radix, digits radix ('[' :: cs) = ([], '[' :: cs) := by
    intro radix
    simp only [digits, hdigit]
  have hnumber : ∀ radix max_digits bits zero,
      read_number radix max_digits bits zero ('[' :: cs) = none := by
    intro radix max_digits bits zero
    simp [read_number, hdigits]
  have hv4 : read_ipv4_addr ('[' :: cs) = none := by
    simp [read_ipv4_addr, read_octets, read_separator, hnumber]
  have hv6 : read_ipv6_addr ('[' :: cs) = none := by
    simp [read_ipv6_addr, read_groups, read_separator, hv4, hnumber, read_given_char]
  simp [IpAddr.from_str, hs, read_ip_addr, hv4, hv6]

end Display

end net
