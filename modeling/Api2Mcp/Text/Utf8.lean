import Mathlib.Data.List.Basic

namespace text

/-- A property of the characters of a list is decided on these, not on every
character there is. -/
instance (priority := high) decidable_forall_mem {p : Char → Prop} [DecidablePred p] (cs : List Char) :
    Decidable (∀ c ∈ cs, p c) := List.decidableBAll p cs

/-- `U+FFFD`. -/
def REPLACEMENT : Char := Char.ofNat 0xfffd

/-- A sequence of UTF-8 that has begun: the bits read, the bytes to come, and
the range of the next one. -/
structure Pending where
  bits : Nat
  needed : Nat
  low : UInt8
  high : UInt8

/-- A byte where a sequence may begin. -/
def lead (b : UInt8) : Char ⊕ Pending :=
  if b < 0x80 then .inl (Char.ofNat b.toNat)
  else if 0xc2 ≤ b && b ≤ 0xdf then .inr ⟨b.toNat - 0xc0, 1, 0x80, 0xbf⟩
  else if 0xe0 ≤ b && b ≤ 0xef then
    .inr ⟨b.toNat - 0xe0, 2, if b = 0xe0 then 0xa0 else 0x80, if b = 0xed then 0x9f else 0xbf⟩
  else if 0xf0 ≤ b && b ≤ 0xf4 then
    .inr ⟨b.toNat - 0xf0, 3, if b = 0xf0 then 0x90 else 0x80, if b = 0xf4 then 0x8f else 0xbf⟩
  else .inl REPLACEMENT

/-- The characters of the bytes; every maximal part of a sequence that goes
wrong is one replacement character. -/
def decode_lossy : Option Pending → List UInt8 → List Char
  | none, [] => []
  | some _, [] => [REPLACEMENT]
  | none, b :: bytes =>
    match lead b with
    | .inl c => c :: decode_lossy none bytes
    | .inr pending => decode_lossy (some pending) bytes
  | some pending, b :: bytes =>
    if pending.low ≤ b && b ≤ pending.high then
      let bits := pending.bits * 64 + (b.toNat - 0x80)
      if pending.needed = 1 then Char.ofNat bits :: decode_lossy none bytes
      else decode_lossy (some ⟨bits, pending.needed - 1, 0x80, 0xbf⟩) bytes
    else
      REPLACEMENT ::
        match lead b with
        | .inl c => c :: decode_lossy none bytes
        | .inr pending => decode_lossy (some pending) bytes

/-- `String::from_utf8_lossy`. -/
def from_utf8_lossy (bytes : List UInt8) : String := String.ofList (decode_lossy none bytes)

/-- `str::trim_matches`. -/
def trim_matches (p : Char → Bool) (s : String) : String :=
  let front := s.toList.dropWhile p
  String.ofList ((front.reverse.dropWhile p).reverse)

/-- The characters of the first `n` bytes; there are none where the cut would
go through a character. -/
def take_bytes : Nat → List Char → Option (List Char)
  | 0, _ => some []
  | _ + 1, [] => some []
  | n + 1, c :: cs => if c.utf8Size ≤ n + 1 then (take_bytes (n + 1 - c.utf8Size) cs).map (c :: ·) else none

/-- `String::truncate`, which panics where the cut would go through a
character. -/
def truncate (s : String) (new_len : Nat) : Option String :=
  (take_bytes new_len s.toList).map String.ofList

theorem size_cons (c : Char) (cs : List Char) :
    (String.ofList (c :: cs)).utf8ByteSize = c.utf8Size + (String.ofList cs).utf8ByteSize := by
  rw [String.ofList_cons, String.utf8ByteSize_append, String.utf8ByteSize_singleton]

theorem size_eq_zero {cs : List Char} (h : (String.ofList cs).utf8ByteSize = 0) : cs = [] := by
  have hempty := congrArg String.toList (String.utf8ByteSize_eq_zero_iff.mp h)
  rwa [String.toList_ofList] at hempty

/-- The first `n` bytes are those of a run of characters that ends there, or
all of them. -/
theorem take_bytes_iff {n : Nat} {cs p : List Char} :
    take_bytes n cs = some p ↔ p <+: cs ∧
      ((String.ofList p).utf8ByteSize = n ∨ p = cs ∧ (String.ofList cs).utf8ByteSize ≤ n) := by
  induction n, cs using take_bytes.induct generalizing p with
  | case1 cs =>
    rw [take_bytes, Option.some.injEq]
    constructor
    · rintro rfl
      exact ⟨List.nil_prefix, .inl rfl⟩
    · rintro ⟨-, hsize | ⟨rfl, hsize⟩⟩
      · exact (size_eq_zero hsize).symm
      · exact (size_eq_zero (Nat.le_zero.mp hsize)).symm
  | case2 n =>
    rw [take_bytes, Option.some.injEq, List.prefix_nil]
    constructor
    · rintro rfl
      exact ⟨rfl, .inr ⟨rfl, Nat.zero_le _⟩⟩
    · rintro ⟨rfl, -⟩
      rfl
  | case3 n c cs hfits ih =>
    rw [take_bytes, if_pos hfits, Option.map_eq_some_iff]
    simp only [ih]
    constructor
    · rintro ⟨q, ⟨hq, hsize⟩, rfl⟩
      refine ⟨(List.prefix_cons_inj c).mpr hq, ?_⟩
      rw [size_cons, size_cons]
      obtain hsize | ⟨rfl, hsize⟩ := hsize
      · exact .inl (by omega)
      · exact .inr ⟨rfl, by omega⟩
    · rintro ⟨hp, hsize⟩
      cases p with
      | nil =>
        obtain hsize | ⟨heq, -⟩ := hsize
        · cases hsize
        · cases heq
      | cons d q =>
        obtain ⟨rfl, hq⟩ := List.cons_prefix_cons.mp hp
        rw [size_cons, size_cons] at hsize
        refine ⟨q, ⟨hq, ?_⟩, rfl⟩
        obtain hsize | ⟨heq, hsize⟩ := hsize
        · exact .inl (by omega)
        · exact .inr ⟨(List.cons.inj heq).2, by omega⟩
  | case4 n c cs hlarge =>
    rw [take_bytes, if_neg hlarge]
    refine iff_of_false nofun ?_
    rintro ⟨hp, hsize⟩
    cases p with
    | nil =>
      obtain hsize | ⟨heq, -⟩ := hsize
      · cases hsize
      · cases heq
    | cons d q =>
      obtain ⟨rfl, hq⟩ := List.cons_prefix_cons.mp hp
      rw [size_cons, size_cons] at hsize
      omega

/-- A text that is longer is cut exactly at a boundary of its characters. -/
theorem truncate_iff {s t : String} {n : Nat} (h : n < s.utf8ByteSize) :
    truncate s n = some t ↔ t.toList <+: s.toList ∧ t.utf8ByteSize = n := by
  unfold truncate
  constructor
  · intro ht
    obtain ⟨p, hp, rfl⟩ := Option.map_eq_some_iff.mp ht
    obtain ⟨hbegins, hsize | ⟨rfl, hsize⟩⟩ := take_bytes_iff.mp hp
    · exact ⟨by rwa [String.toList_ofList], hsize⟩
    · rw [String.ofList_toList] at hsize
      omega
  · rintro ⟨hbegins, hsize⟩
    have htake : take_bytes n s.toList = some t.toList :=
      take_bytes_iff.mpr ⟨hbegins, .inl (by rwa [String.ofList_toList])⟩
    rw [htake, Option.map_some, String.ofList_toList]

theorem is_valid_iff_prefix {s : String} {n : Nat} :
    (⟨n⟩ : String.Pos.Raw).IsValid s ↔ ∃ t : String, t.toList <+: s.toList ∧ t.utf8ByteSize = n := by
  rw [String.Pos.Raw.isValid_iff_exists_append]
  constructor
  · rintro ⟨t, rest, rfl, hsize⟩
    refine ⟨t, ?_, (congrArg String.Pos.Raw.byteIdx hsize).symm⟩
    rw [String.toList_append]
    exact List.prefix_append _ _
  · rintro ⟨t, ⟨rest, hrest⟩, rfl⟩
    refine ⟨t, String.ofList rest, ?_, rfl⟩
    rw [← String.toList_inj, String.toList_append, String.toList_ofList, hrest]

/-- The euro sign cut short, and a byte that begins nothing. -/
example : decode_lossy none [0x41, 0xe2, 0x82, 0x42, 0xff] = ['A', REPLACEMENT, 'B', REPLACEMENT] := by
  decide

theorem trim_matches_of_ends {p : Char → Bool} {s : String} (hfront : ∀ c rest, s.toList = c :: rest → p c = false)
    (hback : ∀ front c, s.toList = front ++ [c] → p c = false) : trim_matches p s = s := by
  have hkeep : ∀ l : List Char, (∀ c rest, l = c :: rest → p c = false) → l.dropWhile p = l := by
    intro l hl
    cases l with
    | nil => rfl
    | cons c rest => rw [List.dropWhile_cons_of_neg (by rw [hl c rest rfl]; simp)]
  have hreverse : s.toList.reverse.dropWhile p = s.toList.reverse := by
    refine hkeep _ fun c rest heq => hback rest.reverse c ?_
    rw [← List.reverse_reverse s.toList, heq, List.reverse_cons]
  rw [trim_matches, hkeep _ hfront, hreverse, List.reverse_reverse, String.ofList_toList]

/-- What is left has neither end to trim. -/
theorem trim_matches_ends (p : Char → Bool) (s : String) :
    (∀ c rest, (trim_matches p s).toList = c :: rest → p c = false) ∧
      ∀ front c, (trim_matches p s).toList = front ++ [c] → p c = false := by
  have hhead : ∀ (l : List Char) c rest, l.dropWhile p = c :: rest → p c = false := by
    intro l c rest heq
    have hne : l.dropWhile p ≠ [] := by rw [heq]; simp
    have hnot := List.head_dropWhile_not p hne
    simpa [heq] using hnot
  constructor
  · intro c rest heq
    rw [trim_matches, String.toList_ofList] at heq
    obtain ⟨suffix, hsuffix⟩ := List.dropWhile_suffix (l := (s.toList.dropWhile p).reverse) p
    have hsplit := congrArg List.reverse hsuffix
    rw [List.reverse_append, List.reverse_reverse, heq, List.cons_append] at hsplit
    exact hhead _ _ _ hsplit.symm
  · intro front c heq
    rw [trim_matches, String.toList_ofList] at heq
    have hreverse := congrArg List.reverse heq
    rw [List.reverse_reverse, List.reverse_append, List.reverse_singleton, List.singleton_append] at hreverse
    exact hhead _ _ _ hreverse

theorem trim_matches_idem (p : Char → Bool) (s : String) :
    trim_matches p (trim_matches p s) = trim_matches p s :=
  trim_matches_of_ends (trim_matches_ends p s).1 (trim_matches_ends p s).2

end text
