import Mathlib.Data.List.Basic

namespace percent

/-- A hexadecimal digit, in upper case. -/
def hex (n : Nat) : Char := Char.ofNat (if n < 10 then 48 + n else 55 + n)

/-- The value of a hexadecimal digit. -/
def unhex (c : Char) : Option Nat :=
  if '0' ≤ c && c ≤ '9' then some (c.toNat - 48)
  else if 'A' ≤ c && c ≤ 'F' then some (c.toNat - 55)
  else if 'a' ≤ c && c ≤ 'f' then some (c.toNat - 87)
  else none

/-- A byte as it stands, where `keep` says so of an ASCII one, or as `%XX`. -/
def encode_byte (keep : UInt8 → Bool) (b : UInt8) : List Char :=
  if b < 128 && keep b then [Char.ofNat b.toNat] else ['%', hex (b.toNat / 16), hex (b.toNat % 16)]

def encode (keep : UInt8 → Bool) (bytes : List UInt8) : List Char := bytes.flatMap (encode_byte keep)

/-- Every `%XX` stands for its byte, every other character for its UTF-8 bytes. -/
def decode : List Char → List UInt8
  | '%' :: a :: b :: rest =>
    match unhex a, unhex b with
    | some hi, some lo => UInt8.ofNat (hi * 16 + lo) :: decode rest
    | _, _ => 37 :: decode (a :: b :: rest)
  | c :: rest => String.utf8EncodeChar c ++ decode rest
  | [] => []

theorem unhex_hex {n : Nat} (h : n < 16) : unhex (hex n) = some n := by
  have hall : ∀ n : Fin 16, unhex (hex n) = some n.val := by decide
  exact hall ⟨n, h⟩

/-- An ASCII character is its own byte. -/
theorem utf8EncodeChar_ofNat {b : UInt8} (h : b < 128) :
    String.utf8EncodeChar (Char.ofNat b.toNat) = [b] := by
  have hall : ∀ n : Fin 128, String.utf8EncodeChar (Char.ofNat n) = [UInt8.ofNat n] := by decide
  have hlt : b.toNat < 128 := h
  rw [hall ⟨b.toNat, hlt⟩, UInt8.ofNat_toNat]

theorem decode_cons {c : Char} (h : c ≠ '%') (rest : List Char) :
    decode (c :: rest) = String.utf8EncodeChar c ++ decode rest := by
  rw [decode.eq_def]
  split
  · rename_i heq
    cases heq
    exact absurd rfl h
  · rename_i heq
    cases heq
    rfl
  · rename_i heq
    cases heq

theorem ofNat_ne_percent {b : UInt8} (hascii : b < 128) (h : b ≠ 37) : Char.ofNat b.toNat ≠ '%' := by
  intro heq
  have hencoded := utf8EncodeChar_ofNat hascii
  rw [heq] at hencoded
  have hpercent : String.utf8EncodeChar '%' = [37] := by decide
  rw [hpercent] at hencoded
  exact h (by simpa using hencoded.symm)

theorem decode_encode_byte {keep : UInt8 → Bool} (hkeep : keep 37 = false) (b : UInt8)
    (rest : List Char) : decode (encode_byte keep b ++ rest) = b :: decode rest := by
  unfold encode_byte
  split
  · rename_i hkept
    rw [Bool.and_eq_true, decide_eq_true_eq] at hkept
    have hne : b ≠ 37 := by
      rintro rfl
      rw [hkeep] at hkept
      exact Bool.false_ne_true hkept.2
    rw [List.singleton_append, decode_cons (ofNat_ne_percent hkept.1 hne),
      utf8EncodeChar_ofNat hkept.1]
    rfl
  · have hb : b.toNat < 256 := b.toNat_lt
    have hhigh := unhex_hex (show b.toNat / 16 < 16 by omega)
    have hlow := unhex_hex (show b.toNat % 16 < 16 by omega)
    have hsum : b.toNat / 16 * 16 + b.toNat % 16 = b.toNat := by omega
    show decode ('%' :: hex (b.toNat / 16) :: hex (b.toNat % 16) :: rest) = _
    rw [decode]
    simp only [hhigh, hlow, hsum, UInt8.ofNat_toNat]

/-- What was encoded decodes to itself, as long as `%` was. -/
theorem decode_encode {keep : UInt8 → Bool} (hkeep : keep 37 = false) (bytes : List UInt8) :
    decode (encode keep bytes) = bytes := by
  induction bytes with
  | nil => rfl
  | cons b rest ih =>
    rw [encode, List.flatMap_cons, decode_encode_byte hkeep]
    exact congrArg _ ih

/-- An encoded text has no character but hexadecimal digits, `%` and kept ones. -/
theorem mem_encode {keep : UInt8 → Bool} {bytes : List UInt8} {c : Char} (h : c ∈ encode keep bytes) :
    c = '%' ∨ (∃ n < 16, c = hex n) ∨ ∃ b, b < 128 ∧ keep b = true ∧ c = Char.ofNat b.toNat := by
  obtain ⟨b, _, hc⟩ := List.mem_flatMap.mp h
  unfold encode_byte at hc
  split at hc
  · rename_i hkept
    rw [Bool.and_eq_true, decide_eq_true_eq] at hkept
    exact .inr (.inr ⟨b, hkept.1, hkept.2, by simpa using hc⟩)
  · have hb : b.toNat < 256 := b.toNat_lt
    simp only [List.mem_cons, List.not_mem_nil, or_false] at hc
    obtain rfl | rfl | rfl := hc
    · exact .inl rfl
    · exact .inr (.inl ⟨_, by omega, rfl⟩)
    · exact .inr (.inl ⟨_, by omega, rfl⟩)

end percent
