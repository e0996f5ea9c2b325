import Api2Mcp.Net.Http
import Api2Mcp.Text.Percent
import Api2Mcp.Text.Utf8

namespace form_urlencoded

/-- The bytes that a form is written with as they stand: letters, digits, `*`,
`-`, `.` and `_`. -/
def byte_serialized_unchanged (b : UInt8) : Bool :=
  (48 ≤ b && b ≤ 57) || (65 ≤ b && b ≤ 90) || (97 ≤ b && b ≤ 122) || b == 42 || b == 45 || b == 46 || b == 95

/-- Those, and the space that a plus sign stands for. -/
def kept (b : UInt8) : Bool := byte_serialized_unchanged b || b == 32

/-- A space is written as `+`. -/
def plus (c : Char) : Char := if c = ' ' then '+' else c

def unplus (c : Char) : Char := if c = '+' then ' ' else c

def byte_serialize (s : String) : List Char := (percent.encode kept (net.utf8 s)).map plus

/-- The texts of the pairs, with `&` between them. -/
def serialize (pairs : List (String × String)) : String :=
  String.ofList (['&'].intercalate (pairs.map fun kv => byte_serialize kv.1 ++ '=' :: byte_serialize kv.2))

/-- Bytes that are no UTF-8 are read with replacement characters. -/
def decode_utf8 (bytes : List UInt8) : String :=
  match String.fromUTF8? ⟨bytes.toArray⟩ with
  | some s => s
  | none => text.from_utf8_lossy bytes

def decode (text : List Char) : String := decode_utf8 (percent.decode (text.map unplus))

/-- The name and the value of a pair stand on the two sides of its first `=`. -/
def parse_pair (text : List Char) : String × String :=
  (decode (text.takeWhile (· ≠ '=')), decode ((text.dropWhile (· ≠ '=')).drop 1))

def parse (s : String) : List (String × String) :=
  ((s.toList.splitOn '&').filter (!·.isEmpty)).map parse_pair

theorem decode_utf8_utf8 (s : String) : decode_utf8 (net.utf8 s) = s := by
  have hbytes : (⟨(net.utf8 s).toArray⟩ : ByteArray) = s.toUTF8 := rfl
  have hsome : String.fromUTF8? s.toUTF8 = some s := dif_pos s.isValidUTF8
  rw [decode_utf8, hbytes, hsome]

/-- A byte that is not kept is not in an encoded text, if it is no percent sign
and no hexadecimal digit. -/
theorem notMem_encode {keep : UInt8 → Bool} {b : UInt8} (hascii : b < 128) (hkept : keep b = false)
    (hpercent : Char.ofNat b.toNat ≠ '%') (hhex : ∀ n < 16, Char.ofNat b.toNat ≠ percent.hex n)
    (bytes : List UInt8) : Char.ofNat b.toNat ∉ percent.encode keep bytes := by
  intro h
  obtain heq | ⟨n, hn, heq⟩ | ⟨b', hascii', hkept', heq⟩ := percent.mem_encode h
  · exact hpercent heq
  · exact hhex n hn heq
  · have hbyte := percent.utf8EncodeChar_ofNat hascii
    rw [heq, percent.utf8EncodeChar_ofNat hascii'] at hbyte
    obtain rfl : b' = b := by simpa using hbyte
    rw [hkept] at hkept'
    cases hkept'

theorem notMem_byte_serialize {b : UInt8} (hascii : b < 128) (hkept : kept b = false)
    (hpercent : Char.ofNat b.toNat ≠ '%') (hplus : Char.ofNat b.toNat ≠ '+')
    (hhex : ∀ n < 16, Char.ofNat b.toNat ≠ percent.hex n) (s : String) :
    Char.ofNat b.toNat ∉ byte_serialize s := by
  intro h
  obtain ⟨c, hc, heq⟩ := List.mem_map.mp h
  unfold plus at heq
  split at heq
  · exact hplus heq.symm
  · exact notMem_encode hascii hkept hpercent hhex _ (heq ▸ hc)

/-- A value that another encoder wrote is read back too, if it writes the plus
sign as `%2B`. -/
theorem decode_encode {keep : UInt8 → Bool} (hpercent : keep 37 = false) (hplus : keep 43 = false) (s : String) :
    decode (percent.encode keep (net.utf8 s)) = s := by
  have hnone : '+' ∉ percent.encode keep (net.utf8 s) :=
    notMem_encode (show (43 : UInt8) < 128 by decide) hplus (by decide) (by decide) _
  have hmap : (percent.encode keep (net.utf8 s)).map unplus = percent.encode keep (net.utf8 s) := by
    refine (List.map_congr_left fun c hc => ?_).trans (List.map_id _)
    have hne : c ≠ '+' := fun heq => hnone (heq ▸ hc)
    rw [unplus, if_neg hne]
    rfl
  rw [decode, hmap, percent.decode_encode hpercent, decode_utf8_utf8]

/-- A pair that another encoder wrote the value of. -/
theorem parse_pair_encoded {keep : UInt8 → Bool} (hpercent : keep 37 = false) (hplus : keep 43 = false)
    {name : List Char} (hname : '=' ∉ name) (s : String) :
    parse_pair (name ++ '=' :: percent.encode keep (net.utf8 s)) = (decode name, s) := by
  have hall : ∀ c ∈ name, decide (c ≠ '=') = true := fun c hc => decide_eq_true fun heq => hname (heq ▸ hc)
  rw [parse_pair, List.takeWhile_append_of_pos hall, List.dropWhile_append_of_pos hall]
  simp [decode_encode hpercent hplus]

theorem ampersand_notMem (s : String) : '&' ∉ byte_serialize s :=
  notMem_byte_serialize (show (38 : UInt8) < 128 by decide) (by decide) (by decide) (by decide) (by decide) s

theorem equals_notMem (s : String) : '=' ∉ byte_serialize s :=
  notMem_byte_serialize (show (61 : UInt8) < 128 by decide) (by decide) (by decide) (by decide) (by decide) s

theorem unplus_plus {c : Char} (h : c ≠ '+') : unplus (plus c) = c := by
  unfold plus
  split
  · rename_i hspace
    rw [unplus, if_pos rfl, hspace]
  · rw [unplus, if_neg h]

theorem decode_byte_serialize (s : String) : decode (byte_serialize s) = s := by
  have hplus : '+' ∉ percent.encode kept (net.utf8 s) :=
    notMem_encode (show (43 : UInt8) < 128 by decide) (by decide) (by decide) (by decide) _
  have hmap : (byte_serialize s).map unplus = percent.encode kept (net.utf8 s) := by
    rw [byte_serialize, List.map_map]
    refine (List.map_congr_left fun c hc => ?_).trans (List.map_id _)
    exact unplus_plus fun heq => hplus (heq ▸ hc)
  rw [decode, hmap, percent.decode_encode (by decide), decode_utf8_utf8]

theorem parse_pair_serialized (k v : String) :
    parse_pair (byte_serialize k ++ '=' :: byte_serialize v) = (k, v) := by
  have hall : ∀ c ∈ byte_serialize k, decide (c ≠ '=') = true := fun c hc =>
    decide_eq_true fun heq => equals_notMem k (heq ▸ hc)
  rw [parse_pair, List.takeWhile_append_of_pos hall, List.dropWhile_append_of_pos hall]
  simp [decode_byte_serialize]

/-- A form is read back as the pairs it was written from. -/
theorem parse_serialize (pairs : List (String × String)) : parse (serialize pairs) = pairs := by
  cases pairs with
  | nil => rfl
  | cons kv rest =>
    have hapart : ∀ text ∈ (kv :: rest).map (fun kv => byte_serialize kv.1 ++ '=' :: byte_serialize kv.2),
        '&' ∉ text := by
      intro text htext
      obtain ⟨⟨k, v⟩, -, rfl⟩ := List.mem_map.mp htext
      simp [ampersand_notMem]
    rw [parse, serialize, String.toList_ofList, List.splitOn_intercalate '&' hapart (by simp),
      List.filter_eq_self.mpr, List.map_map]
    · refine (List.map_congr_left fun kv _ => ?_).trans (List.map_id _)
      exact parse_pair_serialized kv.1 kv.2
    · intro text htext
      obtain ⟨⟨k, v⟩, -, rfl⟩ := List.mem_map.mp htext
      simp

theorem of_mem_byte_serialize {s : String} {c : Char} (h : c ∈ byte_serialize s) :
    c = '+' ∨ c = '%' ∨ (∃ n < 16, c = percent.hex n) ∨
      ∃ b, b < 128 ∧ byte_serialized_unchanged b = true ∧ c = Char.ofNat b.toNat := by
  obtain ⟨d, hd, rfl⟩ := List.mem_map.mp h
  unfold plus
  split
  · exact .inl rfl
  rename_i hspace
  obtain heq | hhex | ⟨b, hascii, hkept, rfl⟩ := percent.mem_encode hd
  · exact .inr (.inl heq)
  · exact .inr (.inr (.inl hhex))
  · have hunchanged : byte_serialized_unchanged b = true := by
      obtain hunchanged | h32 := Bool.or_eq_true_iff.mp hkept
      · exact hunchanged
      · rw [beq_iff_eq.mp h32] at hspace
        exact absurd (by decide) hspace
    exact .inr (.inr (.inr ⟨b, hascii, hunchanged, rfl⟩))

theorem of_mem_intercalate {α : Type} {sep : List α} {texts : List (List α)} {c : α} (h : c ∈ sep.intercalate texts) :
    c ∈ sep ∨ ∃ text ∈ texts, c ∈ text := by
  induction texts with
  | nil => cases h
  | cons text texts ih =>
    cases texts with
    | nil => exact .inr ⟨text, List.mem_cons_self .., by simpa using h⟩
    | cons next texts =>
      rw [List.intercalate_cons_cons, List.mem_append, List.mem_append] at h
      obtain (hmem | hsep) | hrest := h
      · exact .inr ⟨text, List.mem_cons_self .., hmem⟩
      · exact .inl hsep
      · obtain hsep | ⟨other, hother, hmem⟩ := ih hrest
        · exact .inl hsep
        · exact .inr ⟨other, List.mem_cons_of_mem _ hother, hmem⟩

/-- The characters a form is written with. -/
theorem of_mem_serialize {pairs : List (String × String)} {c : Char} (h : c ∈ (serialize pairs).toList) :
    c = '&' ∨ c = '=' ∨ c = '+' ∨ c = '%' ∨ (∃ n < 16, c = percent.hex n) ∨
      ∃ b, b < 128 ∧ byte_serialized_unchanged b = true ∧ c = Char.ofNat b.toNat := by
  rw [serialize, String.toList_ofList] at h
  obtain hsep | ⟨text, htext, hmem⟩ := of_mem_intercalate h
  · exact .inl (List.mem_singleton.mp hsep)
  · obtain ⟨kv, -, rfl⟩ := List.mem_map.mp htext
    obtain hname | hvalue := List.mem_append.mp hmem
    · exact .inr (.inr (of_mem_byte_serialize hname))
    · obtain heq | hvalue := List.mem_cons.mp hvalue
      · exact .inr (.inl heq)
      · exact .inr (.inr (of_mem_byte_serialize hvalue))

/-- The pairs of a form and of what stands behind an `&` in it. -/
theorem parse_append (s t : String) : parse (s ++ "&" ++ t) = parse s ++ parse t := by
  have htext : (s ++ "&" ++ t).toList = s.toList ++ '&' :: t.toList := by
    simp
  rw [parse, htext, List.splitOn_append_cons_self, List.filter_append, List.map_append]
  rfl

theorem parse_single {s : String} (hsingle : '&' ∉ s.toList) (hne : s.toList ≠ []) : parse s = [parse_pair s.toList] := by
  rw [parse, List.splitOn_eq_singleton hsingle, List.filter_cons_of_pos (by simpa using hne)]
  rfl

end form_urlencoded
