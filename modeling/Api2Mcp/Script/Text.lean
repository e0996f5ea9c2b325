import Api2Mcp.Numeric.Binary64
import Api2Mcp.Script.Bindings

namespace api2mcp.script

/-- What comes of a native helper: a value, an error that a script can catch, a
panic, or the end of the process. -/
inductive Native (α : Type) where
  | returned (a : α)
  | thrown (message : String)
  | panicked
  | aborted
  deriving DecidableEq

namespace Native

variable {α β : Type}

def bind : Native α → (α → Native β) → Native β
  | returned a, f => f a
  | thrown message, _ => thrown message
  | panicked, _ => panicked
  | aborted, _ => aborted

instance : Monad Native where
  pure := returned
  bind := bind

/-- The host goes on. -/
def Survives : Native α → Prop
  | returned _ | thrown _ => True
  | panicked | aborted => False

end Native

namespace text

/-! Thousands. -/

/-- A digit, and before it a comma if it begins a group of three to the end. -/
def group_step (len : Nat) (out : List Char) (digit : Char × Nat) : List Char :=
  (if 0 < digit.2 ∧ (len - digit.2) % 3 = 0 then out ++ [','] else out) ++ [digit.1]

def group_thousands (digits : String) : String :=
  String.ofList (digits.toList.zipIdx.foldl (group_step digits.toList.length) [])

def format_thousands_int (x : BitVec 64) : String :=
  let grouped := group_thousands (Nat.repr x.toInt.natAbs)
  if x.toInt < 0 then "-" ++ grouped else grouped

/-- A number in plain decimal notation: an integer, and the digits of a fraction
if there are any. -/
structure Plain where
  whole : Nat
  fraction : List Char
  digits : ∀ c ∈ fraction, c.isDigit = true

/-- The point and the fraction. -/
def Plain.tail (p : Plain) : List Char := if p.fraction = [] then [] else '.' :: p.fraction

def Plain.to_string (p : Plain) : String := Nat.repr p.whole ++ String.ofList p.tail

/-- `f64::abs`. -/
def abs (x : BitVec 64) : BitVec 64 := x &&& 0x7fffffffffffffff#64

/-- `f64::trunc` of a finite double that is not negative. -/
def trunc (x : BitVec 64) : Nat :=
  if 0 ≤ binary64.shift x then binary64.significand x * 2 ^ (binary64.shift x).toNat
  else binary64.significand x / 2 ^ (-binary64.shift x).toNat

def is_zero (x : BitVec 64) : Bool := x <<< 1 = 0

/-- A cast to `i64` saturates. -/
def as_i64 (n : Nat) : Nat := min n (2 ^ 63 - 1)

def not_finite_text (x : BitVec 64) : String :=
  if binary64.fraction x ≠ 0 then "NaN" else if x.msb then "-inf" else "inf"

section

-- How a finite double that is not negative is displayed.
variable (display : BitVec 64 → Plain)

def format_thousands_float (x : BitVec 64) : String :=
  if binary64.exponent x = 2047 then not_finite_text x
  else
    let neg := x.msb && !is_zero x
    let int_str := group_thousands (Nat.repr (as_i64 (trunc (abs x))))
    let full := (display (abs x)).to_string
    let grouped := match full.toList.dropWhile (· ≠ '.') with
      | [] => int_str
      | rest => int_str ++ String.ofList rest
    if neg then "-" ++ grouped else grouped

/-- What a script gives to `format_thousands`. -/
inductive Arg where
  | int (x : BitVec 64)
  | float (x : BitVec 64)

def format_thousands : Arg → String
  | .int x => format_thousands_int x
  | .float x => format_thousands_float display x

/-- The plain decimal rendering. Zero has no sign. -/
def plain : Arg → String
  | .int x => toString x.toInt
  | .float x => (if x.msb && !is_zero x then "-" else "") ++ (display (abs x)).to_string

end

def Arg.Finite : Arg → Prop
  | .int _ => True
  | .float x => binary64.exponent x ≠ 2047

/-- One to three digits, and then groups of three digits, each after a comma. -/
def Grouped (s : List Char) : Prop :=
  ∃ (first : List Char) (groups : List (List Char)), 0 < first.length ∧ first.length ≤ 3 ∧
    (∀ group ∈ groups, group.length = 3) ∧ (∀ c ∈ first ++ groups.flatten, c.isDigit = true) ∧
    s = first ++ groups.flatMap (',' :: ·)

/-- The text is the plain one with its integer digits grouped: without the
commas it is the plain one, and they stand between groups of three. -/
structure Separates (text plain : String) : Prop where
  same : text.toList.filter (· ≠ ',') = plain.toList
  grouped : ∃ sign digits tail, text.toList = sign ++ digits ++ tail ∧ (sign = [] ∨ sign = ['-']) ∧
    Grouped digits ∧ (tail = [] ∨ ∃ fraction, tail = '.' :: fraction ∧ ∀ c ∈ fraction, c.isDigit = true)

/-! Grouping, from the right. -/

/-- Digits that are not the first ones. -/
def separated : List Char → List Char
  | [] => []
  | c :: rest => (if (rest.length + 1) % 3 = 0 then [','] else []) ++ c :: separated rest

theorem fold_group_step {len : Nat} (digits out : List Char) {i : Nat} (hi : 0 < i)
    (hlen : i + digits.length = len) :
    (digits.zipIdx i).foldl (group_step len) out = out ++ separated digits := by
  induction digits generalizing out i with
  | nil => simp [separated]
  | cons c rest ih =>
    rw [List.length_cons] at hlen
    have hleft : len - i = rest.length + 1 := by omega
    rw [List.zipIdx_cons, List.foldl_cons, ih _ (by omega) (by omega), separated]
    unfold group_step
    rw [hleft]
    by_cases hthree : (rest.length + 1) % 3 = 0
    · simp [hi, hthree]
    · simp [hthree]

theorem group_thousands_cons (c : Char) (rest : List Char) :
    (group_thousands (String.ofList (c :: rest))).toList = c :: separated rest := by
  unfold group_thousands
  rw [String.toList_ofList, String.toList_ofList, List.zipIdx_cons, List.foldl_cons,
    fold_group_step rest _ (by omega) (by simp; omega)]
  rfl

/-- Digits before a multiple of three are their own group. -/
theorem separated_append {a b : List Char} (ha : a.length < 3) (hb : b.length % 3 = 0) :
    separated (a ++ b) = a ++ separated b := by
  induction a with
  | nil => rfl
  | cons c a ih =>
    rw [List.length_cons] at ha
    have hnot : ¬((a ++ b).length + 1) % 3 = 0 := by
      rw [List.length_append]
      omega
    rw [List.cons_append, separated, if_neg hnot, ih (by omega)]
    rfl

theorem separated_group {group b : List Char} (hgroup : group.length = 3) (hb : b.length % 3 = 0) :
    separated (group ++ b) = ',' :: group ++ separated b := by
  cases group with
  | nil => cases hgroup
  | cons c a =>
    rw [List.length_cons] at hgroup
    have hthree : ((a ++ b).length + 1) % 3 = 0 := by
      rw [List.length_append]
      omega
    rw [List.cons_append, separated, if_pos hthree, separated_append (by omega) hb]
    rfl

theorem length_flatten_groups {groups : List (List Char)} (h : ∀ group ∈ groups, group.length = 3) :
    groups.flatten.length = 3 * groups.length := by
  induction groups with
  | nil => rfl
  | cons group groups ih =>
    obtain ⟨hgroup, hgroups⟩ := List.forall_mem_cons.mp h
    rw [List.flatten_cons, List.length_append, hgroup, ih hgroups, List.length_cons]
    omega

theorem separated_groups {groups : List (List Char)} (h : ∀ group ∈ groups, group.length = 3) :
    separated groups.flatten = groups.flatMap (',' :: ·) := by
  induction groups with
  | nil => rfl
  | cons group groups ih =>
    obtain ⟨hgroup, hgroups⟩ := List.forall_mem_cons.mp h
    have hlen := length_flatten_groups hgroups
    rw [List.flatten_cons, separated_group hgroup (by omega), ih hgroups, List.flatMap_cons]

/-- A list whose length is a multiple of three is cut into groups. -/
theorem exists_groups (k : Nat) (digits : List Char) (h : digits.length = 3 * k) :
    ∃ groups : List (List Char), digits = groups.flatten ∧ ∀ group ∈ groups, group.length = 3 := by
  induction k generalizing digits with
  | zero =>
    obtain rfl := List.length_eq_zero_iff.mp h
    exact ⟨[], rfl, by simp⟩
  | succ k ih =>
    obtain ⟨groups, hgroups, hthree⟩ := ih (digits.drop 3) (by rw [List.length_drop]; omega)
    refine ⟨digits.take 3 :: groups, ?_, List.forall_mem_cons.mpr ⟨?_, hthree⟩⟩
    · rw [List.flatten_cons, ← hgroups, List.take_append_drop]
    · rw [List.length_take]
      omega

theorem filter_separated {digits : List Char} (h : ∀ c ∈ digits, c.isDigit = true) :
    (separated digits).filter (· ≠ ',') = digits := by
  induction digits with
  | nil => rfl
  | cons c rest ih =>
    obtain ⟨hc, hrest⟩ := List.forall_mem_cons.mp h
    have hcomma : c ≠ ',' := by
      rintro rfl
      exact absurd hc (by decide)
    rw [separated]
    split
    · simpa [hcomma] using ih hrest
    · simpa [hcomma] using ih hrest

theorem group_thousands_grouped {digits : List Char} (hne : digits ≠ [])
    (h : ∀ c ∈ digits, c.isDigit = true) :
    Grouped (group_thousands (String.ofList digits)).toList ∧
      (group_thousands (String.ofList digits)).toList.filter (· ≠ ',') = digits := by
  cases digits with
  | nil => exact absurd rfl hne
  | cons c rest =>
    obtain ⟨hc, hrest⟩ := List.forall_mem_cons.mp h
    have hcomma : c ≠ ',' := by
      rintro rfl
      exact absurd hc (by decide)
    rw [group_thousands_cons]
    constructor
    · -- what is left of the first group after its first digit
      let k := rest.length / 3
      let r := rest.length % 3
      obtain ⟨groups, hgroups, hthree⟩ := exists_groups k (rest.drop r) (by rw [List.length_drop]; omega)
      have hlen : (rest.take r).length = r := by
        rw [List.length_take]
        omega
      have hsplit : rest = rest.take r ++ groups.flatten := by
        rw [← hgroups, List.take_append_drop]
      have hsep : separated rest = rest.take r ++ groups.flatMap (',' :: ·) := by
        have hflat := length_flatten_groups hthree
        conv => lhs; rw [hsplit]
        rw [separated_append (by omega) (by omega), separated_groups hthree]
      refine ⟨c :: rest.take r, groups, by simp, by rw [List.length_cons, hlen]; omega, hthree, ?_, ?_⟩
      · rw [List.cons_append, ← hsplit]
        exact h
      · rw [hsep]
        rfl
    · simpa [hcomma] using filter_separated hrest

theorem isDigit_of_mem_repr {n : Nat} {c : Char} (hc : c ∈ (Nat.repr n).toList) : c.isDigit = true := by
  rw [Nat.repr_eq_ofList_toDigits, String.toList_ofList] at hc
  exact Nat.isDigit_of_mem_toDigits (by decide) (by decide) hc

theorem repr_ne_nil (n : Nat) : (Nat.repr n).toList ≠ [] := by
  rw [Nat.repr_eq_ofList_toDigits, String.toList_ofList]
  exact Nat.toDigits_ne_nil

theorem repr_inj {m n : Nat} (h : (Nat.repr m).toList = (Nat.repr n).toList) : m = n := by
  rw [Nat.repr_eq_ofList_toDigits, Nat.repr_eq_ofList_toDigits, String.toList_ofList,
    String.toList_ofList] at h
  have hm := Nat.ofDigitChars_toDigits (b := 10) (n := m) (by decide) (by decide)
  rw [h, Nat.ofDigitChars_toDigits (by decide) (by decide)] at hm
  exact hm.symm

theorem grouped_repr (n : Nat) : Grouped (group_thousands (Nat.repr n)).toList ∧
    (group_thousands (Nat.repr n)).toList.filter (· ≠ ',') = (Nat.repr n).toList := by
  have h := group_thousands_grouped (repr_ne_nil n) fun c hc => isDigit_of_mem_repr hc
  rwa [String.ofList_toList] at h

/-- An integer is grouped, whatever its sign and its size. -/
theorem format_thousands_int_separates (x : BitVec 64) :
    Separates (format_thousands_int x) (toString x.toInt) := by
  obtain ⟨hgrouped, hsame⟩ := grouped_repr x.toInt.natAbs
  unfold format_thousands_int
  by_cases hneg : x.toInt < 0
  · have htext : (toString x.toInt).toList = '-' :: (Nat.repr x.toInt.natAbs).toList := by
      obtain ⟨n, hn⟩ := Int.eq_negSucc_of_lt_zero hneg
      rw [hn]
      show ("-" ++ Nat.repr (n + 1)).toList = _
      simp
    rw [if_pos hneg]
    constructor
    · rw [htext, String.toList_append, List.filter_append, hsame]
      rfl
    · exact ⟨['-'], _, [], by simp, .inr rfl, hgrouped, .inl rfl⟩
  · have htext : (toString x.toInt).toList = (Nat.repr x.toInt.natAbs).toList := by
      obtain ⟨n, hn⟩ := Int.eq_ofNat_of_zero_le (Int.not_lt.mp hneg)
      rw [hn]
      rfl
    rw [if_neg hneg]
    constructor
    · rw [htext, hsame]
    · exact ⟨[], _, [], by simp, .inl rfl, hgrouped, .inl rfl⟩

theorem Plain.tail_cases (p : Plain) :
    p.tail = [] ∨ ∃ fraction, p.tail = '.' :: fraction ∧ ∀ c ∈ fraction, c.isDigit = true := by
  unfold Plain.tail
  split
  · exact .inl rfl
  · exact .inr ⟨_, rfl, p.digits⟩

theorem Plain.filter_tail (p : Plain) : p.tail.filter (· ≠ ',') = p.tail := by
  rw [List.filter_eq_self]
  intro c hc
  rw [decide_eq_true_eq]
  rintro rfl
  obtain htail | ⟨fraction, htail, hdigits⟩ := p.tail_cases
  · rw [htail] at hc
    cases hc
  · rw [htail] at hc
    obtain hdot | hc := List.mem_cons.mp hc
    · cases hdot
    · exact absurd (hdigits _ hc) (by decide)

/-- Looking for the point finds what follows the integer. -/
theorem Plain.find_point (p : Plain) : p.to_string.toList.dropWhile (· ≠ '.') = p.tail := by
  have hdigits : ∀ c ∈ (Nat.repr p.whole).toList, decide (c ≠ '.') = true := by
    intro c hc
    rw [decide_eq_true_eq]
    rintro rfl
    exact absurd (isDigit_of_mem_repr hc) (by decide)
  unfold Plain.to_string
  rw [String.toList_append, String.toList_ofList, List.dropWhile_append_of_pos hdigits]
  obtain htail | ⟨fraction, htail, _⟩ := p.tail_cases
  · rw [htail]
    rfl
  · rw [htail]
    rfl

section

variable {display : BitVec 64 → Plain} {x : BitVec 64}

def sign (x : BitVec 64) : List Char := if x.msb && !is_zero x then ['-'] else []

theorem plain_float : (plain display (.float x)).toList =
    sign x ++ ((Nat.repr (display (abs x)).whole).toList ++ (display (abs x)).tail) := by
  have hplain : plain display (.float x) =
      (if x.msb && !is_zero x then "-" else "") ++ (display (abs x)).to_string := rfl
  rw [hplain]
  unfold sign Plain.to_string
  split <;> simp

/-- Sign and fraction are displayed; the integer is what the cast makes of it. -/
theorem format_thousands_float_text (hfinite : binary64.exponent x ≠ 2047) :
    (format_thousands_float display x).toList =
      sign x ++ (group_thousands (Nat.repr (as_i64 (trunc (abs x))))).toList ++ (display (abs x)).tail := by
  unfold format_thousands_float sign
  rw [if_neg hfinite]
  dsimp only
  rw [Plain.find_point]
  cases htail : (display (abs x)).tail with
  | nil => split <;> simp
  | cons c rest => split <;> simp

theorem format_thousands_float_separates_iff (hfinite : binary64.exponent x ≠ 2047) :
    Separates (format_thousands_float display x) (plain display (.float x)) ↔
      (display (abs x)).whole = as_i64 (trunc (abs x)) := by
  obtain ⟨hgrouped, hsame⟩ := grouped_repr (as_i64 (trunc (abs x)))
  have hsign : (sign x).filter (· ≠ ',') = sign x := by
    unfold sign
    split <;> rfl
  have hfilter : (format_thousands_float display x).toList.filter (· ≠ ',') =
      sign x ++ ((Nat.repr (as_i64 (trunc (abs x)))).toList ++ (display (abs x)).tail) := by
    rw [format_thousands_float_text hfinite, List.filter_append, List.filter_append, hsign, hsame,
      Plain.filter_tail, List.append_assoc]
  constructor
  · intro h
    have heq := h.same
    rw [hfilter, plain_float] at heq
    exact (repr_inj (List.append_cancel_right (List.append_cancel_left heq))).symm
  · intro hwhole
    constructor
    · rw [hfilter, plain_float, hwhole]
    · refine ⟨sign x, _, _, format_thousands_float_text hfinite, ?_, hgrouped, Plain.tail_cases _⟩
      unfold sign
      split
      · exact .inr rfl
      · exact .inl rfl

end

/-- Whether the integer digits that are displayed are those the cast keeps. -/
def IntegerKept (display : BitVec 64 → Plain) : Arg → Prop
  | .int _ => True
  | .float x => (display (abs x)).whole = as_i64 (trunc (abs x))

/-- `format_thousands` only inserts separators into every integer, and into
exactly those doubles whose displayed integer part is their own one as an
`i64`. -/
theorem format_thousands_separates_iff (display : BitVec 64 → Plain) (x : Arg) (hfinite : x.Finite) :
    Separates (format_thousands display x) (plain display x) ↔ IntegerKept display x := by
  cases x with
  | int x => exact iff_of_true (format_thousands_int_separates x) trivial
  | float x => exact format_thousands_float_separates_iff hfinite

/-- How 1234567.89 and 1e20 are displayed. -/
def sample_display (x : BitVec 64) : Plain :=
  if x = 0x4132d687e3d70a3d#64 then ⟨1234567, ['8', '9'], by decide⟩
  else if x = 0x4415af1d78b58c40#64 then ⟨100000000000000000000, [], by decide⟩
  else ⟨0, [], by decide⟩

theorem fraction_separated :
    format_thousands sample_display (.float 0x4132d687e3d70a3d#64) = "1,234,567.89" ∧
      Separates (format_thousands sample_display (.float 0x4132d687e3d70a3d#64))
        (plain sample_display (.float 0x4132d687e3d70a3d#64)) := by
  have hkept : IntegerKept sample_display (.float 0x4132d687e3d70a3d#64) := by
    show (sample_display (abs _)).whole = as_i64 (trunc (abs _))
    decide
  refine ⟨?_, (format_thousands_separates_iff _ _ ?_).mpr hkept⟩
  · decide +kernel
  · show binary64.exponent _ ≠ 2047
    decide

/-- A double beyond the integers is given the digits of the greatest one. -/
theorem large_not_separated :
    plain sample_display (.float 0x4415af1d78b58c40#64) = "100000000000000000000" ∧
      format_thousands sample_display (.float 0x4415af1d78b58c40#64) = "9,223,372,036,854,775,807" ∧
      ¬Separates (format_thousands sample_display (.float 0x4415af1d78b58c40#64))
        (plain sample_display (.float 0x4415af1d78b58c40#64)) := by
  refine ⟨?_, ?_, fun h => ?_⟩
  · show _ ++ _ = _
    decide
  · decide +kernel
  · have hfinite : binary64.exponent 0x4415af1d78b58c40#64 ≠ 2047 := by decide
    have hkept : (sample_display (abs 0x4415af1d78b58c40#64)).whole =
        as_i64 (trunc (abs 0x4415af1d78b58c40#64)) := (format_thousands_float_separates_iff hfinite).mp h
    exact absurd hkept (by decide)

/-! Padding. -/

def MAX_STRING_SIZE : Nat := 256 * 1024

section

-- Whether the allocator lets a string hold that many bytes.
variable (grants : Nat → Bool)

/-- Memory for a string. More bytes than `isize::MAX` are a capacity overflow,
and what the allocator refuses ends the process. -/
def reserve (bytes : Nat) : Native Unit :=
  if 2 ^ 63 ≤ bytes then .panicked
  else if grants bytes then .returned ()
  else .aborted

def fill_char (fill : String) : Char := fill.toList.head?.getD ' '

/-- `width.max(0) as usize`. -/
def columns (width : BitVec 64) : Nat := width.toInt.toNat

end

/-- A string within the engine's limit, or an error that can be caught. -/
def WithinLimits : Native String → Prop
  | .returned s => s.utf8ByteSize ≤ MAX_STRING_SIZE
  | .thrown _ => True
  | .panicked | .aborted => False

/-- The bytes that padding asks for: those of a copy, or those of the padding
and those of the whole. -/
def requests (s : String) (width : BitVec 64) (fill : String) : List Nat :=
  if columns width ≤ s.toList.length then [s.utf8ByteSize]
  else
    let pad := (columns width - s.toList.length) * (fill_char fill).utf8Size
    [pad, pad + s.utf8ByteSize]

section

variable {grants : Nat → Bool}

def Granted (grants : Nat → Bool) (bytes : Nat) : Prop := bytes < 2 ^ 63 ∧ grants bytes = true

end

end text

end api2mcp.script
