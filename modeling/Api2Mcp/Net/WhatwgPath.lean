import Api2Mcp.Net.Whatwg
import Api2Mcp.Text.Percent

/-!
The percent-encode sets and the path states of the basic URL parser. `caret` is
whether `^` is in the path percent-encode set, which the standard added to it.
-/

namespace whatwg

open net

def c0_control_set (c : Char) : Bool := c.toNat ≤ 0x1f || 0x7e < c.toNat

def fragment_set (c : Char) : Bool := c0_control_set c || c = ' ' || c = '"' || c = '<' || c = '>' || c = '`'

def query_set (c : Char) : Bool := c0_control_set c || c = ' ' || c = '"' || c = '#' || c = '<' || c = '>'

def special_query_set (c : Char) : Bool := query_set c || c = '\''

def path_set (caret : Bool) (c : Char) : Bool :=
  query_set c || c = '?' || (caret && c = '^') || c = '`' || c = '{' || c = '}'

def userinfo_set (caret : Bool) (c : Char) : Bool :=
  path_set caret c || c = '/' || c = ':' || c = ';' || c = '=' || c = '@' || c = '[' || c = '\\' || c = ']' ||
    c = '^' || c = '|'

/-- UTF-8 percent-encode a code point. -/
def encode_char (set : Char → Bool) (c : Char) : List Char :=
  if set c then percent.encode (fun _ => false) (String.utf8EncodeChar c) else [c]

/-- UTF-8 percent-encode a text. -/
def encode (set : Char → Bool) (text : List Char) : List Char := text.flatMap (encode_char set)

/-- The special schemes, `file` included. -/
def special (scheme : String) : Bool := is_special scheme || scheme = "file"

def is_separator (scheme : String) (c : Char) : Bool := c = '/' || (special scheme && c = '\\')

def is_single_dot (segment : List Char) : Bool := [['.'], ['%', '2', 'e']].contains (segment.map Char.toLower)

def is_double_dot (segment : List Char) : Bool :=
  [['.', '.'], ['.', '%', '2', 'e'], ['%', '2', 'e', '.'], ['%', '2', 'e', '%', '2', 'e']].contains
    (segment.map Char.toLower)

def is_drive_letter : List Char → Bool
  | [a, b] => a.isAlpha && (b = ':' || b = '|')
  | _ => false

def is_normalized_drive_letter : List Char → Bool
  | [a, b] => a.isAlpha && b = ':'
  | _ => false

/-- The path without its last segment; a drive letter that is all of it stays. -/
def shorten (scheme : String) (path : List (List Char)) : List (List Char) :=
  match path with
  | [segment] => if scheme = "file" && is_normalized_drive_letter segment then path else []
  | _ => path.dropLast

/-- The segment as it is pushed onto the path. -/
def pushed (scheme : String) (path : List (List Char)) (segment : List Char) : List Char :=
  if scheme = "file" && path.isEmpty && is_drive_letter segment then segment.take 1 ++ [':'] else segment

/-- The path state at the end of a segment, `last` being whether the path ends
there. -/
def add_segment (caret : Bool) (scheme : String) (path : List (List Char)) (raw : List Char) (last : Bool) :
    List (List Char) :=
  let segment := encode (path_set caret) raw
  if is_double_dot segment then
    if last then shorten scheme path ++ [[]] else shorten scheme path
  else if is_single_dot segment then
    if last then path ++ [[]] else path
  else path ++ [pushed scheme path segment]

/-- The path state, segment by segment. -/
def path_state (caret : Bool) (scheme : String) (path : List (List Char)) : List (List Char) → List (List Char)
  | [] => path
  | [raw] => add_segment caret scheme path raw true
  | raw :: next :: rest => path_state caret scheme (add_segment caret scheme path raw false) (next :: rest)

/-- The URL path serializer. -/
def path_text (path : List (List Char)) : List Char := path.flatMap ('/' :: ·)

/-- The path of a text that the path state starts on. -/
def path_of (caret : Bool) (scheme : String) (text : List Char) : List Char :=
  path_text (path_state caret scheme [] (text.splitOnP (is_separator scheme)))

/-- The path start state: a special URL has a path always. -/
def path_start_state (caret : Bool) (scheme : String) (text : List Char) : List Char :=
  match text with
  | [] => if special scheme then path_of caret scheme [] else []
  | c :: rest => if is_separator scheme c then path_of caret scheme rest else path_of caret scheme text

/-! Encoded texts. -/

@[simp] theorem encode_nil (set : Char → Bool) : encode set [] = [] := rfl

theorem encode_append (set : Char → Bool) (a b : List Char) : encode set (a ++ b) = encode set a ++ encode set b :=
  List.flatMap_append

theorem encode_of_kept {set : Char → Bool} {text : List Char} (h : ∀ c ∈ text, set c = false) : encode set text = text := by
  induction text with
  | nil => rfl
  | cons c text ih =>
    have hc : encode_char set c = [c] := by
      rw [encode_char, h c (List.mem_cons_self ..)]
      rfl
    rw [encode, List.flatMap_cons, hc]
    exact congrArg _ (ih fun d hd => h d (List.mem_cons_of_mem _ hd))

theorem mem_encode_char {set : Char → Bool} {c d : Char} (h : d ∈ encode_char set c) :
    d = '%' ∨ (∃ n < 16, d = percent.hex n) ∨ (d = c ∧ set c = false) := by
  unfold encode_char at h
  split at h
  · obtain heq | hhex | ⟨_, _, hkept, _⟩ := percent.mem_encode h
    · exact .inl heq
    · exact .inr (.inl hhex)
    · cases hkept
  · rename_i hc
    exact .inr (.inr ⟨List.mem_singleton.mp h, by simpa using hc⟩)

theorem mem_encode {set : Char → Bool} {text : List Char} {d : Char} (h : d ∈ encode set text) :
    d = '%' ∨ (∃ n < 16, d = percent.hex n) ∨ (d ∈ text ∧ set d = false) := by
  obtain ⟨c, hc, hd⟩ := List.mem_flatMap.mp h
  obtain heq | hhex | ⟨rfl, hkept⟩ := mem_encode_char hd
  · exact .inl heq
  · exact .inr (.inl hhex)
  · exact .inr (.inr ⟨hc, hkept⟩)

theorem encode_char_ne_nil (set : Char → Bool) (c : Char) : encode_char set c ≠ [] := by
  unfold encode_char
  split
  · have hbytes : String.utf8EncodeChar c ≠ [] := by
      have hlength := String.length_utf8EncodeChar c
      have hpos := c.utf8Size_pos
      intro hnil
      rw [hnil, List.length_nil] at hlength
      omega
    obtain ⟨b, bytes, hbytes⟩ := List.exists_cons_of_ne_nil hbytes
    rw [hbytes]
    simp [percent.encode, percent.encode_byte]
  · simp

theorem length_le_encode (set : Char → Bool) (text : List Char) : text.length ≤ (encode set text).length := by
  induction text with
  | nil => exact Nat.le_refl _
  | cons c text ih =>
    have hc := List.length_pos_of_ne_nil (encode_char_ne_nil set c)
    have hlength : (encode set (c :: text)).length = (encode_char set c).length + (encode set text).length := by
      rw [encode, List.flatMap_cons, List.length_append]
      rfl
    rw [hlength, List.length_cons]
    omega

/-- The characters a percent-encoding is spelled with are in no path. -/
theorem path_set_hex (caret : Bool) : path_set caret '%' = false ∧ ∀ n < 16, path_set caret (percent.hex n) = false := by
  have hall : ∀ caret, path_set caret '%' = false ∧ ∀ n < 16, path_set caret (percent.hex n) = false := by decide
  exact hall caret

theorem separator_hex (scheme : String) :
    is_separator scheme '%' = false ∧ ∀ n < 16, is_separator scheme (percent.hex n) = false := by
  have hall : ∀ n < 16, percent.hex n ≠ '/' ∧ percent.hex n ≠ '\\' := by decide
  refine ⟨by simp [is_separator], fun n hn => ?_⟩
  obtain ⟨hslash, hback⟩ := hall n hn
  simp [is_separator, hslash, hback]

/-! Dots. -/

theorem toLower_cases (c : Char) : c.toLower = c ∨ (c.toNat ≤ 90 ∧ c.toLower.toNat = c.toNat + 32 ∧ 65 ≤ c.toNat) := by
  unfold Char.toLower
  split
  · rename_i hupper
    obtain ⟨hlow, hhigh⟩ := hupper
    have hlow' : 65 ≤ c.toNat := UInt32.le_iff_toNat_le.mp hlow
    have hhigh' : c.val.toNat ≤ 90 := UInt32.le_iff_toNat_le.mp hhigh
    refine .inr ⟨hhigh', ?_, hlow'⟩
    show (c.val + 32).toNat = c.val.toNat + 32
    rw [UInt32.toNat_add]
    show (c.val.toNat + 32) % 2 ^ 32 = _
    omega
  · exact .inl rfl

theorem eq_of_toLower {c d : Char} (hd : d.toNat < 97) (h : c.toLower = d) : c = d := by
  obtain hsame | ⟨_, hlower, _⟩ := toLower_cases c
  · exact hsame.symm.trans h
  · rw [h] at hlower
    omega

theorem eq_of_toLower_e {c : Char} (h : c.toLower = 'e') : c = 'e' ∨ c = 'E' := by
  obtain hsame | ⟨_, hlower, _⟩ := toLower_cases c
  · exact .inl (hsame.symm.trans h)
  · rw [h] at hlower
    have hval : c.toNat = 'E'.toNat := by
      have hsmall : 'e'.toNat = 101 := rfl
      have hbig : 'E'.toNat = 69 := rfl
      omega
    exact .inr (Char.toNat_inj.mp hval)

/-- A dot, or the code that stands for one. -/
theorem is_single_dot_cases {segment : List Char} (h : is_single_dot segment = true) :
    segment = ['.'] ∨ segment = ['%', '2', 'e'] ∨ segment = ['%', '2', 'E'] := by
  have hcases : segment.map Char.toLower = ['.'] ∨ segment.map Char.toLower = ['%', '2', 'e'] := by
    simpa [is_single_dot] using h
  obtain hdot | hencoded := hcases
  · simp only [List.map_eq_cons_iff, List.map_eq_nil_iff] at hdot
    obtain ⟨c, _, rfl, hc, rfl⟩ := hdot
    rw [eq_of_toLower (by decide) hc]
    exact .inl rfl
  · simp only [List.map_eq_cons_iff, List.map_eq_nil_iff] at hencoded
    obtain ⟨a, _, rfl, ha, b, _, rfl, hb, c, _, rfl, hc, rfl⟩ := hencoded
    rw [eq_of_toLower (by decide) ha, eq_of_toLower (by decide) hb]
    obtain rfl | rfl := eq_of_toLower_e hc
    · exact .inr (.inl rfl)
    · exact .inr (.inr rfl)

/-- Two dots are one and one. -/
theorem is_double_dot_cases {segment : List Char} (h : is_double_dot segment = true) :
    ∃ first second, segment = first ++ second ∧ is_single_dot first = true ∧ is_single_dot second = true := by
  have happend : ∃ first second, segment.map Char.toLower = first ++ second ∧
      (first = ['.'] ∨ first = ['%', '2', 'e']) ∧ (second = ['.'] ∨ second = ['%', '2', 'e']) := by
    have hcases : segment.map Char.toLower = ['.', '.'] ∨ segment.map Char.toLower = ['.', '%', '2', 'e'] ∨
        segment.map Char.toLower = ['%', '2', 'e', '.'] ∨
        segment.map Char.toLower = ['%', '2', 'e', '%', '2', 'e'] := by
      simpa [is_double_dot] using h
    obtain h | h | h | h := hcases
    · exact ⟨['.'], ['.'], h, .inl rfl, .inl rfl⟩
    · exact ⟨['.'], ['%', '2', 'e'], h, .inl rfl, .inr rfl⟩
    · exact ⟨['%', '2', 'e'], ['.'], h, .inr rfl, .inl rfl⟩
    · exact ⟨['%', '2', 'e'], ['%', '2', 'e'], h, .inr rfl, .inr rfl⟩
  obtain ⟨_, _, hmap, hfirst, hsecond⟩ := happend
  obtain ⟨first, second, rfl, rfl, rfl⟩ := List.map_eq_append_iff.mp hmap
  exact ⟨first, second, rfl, by simpa [is_single_dot] using hfirst, by simpa [is_single_dot] using hsecond⟩

theorem decode_dot {segment : List Char} (h : is_single_dot segment = true) (rest : List Char) :
    percent.decode (segment ++ rest) = 46 :: percent.decode rest := by
  obtain rfl | rfl | rfl := is_single_dot_cases h
  · exact percent.decode_cons (by decide) rest
  · rfl
  · rfl

theorem decode_of_is_single_dot {segment : List Char} (h : is_single_dot segment = true) :
    percent.decode segment = [46] := by
  have hdecode := decode_dot h []
  rwa [List.append_nil] at hdecode

theorem decode_of_is_double_dot {segment : List Char} (h : is_double_dot segment = true) :
    percent.decode segment = [46, 46] := by
  obtain ⟨first, second, rfl, hfirst, hsecond⟩ := is_double_dot_cases h
  rw [decode_dot hfirst, decode_of_is_single_dot hsecond]

/-! Pieces between separators. -/

section

variable {p : Char → Bool}

/-- A piece has no separators. -/
theorem of_mem_splitOnP {cs piece : List Char} (h : piece ∈ cs.splitOnP p) : ∀ c ∈ piece, p c = false := by
  induction cs generalizing piece with
  | nil =>
    obtain rfl : piece = [] := by simpa using h
    simp
  | cons c rest ih =>
    obtain ⟨first, others, hsplit⟩ := List.exists_cons_of_ne_nil (List.splitOnP_ne_nil p rest)
    rw [List.splitOnP_cons_eq_if_modifyHead, hsplit] at h
    have hrest : ∀ piece ∈ others, ∀ d ∈ piece, p d = false := fun piece hmem =>
      ih (hsplit ▸ List.mem_cons_of_mem _ hmem)
    split at h
    · obtain rfl | hmem := List.mem_cons.mp h
      · simp
      · exact ih (hsplit ▸ hmem)
    · rename_i hc
      rw [List.modifyHead_cons] at h
      obtain rfl | hmem := List.mem_cons.mp h
      · intro d hd
        obtain rfl | hd := List.mem_cons.mp hd
        · simpa using hc
        · exact ih (hsplit ▸ List.mem_cons_self ..) d hd
      · exact hrest piece hmem

/-- A text without separators goes to the last piece. -/
theorem splitOnP_append {suffix : List Char} (hsuffix : ∀ c ∈ suffix, p c = false) (cs : List Char) :
    ∃ before last, cs.splitOnP p = before ++ [last] ∧ (cs ++ suffix).splitOnP p = before ++ [last ++ suffix] := by
  induction cs with
  | nil => exact ⟨[], [], rfl, List.splitOnP_eq_singleton hsuffix⟩
  | cons c rest ih =>
    obtain ⟨before, last, hrest, happend⟩ := ih
    rw [List.cons_append, List.splitOnP_cons_eq_if_modifyHead, List.splitOnP_cons_eq_if_modifyHead, hrest, happend]
    split
    · exact ⟨[] :: before, last, rfl, rfl⟩
    · cases before with
      | nil => exact ⟨[], c :: last, rfl, rfl⟩
      | cons first before => exact ⟨(c :: first) :: before, last, rfl, rfl⟩

/-- The pieces that were joined come back. -/
theorem splitOnP_join {d : Char} (hd : p d = true) {piece : List Char} {pieces : List (List Char)}
    (h : ∀ t ∈ piece :: pieces, ∀ c ∈ t, p c = false) :
    (piece ++ pieces.flatMap (d :: ·)).splitOnP p = piece :: pieces := by
  induction pieces generalizing piece with
  | nil =>
    rw [List.flatMap_nil, List.append_nil]
    exact List.splitOnP_eq_singleton (h piece (List.mem_cons_self ..))
  | cons next pieces ih =>
    rw [List.flatMap_cons, List.cons_append,
      List.splitOnP_append_cons_of_forall_mem (h piece (List.mem_cons_self ..)) d hd,
      ih fun t ht => h t (List.mem_cons_of_mem _ ht)]

end

/-! The path state. -/

section

variable {caret : Bool} {scheme : String}

/-- The last segment of a path is added to what the others made. -/
theorem path_state_append (path before : List (List Char)) (last : List Char) :
    path_state caret scheme path (before ++ [last]) =
      add_segment caret scheme (before.foldl (fun path raw => add_segment caret scheme path raw false) path) last
        true := by
  induction before generalizing path with
  | nil => rfl
  | cons raw before ih =>
    rw [List.foldl_cons, ← ih]
    cases before with
    | nil => rfl
    | cons next before => rfl

/-- A segment of a path that is serialized: no character that would be encoded
and no separator, and no dots; the first one of a `file` URL is no drive letter
with a bar. -/
structure Normal (caret : Bool) (scheme : String) (segment : List Char) : Prop where
  kept : ∀ c ∈ segment, path_set caret c = false
  whole : ∀ c ∈ segment, is_separator scheme c = false
  single : is_single_dot segment = false
  double : is_double_dot segment = false

/-- The first segment of a `file` URL is no drive letter with a bar. -/
def FirstNormal (scheme : String) (segment : List Char) : Prop :=
  scheme = "file" → is_drive_letter segment = true → is_normalized_drive_letter segment = true

/-- The segments of a path that the path state leaves as they are. -/
structure NormalPath (caret : Bool) (scheme : String) (path : List (List Char)) : Prop where
  normal : ∀ segment ∈ path, Normal caret scheme segment
  first : ∀ segment ∈ path.head?, FirstNormal scheme segment

theorem normal_nil : Normal caret scheme [] := ⟨by simp, by simp, rfl, rfl⟩

theorem normal_encode {raw : List Char} (hwhole : ∀ c ∈ raw, is_separator scheme c = false)
    (hsingle : is_single_dot (encode (path_set caret) raw) = false)
    (hdouble : is_double_dot (encode (path_set caret) raw) = false) :
    Normal caret scheme (encode (path_set caret) raw) := by
  obtain ⟨hpercent, hhex⟩ := path_set_hex caret
  obtain ⟨hpercent', hhex'⟩ := separator_hex scheme
  refine ⟨fun c hc => ?_, fun c hc => ?_, hsingle, hdouble⟩
  · obtain rfl | ⟨n, hn, rfl⟩ | ⟨_, hkept⟩ := mem_encode hc
    · exact hpercent
    · exact hhex n hn
    · exact hkept
  · obtain rfl | ⟨n, hn, rfl⟩ | ⟨hmem, _⟩ := mem_encode hc
    · exact hpercent'
    · exact hhex' n hn
    · exact hwhole c hmem

theorem shorten_sublist (path : List (List Char)) : (shorten scheme path).Sublist path := by
  unfold shorten
  split
  · split
    · exact .refl _
    · exact List.nil_sublist _
  · exact List.dropLast_sublist _

theorem normalPath_nil : NormalPath caret scheme [] := ⟨by simp, by simp⟩

/-- The last segment replaced by the empty one. -/
theorem NormalPath.append_nil {path : List (List Char)} (h : NormalPath caret scheme path) :
    NormalPath caret scheme (path ++ [[]]) := by
  refine ⟨fun segment hmem => ?_, fun segment hhead => ?_⟩
  · obtain hold | hnew := List.mem_append.mp hmem
    · exact h.normal segment hold
    · rw [List.mem_singleton.mp hnew]
      exact normal_nil
  · cases path with
    | nil =>
      obtain rfl : [] = segment := by simpa using hhead
      intro _ hdrive
      cases hdrive
    | cons first path => exact h.first segment hhead

theorem NormalPath.shorten {path : List (List Char)} (h : NormalPath caret scheme path) :
    NormalPath caret scheme (shorten scheme path) := by
  refine ⟨fun segment hmem => h.normal segment ((shorten_sublist path).subset hmem), fun segment hhead => ?_⟩
  refine h.first segment ?_
  match path with
  | [] => exact hhead
  | [only] =>
    rw [whatwg.shorten] at hhead
    split at hhead
    · exact hhead
    · cases hhead
  | first :: next :: rest => exact hhead

theorem pushed_of_not_drive {path : List (List Char)} {segment : List Char}
    (h : ¬(scheme = "file" ∧ path = [] ∧ is_drive_letter segment = true)) : pushed scheme path segment = segment := by
  rw [pushed, if_neg]
  simpa [and_assoc] using h

theorem normal_pushed (path : List (List Char)) {segment : List Char} (hsegment : Normal caret scheme segment) :
    Normal caret scheme (pushed scheme path segment) ∧
      (path = [] → FirstNormal scheme (pushed scheme path segment)) := by
  by_cases hdrive : scheme = "file" ∧ path = [] ∧ is_drive_letter segment = true
  · obtain ⟨hfile, rfl, hletter⟩ := hdrive
    match segment, hletter with
    | [a, b], hletter =>
      have halpha : a.isAlpha = true := by
        rw [is_drive_letter, Bool.and_eq_true] at hletter
        exact hletter.1
      have hpushed : pushed scheme [] [a, b] = [a, ':'] := by
        simp [pushed, hfile, hletter]
      rw [hpushed]
      refine ⟨⟨fun c hc => ?_, fun c hc => ?_, ?_, ?_⟩, fun _ _ _ => ?_⟩
      · obtain rfl | rfl : c = a ∨ c = ':' := by simpa using hc
        · exact hsegment.kept _ (by simp)
        · have hall : ∀ caret, path_set caret ':' = false := by decide
          exact hall caret
      · obtain rfl | rfl : c = a ∨ c = ':' := by simpa using hc
        · exact hsegment.whole _ (by simp)
        · simp [is_separator]
      · simp [is_single_dot]
      · have hcolon : Char.toLower ':' = ':' := by decide
        simp [is_double_dot, hcolon]
      · simp [is_normalized_drive_letter, halpha]
  · rw [pushed_of_not_drive hdrive]
    refine ⟨hsegment, fun hnil hfile hletter => ?_⟩
    exact absurd ⟨hfile, hnil, hletter⟩ hdrive

theorem NormalPath.push {path : List (List Char)} {segment : List Char} (h : NormalPath caret scheme path)
    (hsegment : Normal caret scheme segment) : NormalPath caret scheme (path ++ [pushed scheme path segment]) := by
  obtain ⟨hnormal, hfirst⟩ := normal_pushed path hsegment
  refine ⟨fun other hmem => ?_, fun other hhead => ?_⟩
  · obtain hold | hnew := List.mem_append.mp hmem
    · exact h.normal other hold
    · rw [List.mem_singleton.mp hnew]
      exact hnormal
  · cases path with
    | nil =>
      obtain rfl : pushed scheme [] segment = other := by simpa using hhead
      exact hfirst rfl
    | cons first path => exact h.first other hhead

/-- One segment keeps a path normal. -/
theorem NormalPath.add_segment {path : List (List Char)} {raw : List Char} (h : NormalPath caret scheme path)
    (hraw : ∀ c ∈ raw, is_separator scheme c = false) (last : Bool) :
    NormalPath caret scheme (add_segment caret scheme path raw last) := by
  unfold whatwg.add_segment
  dsimp only
  split
  · split
    · exact h.shorten.append_nil
    · exact h.shorten
  rename_i hdouble
  split
  · split
    · exact h.append_nil
    · exact h
  · rename_i hsingle
    exact h.push (normal_encode hraw (by simpa using hsingle) (by simpa using hdouble))

/-- What the path state makes is normal. -/
theorem NormalPath.path_state {path raws : List (List Char)} (h : NormalPath caret scheme path)
    (hraws : ∀ raw ∈ raws, ∀ c ∈ raw, is_separator scheme c = false) :
    NormalPath caret scheme (path_state caret scheme path raws) := by
  induction raws generalizing path with
  | nil => exact h
  | cons raw raws ih =>
    have hstep := fun last => h.add_segment (hraws raw (List.mem_cons_self ..)) last
    cases raws with
    | nil => exact hstep true
    | cons next raws => exact ih (hstep false) fun other hmem => hraws other (List.mem_cons_of_mem _ hmem)

theorem add_segment_last_ne_nil (path : List (List Char)) (raw : List Char) :
    add_segment caret scheme path raw true ≠ [] := by
  unfold add_segment
  dsimp only
  split
  · simp
  · split <;> simp

theorem path_state_ne_nil (path : List (List Char)) {raws : List (List Char)} (h : raws ≠ []) :
    path_state caret scheme path raws ≠ [] := by
  rw [← List.dropLast_append_getLast h, path_state_append]
  exact add_segment_last_ne_nil _ _

/-- A normal segment is added as it is. -/
theorem add_segment_of_normal {path : List (List Char)} {segment : List Char} (h : Normal caret scheme segment)
    (hfirst : path = [] → FirstNormal scheme segment) (last : Bool) :
    add_segment caret scheme path segment last = path ++ [segment] := by
  have hpushed : pushed scheme path segment = segment := by
    by_cases hdrive : scheme = "file" ∧ path = [] ∧ is_drive_letter segment = true
    · obtain ⟨hfile, hnil, hletter⟩ := hdrive
      have hnormalized := hfirst hnil hfile hletter
      match segment, hnormalized with
      | [a, b], hnormalized =>
        obtain ⟨_, rfl⟩ : a.isAlpha = true ∧ b = ':' := by simpa [is_normalized_drive_letter] using hnormalized
        simp [pushed, hfile, hnil, hletter]
    · exact pushed_of_not_drive hdrive
  rw [add_segment, encode_of_kept h.kept]
  simp only [h.double, h.single, hpushed, Bool.false_eq_true, if_false]

/-- A normal path is left as it is. -/
theorem path_state_of_normal {path segments : List (List Char)}
    (h : NormalPath caret scheme (path ++ segments)) : path_state caret scheme path segments = path ++ segments := by
  induction segments generalizing path with
  | nil => exact (List.append_nil path).symm
  | cons segment segments ih =>
    have hadd : ∀ last, add_segment caret scheme path segment last = path ++ [segment] := by
      refine add_segment_of_normal (h.normal segment (by simp)) ?_
      rintro rfl
      exact h.first segment rfl
    have hsplit : path ++ segment :: segments = (path ++ [segment]) ++ segments := by simp
    cases segments with
    | nil => exact hadd true
    | cons next segments =>
      rw [path_state, hadd false, hsplit]
      exact ih (hsplit ▸ h)

/-- A path is told by its text. -/
theorem path_text_inj {path path' : List (List Char)} (hne : path ≠ []) (hne' : path' ≠ [])
    (h : ∀ segment ∈ path, '/' ∉ segment) (h' : ∀ segment ∈ path', '/' ∉ segment)
    (htext : path_text path = path_text path') : path = path' := by
  have hpieces : ∀ {path : List (List Char)}, path ≠ [] → (∀ segment ∈ path, '/' ∉ segment) →
      ((path_text path).drop 1).splitOnP (· = '/') = path := by
    intro path hne hslash
    obtain ⟨first, others, rfl⟩ := List.exists_cons_of_ne_nil hne
    rw [path_text, List.flatMap_cons, List.cons_append, List.drop_succ_cons, List.drop_zero]
    refine splitOnP_join (by simp) fun segment hmem c hc => ?_
    exact decide_eq_false fun heq => hslash segment hmem (heq ▸ hc)
  rw [← hpieces hne h, htext, hpieces hne' h']

theorem Normal.slash_notMem {segment : List Char} (h : Normal caret scheme segment) : '/' ∉ segment := by
  intro hmem
  have hwhole := h.whole '/' hmem
  simp [is_separator] at hwhole

theorem path_of_join {path : List (List Char)} (hne : path ≠ []) (h : NormalPath caret scheme path) :
    path_of caret scheme ((path_text path).drop 1) = path_text path := by
  obtain ⟨first, others, rfl⟩ := List.exists_cons_of_ne_nil hne
  have hpieces : ((path_text (first :: others)).drop 1).splitOnP (is_separator scheme) = first :: others := by
    rw [path_text, List.flatMap_cons, List.cons_append, List.drop_succ_cons, List.drop_zero]
    exact splitOnP_join (by simp [is_separator]) fun segment hmem => (h.normal segment hmem).whole
  rw [path_of, hpieces, path_state_of_normal (by rwa [List.nil_append]), List.nil_append]

/-- The texts that the path start state leaves as they are. -/
theorem path_start_state_of_normal {path : List (List Char)} (hne : path ≠ []) (h : NormalPath caret scheme path) :
    path_start_state caret scheme (path_text path) = path_text path := by
  have hjoin := path_of_join hne h
  obtain ⟨first, others, rfl⟩ := List.exists_cons_of_ne_nil hne
  rw [path_text, List.flatMap_cons, List.cons_append] at hjoin ⊢
  rw [List.drop_succ_cons, List.drop_zero] at hjoin
  rw [path_start_state, if_pos (by simp [is_separator])]
  exact hjoin

/-- A text that comes out of the path start state is that of a normal path. -/
theorem normal_of_path_start_state {text : List Char} {path : List (List Char)} (hne : path ≠ [])
    (hslash : ∀ segment ∈ path, '/' ∉ segment) (h : path_start_state caret scheme text = path_text path) :
    NormalPath caret scheme path := by
  have hpath : ∀ text, path_of caret scheme text = path_text path → NormalPath caret scheme path := by
    intro text htext
    have hnormal : NormalPath caret scheme (path_state caret scheme [] (text.splitOnP (is_separator scheme))) :=
      normalPath_nil.path_state fun _ => of_mem_splitOnP
    have heq := path_text_inj (path_state_ne_nil [] (List.splitOnP_ne_nil _ text)) hne
      (fun segment hmem => (hnormal.normal segment hmem).slash_notMem) hslash htext
    exact heq ▸ hnormal
  unfold path_start_state at h
  split at h
  · split at h
    · exact hpath _ h
    · obtain ⟨first, others, rfl⟩ := List.exists_cons_of_ne_nil hne
      simp [path_text] at h
  · split at h
    · exact hpath _ h
    · exact hpath _ h

end

end whatwg
