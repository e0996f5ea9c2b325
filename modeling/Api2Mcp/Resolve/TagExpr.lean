import Api2Mcp.Control.Except
import Api2Mcp.Http.Redact
import Api2Mcp.Model.Slug
import Api2Mcp.Text.Percent
import Api2Mcp.Text.Utf8

namespace api2mcp.resolve.tag_expr

open model

/-- A `tag_expr` string that doesn't parse. -/
structure TagExprError where
  input : String
  message : String
  deriving DecidableEq

/-- `impl Display for TagExprError`. -/
def TagExprError.to_string (e : TagExprError) : String :=
  "endpoints.tag_expr " ++ fmt.debug e.input ++ ": " ++ e.message

/-- Every operand of `not`, `and` and `or` is put between parentheses. -/
def to_string : TagExpr → String
  | .Has tag => "has(" ++ tag.name.as_str ++ ")"
  | .Not inner => "not (" ++ to_string inner ++ ")"
  | .And a b => "(" ++ to_string a ++ ") and (" ++ to_string b ++ ")"
  | .Or a b => "(" ++ to_string a ++ ") or (" ++ to_string b ++ ")"

inductive Token where
  | Has
  | And
  | Or
  | Not
  | LParen
  | RParen
  | Ident (name : String)
  deriving DecidableEq

/-- `{:?}` on a token. -/
def Token.debug : Token → String
  | .Has => "Has"
  | .And => "And"
  | .Or => "Or"
  | .Not => "Not"
  | .LParen => "LParen"
  | .RParen => "RParen"
  | .Ident name => "Ident(" ++ fmt.debug name ++ ")"

def malformed (input msg : String) : TagExprError := ⟨input, msg⟩

def malformed_at (input : String) (pos : Nat) (msg : String) : TagExprError :=
  ⟨input, "at token " ++ Nat.repr pos ++ ": " ++ msg⟩

/-- The token of a whole word. -/
def Token.of_word (word : String) : Token :=
  if word = "has" then .Has
  else if word = "and" then .And
  else if word = "or" then .Or
  else if word = "not" then .Not
  else .Ident word

def word_char (c : Char) : Bool := c.isAlphanum || c == '_' || c == '-'

/-- `{:?}` on a character that was one byte. -/
def debug_byte (c : Char) : String :=
  let escaped :=
    if (0x80 ≤ c.toNat && c.toNat < 0xa0) || c.toNat = 0xad then
      "\\u\x7b" ++ String.ofList (Nat.toDigits 16 c.toNat) ++ "\x7d"
    else fmt.escape_debug_char c
  "'" ++ escaped ++ "'"

/-- The tokens of the bytes from one index on; a byte is read as the character
of its number. -/
def tokenize_from (input : String) : List Char → Except TagExprError (List Token)
  | [] => .ok []
  | c :: bytes =>
    if http.is_whitespace c then tokenize_from input bytes
    else if c = '(' then (Token.LParen :: ·) <$> tokenize_from input bytes
    else if c = ')' then (Token.RParen :: ·) <$> tokenize_from input bytes
    else if word_char c then
      let word := c :: bytes.takeWhile word_char
      (Token.of_word (String.ofList word) :: ·) <$> tokenize_from input (bytes.dropWhile word_char)
    else .error (malformed input ("unexpected character " ++ debug_byte c))
termination_by bytes => bytes.length
decreasing_by
  all_goals simp only [List.length_cons]
  all_goals have hle := (List.dropWhile_sublist word_char (l := bytes)).length_le
  all_goals omega

theorem tokenize_from_nil (input : String) : tokenize_from input [] = .ok [] := by
  rw [tokenize_from.eq_def]

theorem tokenize_from_cons (input : String) (c : Char) (bytes : List Char) :
    tokenize_from input (c :: bytes) =
      if http.is_whitespace c then tokenize_from input bytes
      else if c = '(' then (Token.LParen :: ·) <$> tokenize_from input bytes
      else if c = ')' then (Token.RParen :: ·) <$> tokenize_from input bytes
      else if word_char c then
        (Token.of_word (String.ofList (c :: bytes.takeWhile word_char)) :: ·) <$>
          tokenize_from input (bytes.dropWhile word_char)
      else .error (malformed input ("unexpected character " ++ debug_byte c)) := by
  rw [tokenize_from.eq_def]

def tokenize (input : String) : Except TagExprError (List Token) :=
  tokenize_from input ((net.utf8 input).map fun b => Char.ofNat b.toNat)

/-- What a parser read from `pos` on, and the position behind it. -/
structure Read (α : Type) (tokens : List Token) (pos : Nat) where
  value : α
  next : Nat
  later : pos < next
  within : next ≤ tokens.length

theorem lt_length {tokens : List Token} {pos : Nat} {token : Token} (h : tokens[pos]? = some token) :
    pos < tokens.length :=
  (List.getElem?_eq_some_iff.mp h).1

def expect (input : String) (tokens : List Token) (pos : Nat) (want : Token) :
    Except TagExprError (Read Unit tokens pos) :=
  if h : tokens[pos]? = some want then .ok ⟨(), pos + 1, Nat.lt_succ_self pos, lt_length h⟩
  else .error (malformed_at input pos ("expected " ++ want.debug))

/-- The name between the parentheses of `has(...)`. -/
def ident (input : String) (tokens : List Token) (pos : Nat) :
    Except TagExprError (Read String tokens pos) :=
  match h : tokens[pos]? with
  | some (.Ident name) => .ok ⟨name, pos + 1, Nat.lt_succ_self pos, lt_length h⟩
  | _ => .error (malformed_at input pos "expected a tag name inside has(...)")

mutual

def parse_or (input : String) (tokens : List Token) (pos : Nat) :
    Except TagExprError (Read TagExpr tokens pos) := do
  let lhs ← parse_and input tokens pos
  or_loop input tokens lhs
termination_by (tokens.length - pos, 3)
decreasing_by
  · exact Prod.Lex.right _ (by omega)
  · have hlater := lhs.later
    have hwithin := lhs.within
    exact Prod.Lex.left _ _ (by omega)

/-- The loop of `parse_or`, with what it has read so far. -/
def or_loop (input : String) (tokens : List Token) {pos : Nat} (lhs : Read TagExpr tokens pos) :
    Except TagExprError (Read TagExpr tokens pos) :=
  if h : tokens[lhs.next]? = some .Or then do
    let rhs ← parse_and input tokens (lhs.next + 1)
    or_loop input tokens
      ⟨.Or lhs.value rhs.value, rhs.next, by have := lhs.later; have := rhs.later; omega, rhs.within⟩
  else .ok lhs
termination_by (tokens.length - lhs.next, 3)
decreasing_by
  · have hlt := lt_length h
    exact Prod.Lex.left _ _ (by omega)
  · have hlt := lt_length h
    have hlater := rhs.later
    exact Prod.Lex.left _ _ (by omega)

def parse_and (input : String) (tokens : List Token) (pos : Nat) :
    Except TagExprError (Read TagExpr tokens pos) := do
  let lhs ← parse_unary input tokens pos
  and_loop input tokens lhs
termination_by (tokens.length - pos, 2)
decreasing_by
  · exact Prod.Lex.right _ (by omega)
  · have hlater := lhs.later
    have hwithin := lhs.within
    exact Prod.Lex.left _ _ (by omega)

/-- The loop of `parse_and`, with what it has read so far. -/
def and_loop (input : String) (tokens : List Token) {pos : Nat} (lhs : Read TagExpr tokens pos) :
    Except TagExprError (Read TagExpr tokens pos) :=
  if h : tokens[lhs.next]? = some .And then do
    let rhs ← parse_unary input tokens (lhs.next + 1)
    and_loop input tokens
      ⟨.And lhs.value rhs.value, rhs.next, by have := lhs.later; have := rhs.later; omega, rhs.within⟩
  else .ok lhs
termination_by (tokens.length - lhs.next, 2)
decreasing_by
  · have hlt := lt_length h
    exact Prod.Lex.left _ _ (by omega)
  · have hlt := lt_length h
    have hlater := rhs.later
    exact Prod.Lex.left _ _ (by omega)

def parse_unary (input : String) (tokens : List Token) (pos : Nat) :
    Except TagExprError (Read TagExpr tokens pos) :=
  if h : tokens[pos]? = some .Not then do
    let inner ← parse_unary input tokens (pos + 1)
    .ok ⟨.Not inner.value, inner.next, Nat.lt_of_succ_lt inner.later, inner.within⟩
  else parse_atom input tokens pos
termination_by (tokens.length - pos, 1)
decreasing_by
  · have hlt := lt_length h
    exact Prod.Lex.left _ _ (by omega)
  · exact Prod.Lex.right _ (by omega)

def parse_atom (input : String) (tokens : List Token) (pos : Nat) :
    Except TagExprError (Read TagExpr tokens pos) :=
  match h : tokens[pos]? with
  | some .Has => do
    let opened ← expect input tokens (pos + 1) .LParen
    let name ← ident input tokens opened.next
    let closed ← expect input tokens name.next .RParen
    let slug ← (Slug.from_str name.value).mapError fun e =>
      malformed input ("tag name " ++ fmt.debug name.value ++ ": " ++ e.to_string)
    .ok ⟨.Has ⟨slug⟩, closed.next,
      by have := opened.later; have := name.later; have := closed.later; omega, closed.within⟩
  | some .LParen => do
    let inner ← parse_or input tokens (pos + 1)
    let closed ← expect input tokens inner.next .RParen
    .ok ⟨inner.value, closed.next,
      by have := inner.later; have := closed.later; omega, closed.within⟩
  | _ => .error (malformed_at input pos "expected 'has(...)' or a parenthesized expression")
termination_by (tokens.length - pos, 0)
decreasing_by
  have hlt := lt_length h
  exact Prod.Lex.left _ _ (by omega)

end

def parse (input : String) : Except TagExprError TagExpr := do
  let tokens ← tokenize input
  let expr ← parse_or input tokens 0
  if expr.next ≠ tokens.length then
    .error (malformed input "trailing tokens after a complete expression")
  else .ok expr.value

/-- The tags an expression names. -/
def tags : TagExpr → List Tag
  | .Has tag => [tag]
  | .Not inner => tags inner
  | .And a b => tags a ++ tags b
  | .Or a b => tags a ++ tags b

/-- The words of the grammar. -/
def keywords : List String := ["has", "and", "or", "not"]

/-- The tokens an expression is printed as. -/
def printed : TagExpr → List Token
  | .Has tag => [.Has, .LParen, .of_word tag.name.as_str, .RParen]
  | .Not inner => .Not :: .LParen :: (printed inner ++ [.RParen])
  | .And a b => .LParen :: (printed a ++ .RParen :: .And :: .LParen :: (printed b ++ [.RParen]))
  | .Or a b => .LParen :: (printed a ++ .RParen :: .Or :: .LParen :: (printed b ++ [.RParen]))

theorem of_word_of_keyword {word : String} (h : word ∈ keywords) (name : String) :
    Token.of_word word ≠ .Ident name := by
  simp only [keywords, List.mem_cons, List.not_mem_nil, or_false] at h
  obtain rfl | rfl | rfl | rfl := h <;> simp [Token.of_word]

theorem of_word_of_notMem {word : String} (h : word ∉ keywords) :
    Token.of_word word = .Ident word := by
  simp only [keywords, List.mem_cons, List.not_mem_nil, or_false, not_or] at h
  obtain ⟨hhas, hand, hor, hnot⟩ := h
  simp [Token.of_word, hhas, hand, hor, hnot]

theorem word_char_iff {c : Char} : word_char c = true ↔
    (48 ≤ c.toNat ∧ c.toNat ≤ 57) ∨ (65 ≤ c.toNat ∧ c.toNat ≤ 90) ∨ (97 ≤ c.toNat ∧ c.toNat ≤ 122) ∨
      c = '_' ∨ c = '-' := by
  delta word_char Char.isAlphanum Char.isAlpha Char.isUpper Char.isLower Char.isDigit
  simp only [Bool.or_eq_true, Bool.and_eq_true, decide_eq_true_eq, beq_iff_eq, ge_iff_le,
    UInt32.le_iff_toNat_le, Char.toNat]
  constructor
  · rintro ((((h | h) | h) | h) | h)
    · exact .inr (.inl h)
    · exact .inr (.inr (.inl h))
    · exact .inl h
    · exact .inr (.inr (.inr (.inl h)))
    · exact .inr (.inr (.inr (.inr h)))
  · rintro (h | h | h | h | h)
    · exact .inl (.inl (.inr h))
    · exact .inl (.inl (.inl (.inl h)))
    · exact .inl (.inl (.inl (.inr h)))
    · exact .inl (.inr h)
    · exact .inr h

theorem word_char_of_slugChar {c : Char} (h : slugChar c = true) : word_char c = true := by
  rw [word_char_iff]
  simp only [slugChar, Bool.or_eq_true, Bool.and_eq_true, decide_eq_true_eq, beq_iff_eq,
    Char.le_def, UInt32.le_iff_toNat_le] at h
  obtain ((h | h) | h) | h := h
  · exact .inr (.inr (.inl h))
  · exact .inl h
  · exact .inr (.inr (.inr (.inl h)))
  · exact .inr (.inr (.inr (.inr h)))

theorem not_is_whitespace_of_word_char {c : Char} (h : word_char c = true) :
    http.is_whitespace c = false := by
  obtain h | h | h | rfl | rfl := word_char_iff.mp h
  · simp [http.is_whitespace]
    omega
  · simp [http.is_whitespace]
    omega
  · simp [http.is_whitespace]
    omega
  · decide
  · decide

/-- A word that ends at a character of another kind is one token. -/
theorem tokenize_word (input : String) {word : List Char} (rest : List Char) (hne : word ≠ [])
    (hword : ∀ c ∈ word, word_char c = true) (hrest : ∀ c ∈ rest.head?, word_char c = false) :
    tokenize_from input (word ++ rest) =
      (Token.of_word (String.ofList word) :: ·) <$> tokenize_from input rest := by
  obtain ⟨c, word, rfl⟩ := List.exists_cons_of_ne_nil hne
  have hc := hword c (List.mem_cons_self ..)
  have htail : ∀ d ∈ word, word_char d = true := fun d hd => hword d (List.mem_cons_of_mem c hd)
  have hspace := not_is_whitespace_of_word_char hc
  have htake : (word ++ rest).takeWhile word_char = word := by
    rw [List.takeWhile_append_of_pos htail]
    cases rest with
    | nil => simp
    | cons d rest => simp [hrest d rfl]
  have hdrop : (word ++ rest).dropWhile word_char = rest := by
    rw [List.dropWhile_append_of_pos htail]
    cases rest with
    | nil => rfl
    | cons d rest => simp [hrest d rfl]
  have hopen : c ≠ '(' := by
    rintro rfl
    exact absurd hc (by decide)
  have hclose : c ≠ ')' := by
    rintro rfl
    exact absurd hc (by decide)
  rw [List.cons_append, tokenize_from_cons, if_neg (by rw [hspace]; decide), if_neg hopen, if_neg hclose,
    if_pos hc, htake, hdrop]

theorem tokenize_space (input : String) (rest : List Char) :
    tokenize_from input (' ' :: rest) = tokenize_from input rest := by
  rw [tokenize_from_cons, if_pos (by decide)]

theorem tokenize_open (input : String) (rest : List Char) :
    tokenize_from input ('(' :: rest) = (Token.LParen :: ·) <$> tokenize_from input rest := by
  rw [tokenize_from_cons, if_neg (by decide), if_pos rfl]

theorem tokenize_close (input : String) (rest : List Char) :
    tokenize_from input (')' :: rest) = (Token.RParen :: ·) <$> tokenize_from input rest := by
  rw [tokenize_from_cons, if_neg (by decide), if_neg (by decide), if_pos rfl]

/-- The text of `has(tag)`, a `not` and a pair, character by character. -/
theorem to_string_has (tag : Tag) :
    (to_string (.Has tag)).toList = "has".toList ++ '(' :: (tag.name.as_str.toList ++ [')']) := by
  simp [to_string]

theorem to_string_not (inner : TagExpr) :
    (to_string (.Not inner)).toList =
      "not".toList ++ ' ' :: '(' :: ((to_string inner).toList ++ [')']) := by
  simp [to_string]

theorem to_string_and (a b : TagExpr) :
    (to_string (.And a b)).toList = '(' :: ((to_string a).toList ++ ')' :: ' ' ::
      ("and".toList ++ ' ' :: '(' :: ((to_string b).toList ++ [')']))) := by
  simp [to_string]

theorem to_string_or (a b : TagExpr) :
    (to_string (.Or a b)).toList = '(' :: ((to_string a).toList ++ ')' :: ' ' ::
      ("or".toList ++ ' ' :: '(' :: ((to_string b).toList ++ [')']))) := by
  simp [to_string]

/-- A word of the grammar, with a space or a parenthesis behind it. -/
theorem tokenize_keyword (input : String) {word : String} (h : word ∈ keywords) {c : Char}
    (hc : word_char c = false) (rest : List Char) :
    tokenize_from input (word.toList ++ c :: rest) =
      (Token.of_word word :: ·) <$> tokenize_from input (c :: rest) := by
  have hword : word.toList ≠ [] ∧ ∀ d ∈ word.toList, word_char d = true := by
    simp only [keywords, List.mem_cons, List.not_mem_nil, or_false] at h
    obtain rfl | rfl | rfl | rfl := h <;> decide
  have htokens := tokenize_word input (c :: rest) hword.1 hword.2 (by simpa using hc)
  rwa [String.ofList_toList] at htokens

/-- An expression's text gives its tokens, whatever stands behind it. -/
theorem tokenize_to_string (input : String) (e : TagExpr) (rest : List Char) :
    tokenize_from input ((to_string e).toList ++ rest) =
      (printed e ++ ·) <$> tokenize_from input rest := by
  have hopen : word_char '(' = false := by decide
  have hspace : word_char ' ' = false := by decide
  induction e generalizing rest with
  | Has tag =>
    have hname : tag.name.as_str.toList ≠ [] := by
      simpa using tag.name.nonempty
    have hchars : ∀ c ∈ tag.name.as_str.toList, word_char c = true := fun c hc =>
      word_char_of_slugChar (List.all_eq_true.mp tag.name.chars c hc)
    have htag := tokenize_word input (')' :: rest) hname hchars (by
      rintro c ⟨⟩
      decide)
    rw [to_string_has, List.append_assoc, List.cons_append, List.append_assoc, List.singleton_append,
      tokenize_keyword input (by decide) hopen, tokenize_open, htag, tokenize_close,
      String.ofList_toList]
    simp [printed, Token.of_word]
  | Not inner ih =>
    rw [to_string_not, List.append_assoc, List.cons_append, List.cons_append, List.append_assoc,
      List.singleton_append, tokenize_keyword input (by decide) hspace, tokenize_space, tokenize_open,
      ih, tokenize_close]
    simp [printed, Token.of_word]
  | And a b iha ihb =>
    rw [to_string_and]
    simp only [List.cons_append, List.append_assoc, List.nil_append]
    rw [tokenize_open, iha, tokenize_close, tokenize_space,
      tokenize_keyword input (by decide) hspace, tokenize_space, tokenize_open, ihb, tokenize_close]
    simp [printed, Token.of_word]
  | Or a b iha ihb =>
    rw [to_string_or]
    simp only [List.cons_append, List.append_assoc, List.nil_append]
    rw [tokenize_open, iha, tokenize_close, tokenize_space,
      tokenize_keyword input (by decide) hspace, tokenize_space, tokenize_open, ihb, tokenize_close]
    simp [printed, Token.of_word]

theorem byte_of_ascii {c : Char} (h : c.toNat < 128) :
    (String.utf8EncodeChar c).map (fun b => Char.ofNat b.toNat) = [c] := by
  have hb : (UInt8.ofNat c.toNat).toNat = c.toNat := UInt8.toNat_ofNat_of_lt' (Nat.lt_trans h (by decide))
  have hlt : UInt8.ofNat c.toNat < 128 := by
    rw [UInt8.lt_iff_toNat_lt, hb]
    exact h
  have hencode := percent.utf8EncodeChar_ofNat hlt
  rw [hb, Char.ofNat_toNat] at hencode
  rw [hencode, List.map_singleton, hb, Char.ofNat_toNat]

theorem to_string_ascii (e : TagExpr) : ∀ c ∈ (to_string e).toList, c.toNat < 128 := by
  have hkeywords : ∀ word ∈ keywords, ∀ c ∈ word.toList, c.toNat < 128 := by decide
  have hhas := hkeywords "has" (by decide)
  have hnot := hkeywords "not" (by decide)
  have hand := hkeywords "and" (by decide)
  have hor := hkeywords "or" (by decide)
  have hspace : ' '.toNat < 128 := by decide
  have hopen : '('.toNat < 128 := by decide
  have hclose : ')'.toNat < 128 := by decide
  induction e with
  | Has tag =>
    have htag : ∀ c ∈ tag.name.as_str.toList, c.toNat < 128 := by
      intro c hc
      have hword := word_char_of_slugChar (List.all_eq_true.mp tag.name.chars c hc)
      obtain h | h | h | rfl | rfl := word_char_iff.mp hword
      · omega
      · omega
      · omega
      · decide
      · decide
    rw [to_string_has]
    simp only [List.forall_mem_append, List.forall_mem_cons]
    exact ⟨hhas, hopen, htag, hclose, nofun⟩
  | Not inner ih =>
    rw [to_string_not]
    simp only [List.forall_mem_append, List.forall_mem_cons]
    exact ⟨hnot, hspace, hopen, ih, hclose, nofun⟩
  | And a b iha ihb =>
    rw [to_string_and]
    simp only [List.forall_mem_append, List.forall_mem_cons]
    exact ⟨hopen, iha, hclose, hspace, hand, hspace, hopen, ihb, hclose, nofun⟩
  | Or a b iha ihb =>
    rw [to_string_or]
    simp only [List.forall_mem_append, List.forall_mem_cons]
    exact ⟨hopen, iha, hclose, hspace, hor, hspace, hopen, ihb, hclose, nofun⟩

theorem tokenize_printed (e : TagExpr) : tokenize (to_string e) = .ok (printed e) := by
  have hbytes : (net.utf8 (to_string e)).map (fun b => Char.ofNat b.toNat) = (to_string e).toList := by
    rw [net.utf8_eq, List.map_flatMap]
    have hascii := to_string_ascii e
    generalize (to_string e).toList = cs at hascii
    induction cs with
    | nil => rfl
    | cons c cs ih =>
      rw [List.flatMap_cons, byte_of_ascii (hascii c (List.mem_cons_self ..)),
        ih fun d hd => hascii d (List.mem_cons_of_mem c hd), List.singleton_append]
  have htokens := tokenize_to_string (to_string e) e []
  rw [List.append_nil, tokenize_from_nil] at htokens
  rw [tokenize, hbytes, htokens]
  simp [Functor.map, Except.map]

section

variable {input : String} {tokens : List Token} {pos n : Nat} {e : TagExpr}

/-- The parser read `e` and stopped at `n`. -/
def Reads (result : Except TagExprError (Read TagExpr tokens pos)) (e : TagExpr) (n : Nat) : Prop :=
  ∃ r, result = .ok r ∧ r.value = e ∧ r.next = n

def Fails {α : Type} (result : Except TagExprError α) : Prop := ∃ err, result = .error err

theorem getElem_of_drop {token : Token} {rest : List Token} (h : tokens.drop pos = token :: rest) :
    tokens[pos]? = some token := by
  rw [← Nat.add_zero pos, ← List.getElem?_drop, h, List.getElem?_cons_zero]

theorem drop_of_drop (front : List Token) {rest : List Token} (h : tokens.drop pos = front ++ rest) :
    tokens.drop (pos + front.length) = rest := by
  rw [← List.drop_drop, h, List.drop_left]

theorem expect_ok {want : Token} (h : tokens[pos]? = some want) :
    expect input tokens pos want = .ok ⟨(), pos + 1, Nat.lt_succ_self pos, lt_length h⟩ :=
  dif_pos h

theorem parse_atom_paren (hopen : tokens[pos]? = some .LParen)
    (hinner : Reads (parse_or input tokens (pos + 1)) e n) (hclose : tokens[n]? = some .RParen) :
    Reads (parse_atom input tokens pos) e (n + 1) := by
  obtain ⟨r, hr, rfl, rfl⟩ := hinner
  rw [parse_atom]
  split
  · rename_i htoken
    rw [hopen] at htoken
    cases htoken
  · rw [hr]
    have hlater := r.later
    refine ⟨⟨r.value, r.next + 1, by omega, lt_length hclose⟩, ?_, rfl, rfl⟩
    simp [expect_ok hclose]
  · rename_i hparen
    exact absurd hopen hparen

theorem parse_atom_paren_fails (hopen : tokens[pos]? = some .LParen)
    (hinner : Fails (parse_or input tokens (pos + 1))) : Fails (parse_atom input tokens pos) := by
  obtain ⟨err, herr⟩ := hinner
  rw [parse_atom]
  split
  · rename_i htoken
    rw [hopen] at htoken
    cases htoken
  · exact ⟨err, by rw [herr]; rfl⟩
  · rename_i hparen
    exact absurd hopen hparen

/-- `has(tag)` is read as the tag's own name, unless that is a keyword. -/
theorem parse_atom_has (tag : Tag) {rest : List Token}
    (h : tokens.drop pos = printed (.Has tag) ++ rest) :
    (tag.name.as_str ∉ keywords → Reads (parse_atom input tokens pos) (.Has tag) (pos + 4)) ∧
      (tag.name.as_str ∈ keywords → Fails (parse_atom input tokens pos)) := by
  have h0 : tokens[pos]? = some .Has := getElem_of_drop h
  have h1 : tokens[pos + 1]? = some .LParen :=
    getElem_of_drop (drop_of_drop [.Has] h)
  have h2 : tokens[pos + 2]? = some (.of_word tag.name.as_str) :=
    getElem_of_drop (drop_of_drop [.Has, .LParen] h)
  have h3 : tokens[pos + 3]? = some .RParen :=
    getElem_of_drop (drop_of_drop [.Has, .LParen, .of_word tag.name.as_str] h)
  rw [parse_atom]
  split
  · rw [expect_ok h1]
    constructor
    · intro hplain
      rw [of_word_of_notMem hplain] at h2
      have hident : ident input tokens (pos + 2) =
          .ok ⟨tag.name.as_str, pos + 3, Nat.lt_succ_self _, lt_length h2⟩ := by
        rw [ident]
        split
        · rename_i name hname
          rw [h2] at hname
          cases hname
          rfl
        · rename_i hname
          exact absurd h2 (hname _)
      refine ⟨⟨.Has tag, pos + 4, by omega, lt_length h3⟩, ?_, rfl, rfl⟩
      simp [Bind.bind, Except.bind, hident, expect_ok h3, Slug.from_str_as_str, Except.mapError]
    · intro hkeyword
      refine ⟨malformed_at input (pos + 2) "expected a tag name inside has(...)", ?_⟩
      have hident : ident input tokens (pos + 2) =
          .error (malformed_at input (pos + 2) "expected a tag name inside has(...)") := by
        rw [ident]
        split
        · rename_i name hname
          rw [h2, Option.some.injEq] at hname
          exact absurd hname (of_word_of_keyword hkeyword name)
        · rfl
      simp [Bind.bind, Except.bind, hident]
  · rename_i htoken
    rw [h0] at htoken
    cases htoken
  · rename_i hhas _
    exact absurd h0 hhas

theorem parse_unary_atom (h : tokens[pos]? ≠ some .Not) :
    parse_unary input tokens pos = parse_atom input tokens pos := by
  rw [parse_unary, dif_neg h]

theorem parse_unary_not (h : tokens[pos]? = some .Not)
    (hinner : Reads (parse_unary input tokens (pos + 1)) e n) :
    Reads (parse_unary input tokens pos) (.Not e) n := by
  obtain ⟨r, hr, rfl, rfl⟩ := hinner
  refine ⟨⟨.Not r.value, r.next, Nat.lt_of_succ_lt r.later, r.within⟩, ?_, rfl, rfl⟩
  rw [parse_unary, dif_pos h, hr]
  rfl

theorem parse_unary_not_fails (h : tokens[pos]? = some .Not)
    (hinner : Fails (parse_unary input tokens (pos + 1))) : Fails (parse_unary input tokens pos) := by
  obtain ⟨err, herr⟩ := hinner
  refine ⟨err, ?_⟩
  rw [parse_unary, dif_pos h, herr]
  rfl

theorem parse_and_single (hlhs : Reads (parse_unary input tokens pos) e n)
    (hnext : tokens[n]? ≠ some .And) : Reads (parse_and input tokens pos) e n := by
  obtain ⟨r, hr, rfl, rfl⟩ := hlhs
  refine ⟨r, ?_, rfl, rfl⟩
  rw [parse_and, hr]
  simp only [Bind.bind, Except.bind]
  rw [and_loop, dif_neg hnext]

theorem parse_and_pair {a b : TagExpr} {m : Nat} (hlhs : Reads (parse_unary input tokens pos) a m)
    (hand : tokens[m]? = some .And) (hrhs : Reads (parse_unary input tokens (m + 1)) b n)
    (hnext : tokens[n]? ≠ some .And) : Reads (parse_and input tokens pos) (.And a b) n := by
  obtain ⟨r, hr, rfl, rfl⟩ := hlhs
  obtain ⟨r', hr', rfl, rfl⟩ := hrhs
  have hlater := r.later
  have hlater' := r'.later
  refine ⟨⟨.And r.value r'.value, r'.next, by omega, r'.within⟩, ?_, rfl, rfl⟩
  rw [parse_and, hr]
  simp only [Bind.bind, Except.bind]
  rw [and_loop, dif_pos hand, hr']
  simp only [Bind.bind, Except.bind]
  rw [and_loop, dif_neg hnext]

theorem parse_and_fails (hlhs : Fails (parse_unary input tokens pos)) :
    Fails (parse_and input tokens pos) := by
  obtain ⟨err, herr⟩ := hlhs
  refine ⟨err, ?_⟩
  rw [parse_and, herr]
  rfl

theorem parse_and_fails_right {a : TagExpr} {m : Nat}
    (hlhs : Reads (parse_unary input tokens pos) a m) (hand : tokens[m]? = some .And)
    (hrhs : Fails (parse_unary input tokens (m + 1))) : Fails (parse_and input tokens pos) := by
  obtain ⟨r, hr, rfl, rfl⟩ := hlhs
  obtain ⟨err, herr⟩ := hrhs
  refine ⟨err, ?_⟩
  rw [parse_and, hr]
  simp only [Bind.bind, Except.bind]
  rw [and_loop, dif_pos hand, herr]
  rfl

theorem parse_or_single (hlhs : Reads (parse_and input tokens pos) e n)
    (hnext : tokens[n]? ≠ some .Or) : Reads (parse_or input tokens pos) e n := by
  obtain ⟨r, hr, rfl, rfl⟩ := hlhs
  refine ⟨r, ?_, rfl, rfl⟩
  rw [parse_or, hr]
  simp only [Bind.bind, Except.bind]
  rw [or_loop, dif_neg hnext]

theorem parse_or_pair {a b : TagExpr} {m : Nat} (hlhs : Reads (parse_and input tokens pos) a m)
    (hor : tokens[m]? = some .Or) (hrhs : Reads (parse_and input tokens (m + 1)) b n)
    (hnext : tokens[n]? ≠ some .Or) : Reads (parse_or input tokens pos) (.Or a b) n := by
  obtain ⟨r, hr, rfl, rfl⟩ := hlhs
  obtain ⟨r', hr', rfl, rfl⟩ := hrhs
  have hlater := r.later
  have hlater' := r'.later
  refine ⟨⟨.Or r.value r'.value, r'.next, by omega, r'.within⟩, ?_, rfl, rfl⟩
  rw [parse_or, hr]
  simp only [Bind.bind, Except.bind]
  rw [or_loop, dif_pos hor, hr']
  simp only [Bind.bind, Except.bind]
  rw [or_loop, dif_neg hnext]

theorem parse_or_fails (hlhs : Fails (parse_and input tokens pos)) :
    Fails (parse_or input tokens pos) := by
  obtain ⟨err, herr⟩ := hlhs
  refine ⟨err, ?_⟩
  rw [parse_or, herr]
  rfl

theorem parse_or_fails_right {a : TagExpr} {m : Nat}
    (hlhs : Reads (parse_and input tokens pos) a m) (hor : tokens[m]? = some .Or)
    (hrhs : Fails (parse_and input tokens (m + 1))) : Fails (parse_or input tokens pos) := by
  obtain ⟨r, hr, rfl, rfl⟩ := hlhs
  obtain ⟨err, herr⟩ := hrhs
  refine ⟨err, ?_⟩
  rw [parse_or, hr]
  simp only [Bind.bind, Except.bind]
  rw [or_loop, dif_pos hor, herr]
  rfl

/-- No tag of the expression is named as a word of the grammar. -/
def Plain (e : TagExpr) : Prop := ∀ tag ∈ tags e, tag.name.as_str ∉ keywords

instance (e : TagExpr) : Decidable (Plain e) := inferInstanceAs (Decidable (∀ tag ∈ tags e, _))

theorem plain_pair {e a b : TagExpr} (h : tags e = tags a ++ tags b) :
    Plain e ↔ Plain a ∧ Plain b := by
  unfold Plain
  rw [h, List.forall_mem_append]

/-- The tokens of `e` are read back as `e` when they stand alone, and not at
all when a tag of `e` is named as a word of the grammar. -/
def Back (input : String) (tokens : List Token) (e : TagExpr) : Prop :=
  ∀ pos rest, tokens.drop pos = printed e ++ rest →
    (∀ token ∈ rest.head?, token ≠ .And ∧ token ≠ .Or) →
    (Plain e → Reads (parse_or input tokens pos) e (pos + (printed e).length)) ∧
      (¬Plain e → Fails (parse_or input tokens pos))

/-- An operand, between its parentheses. -/
theorem parse_unary_operand {rest : List Token} (hback : Back input tokens e)
    (h : tokens.drop pos = .LParen :: (printed e ++ .RParen :: rest)) :
    (Plain e → Reads (parse_unary input tokens pos) e (pos + (printed e).length + 2)) ∧
      (¬Plain e → Fails (parse_unary input tokens pos)) := by
  have hopen : tokens[pos]? = some .LParen := getElem_of_drop h
  have hinner : tokens.drop (pos + 1) = printed e ++ .RParen :: rest :=
    drop_of_drop [.LParen] h
  have hclose : tokens[pos + 1 + (printed e).length]? = some .RParen :=
    getElem_of_drop (drop_of_drop _ hinner)
  obtain ⟨hreads, hfails⟩ := hback (pos + 1) _ hinner (by simp)
  have hlen : pos + (printed e).length + 2 = pos + 1 + (printed e).length + 1 := by omega
  rw [parse_unary_atom (by simp [hopen]), hlen]
  exact ⟨fun hplain => parse_atom_paren hopen (hreads hplain) hclose,
    fun hplain => parse_atom_paren_fails hopen (hfails hplain)⟩

/-- The token behind an expression. -/
theorem getElem_behind {front rest : List Token} (h : tokens.drop pos = front ++ rest) :
    tokens[pos + front.length]? = rest.head? := by
  rw [← Nat.add_zero (pos + front.length), ← List.getElem?_drop, drop_of_drop _ h,
    List.head?_eq_getElem?]

/-- Where the two operands of a pair stand, and the word between them. -/
theorem operands {a b : TagExpr} {word : Token} {rest : List Token}
    (h : tokens.drop pos =
      .LParen :: (printed a ++ .RParen :: word :: .LParen :: (printed b ++ [.RParen])) ++ rest) :
    tokens.drop pos =
        .LParen :: (printed a ++ .RParen :: word :: .LParen :: (printed b ++ .RParen :: rest)) ∧
      tokens[pos + (printed a).length + 2]? = some word ∧
      tokens.drop (pos + (printed a).length + 2 + 1) = .LParen :: (printed b ++ .RParen :: rest) := by
  have hall : tokens.drop pos =
      .LParen :: (printed a ++ .RParen :: word :: .LParen :: (printed b ++ .RParen :: rest)) := by
    simpa using h
  have hfront : tokens.drop pos =
      (.LParen :: (printed a ++ [.RParen])) ++ word :: .LParen :: (printed b ++ .RParen :: rest) := by
    simpa using h
  have hlen : pos + (Token.LParen :: (printed a ++ [Token.RParen])).length =
      pos + (printed a).length + 2 := by
    simp only [List.length_cons, List.length_append, List.length_nil]
    omega
  have hword := drop_of_drop _ hfront
  rw [hlen] at hword
  exact ⟨hall, getElem_of_drop hword, drop_of_drop [word] hword⟩

theorem back_printed (e : TagExpr) : Back input tokens e := by
  induction e with
  | Has tag =>
    intro pos rest h hrest
    have h0 : tokens[pos]? = some .Has := getElem_of_drop h
    have hbehind := getElem_behind h
    have hand : tokens[pos + 4]? ≠ some .And := fun heq => (hrest _ (hbehind.symm.trans heq)).1 rfl
    have hor : tokens[pos + 4]? ≠ some .Or := fun heq => (hrest _ (hbehind.symm.trans heq)).2 rfl
    obtain ⟨hreads, hfails⟩ := @parse_atom_has input tokens pos tag rest h
    rw [← parse_unary_atom (by simp [h0])] at hreads hfails
    have hplain : Plain (.Has tag) ↔ tag.name.as_str ∉ keywords := by simp [Plain, tags]
    rw [hplain, not_not]
    exact ⟨fun hname => parse_or_single (parse_and_single (hreads hname) hand) hor,
      fun hname => parse_or_fails (parse_and_fails (hfails hname))⟩
  | Not inner ih =>
    intro pos rest h hrest
    have h0 : tokens[pos]? = some .Not := getElem_of_drop h
    have hbehind := getElem_behind h
    have hlen : pos + (printed (.Not inner)).length = pos + 1 + (printed inner).length + 2 := by
      simp only [printed, List.length_cons, List.length_append, List.length_nil]
      omega
    rw [hlen] at hbehind ⊢
    have hand := fun heq => (hrest _ (hbehind.symm.trans heq)).1 rfl
    have hor := fun heq => (hrest _ (hbehind.symm.trans heq)).2 rfl
    have hdrop : tokens.drop (pos + 1) = .LParen :: (printed inner ++ .RParen :: rest) := by
      have hdrop := drop_of_drop [.Not] h
      simpa using hdrop
    obtain ⟨hreads, hfails⟩ := parse_unary_operand ih hdrop
    exact ⟨fun hplain => parse_or_single (parse_and_single (parse_unary_not h0 (hreads hplain)) hand) hor,
      fun hplain => parse_or_fails (parse_and_fails (parse_unary_not_fails h0 (hfails hplain)))⟩
  | And a b iha ihb =>
    intro pos rest h hrest
    obtain ⟨hleft, hword, hright⟩ := operands h
    have hbehind := getElem_behind h
    have hlen : pos + (printed (.And a b)).length =
        pos + (printed a).length + 2 + 1 + (printed b).length + 2 := by
      simp only [printed, List.length_cons, List.length_append, List.length_nil]
      omega
    rw [hlen] at hbehind ⊢
    have hand := fun heq => (hrest _ (hbehind.symm.trans heq)).1 rfl
    have hor := fun heq => (hrest _ (hbehind.symm.trans heq)).2 rfl
    obtain ⟨hreads, hfails⟩ := parse_unary_operand iha hleft
    obtain ⟨hreads', hfails'⟩ := parse_unary_operand ihb hright
    rw [plain_pair (a := a) (b := b) rfl]
    constructor
    · rintro ⟨ha, hb⟩
      exact parse_or_single (parse_and_pair (hreads ha) hword (hreads' hb) hand) hor
    · intro hplain
      by_cases ha : Plain a
      · have hb : ¬Plain b := fun hb => hplain ⟨ha, hb⟩
        exact parse_or_fails (parse_and_fails_right (hreads ha) hword (hfails' hb))
      · exact parse_or_fails (parse_and_fails (hfails ha))
  | Or a b iha ihb =>
    intro pos rest h hrest
    obtain ⟨hleft, hword, hright⟩ := operands h
    have hbehind := getElem_behind h
    have hlen : pos + (printed (.Or a b)).length =
        pos + (printed a).length + 2 + 1 + (printed b).length + 2 := by
      simp only [printed, List.length_cons, List.length_append, List.length_nil]
      omega
    rw [hlen] at hbehind ⊢
    have hand := fun heq => (hrest _ (hbehind.symm.trans heq)).1 rfl
    have hor := fun heq => (hrest _ (hbehind.symm.trans heq)).2 rfl
    have hbetween : tokens[pos + (printed a).length + 2]? ≠ some .And := by simp [hword]
    obtain ⟨hreads, hfails⟩ := parse_unary_operand iha hleft
    obtain ⟨hreads', hfails'⟩ := parse_unary_operand ihb hright
    rw [plain_pair (a := a) (b := b) rfl]
    constructor
    · rintro ⟨ha, hb⟩
      exact parse_or_pair (parse_and_single (hreads ha) hbetween) hword
        (parse_and_single (hreads' hb) hand) hor
    · intro hplain
      by_cases ha : Plain a
      · have hb : ¬Plain b := fun hb => hplain ⟨ha, hb⟩
        exact parse_or_fails_right (parse_and_single (hreads ha) hbetween) hword
          (parse_and_fails (hfails' hb))
      · exact parse_or_fails (parse_and_fails (hfails ha))

end

theorem parse_to_string_fails {e : TagExpr} (h : ¬Plain e) : Fails (parse (to_string e)) := by
  have hback : Back (to_string e) (printed e) e := back_printed e
  obtain ⟨err, herr⟩ := (hback 0 [] (by simp) (by simp)).2 h
  refine ⟨err, ?_⟩
  rw [parse, tokenize_printed]
  simp only [Bind.bind, Except.bind]
  rw [herr]

theorem parse_to_string_plain {e : TagExpr} (h : Plain e) : parse (to_string e) = .ok e := by
  have hback : Back (to_string e) (printed e) e := back_printed e
  obtain ⟨r, hr, hvalue, hnext⟩ := (hback 0 [] (by simp) (by simp)).1 h
  rw [Nat.zero_add] at hnext
  rw [parse, tokenize_printed]
  simp only [Bind.bind, Except.bind]
  rw [hr]
  simp [hnext, hvalue]

/-- An expression is read back from its text exactly when no tag of it is
named `has`, `and`, `or` or `not`. -/
theorem parse_to_string_iff (e : TagExpr) :
    parse (to_string e) = .ok e ↔ ∀ tag ∈ tags e, tag.name.as_str ∉ ["has", "and", "or", "not"] := by
  change _ ↔ Plain e
  constructor
  · intro hparse
    by_contra hplain
    obtain ⟨err, herr⟩ := parse_to_string_fails hplain
    rw [herr] at hparse
    cases hparse
  · intro hplain
    have hback : Back (to_string e) (printed e) e := back_printed e
    obtain ⟨r, hr, hvalue, hnext⟩ := (hback 0 [] (by simp) (by simp)).1 hplain
    rw [Nat.zero_add] at hnext
    rw [parse, tokenize_printed]
    simp only [Bind.bind, Except.bind]
    rw [hr]
    simp [hnext, hvalue]

/-! What is read names no tag as a word of the grammar. -/

/-- No identifier among the tokens is a word of the grammar. -/
def IdentsPlain (tokens : List Token) : Prop := ∀ name, .Ident name ∈ tokens → name ∉ keywords

theorem IdentsPlain.cons {token : Token} {tokens : List Token} (htoken : ∀ name, token = .Ident name → name ∉ keywords)
    (h : IdentsPlain tokens) : IdentsPlain (token :: tokens) := by
  intro name hname
  obtain heq | hmem := List.mem_cons.mp hname
  · exact htoken name heq.symm
  · exact h name hmem

theorem ident_of_word {word name : String} (h : Token.of_word word = .Ident name) : name ∉ keywords := by
  intro hkeyword
  by_cases hmem : word ∈ keywords
  · exact of_word_of_keyword hmem name h
  · rw [of_word_of_notMem hmem] at h
    exact hmem (Token.Ident.inj h ▸ hkeyword)

theorem idents_of_tokenize {input : String} {bytes : List Char} {tokens : List Token}
    (h : tokenize_from input bytes = .ok tokens) : IdentsPlain tokens := by
  induction bytes using tokenize_from.induct generalizing tokens with
  | case1 =>
    rw [tokenize_from_nil] at h
    obtain rfl := Except.ok.inj h
    exact fun _ hname => absurd hname List.not_mem_nil
  | case2 c bytes hspace ih =>
    rw [tokenize_from_cons, if_pos hspace] at h
    exact ih h
  | case3 bytes hspace ih =>
    rw [tokenize_from_cons, if_neg hspace, if_pos rfl] at h
    obtain ⟨rest, hrest, rfl⟩ := except.map_eq_ok.mp h
    exact (ih hrest).cons (by rintro _ ⟨⟩)
  | case4 bytes hspace hopen ih =>
    rw [tokenize_from_cons, if_neg hspace, if_neg hopen, if_pos rfl] at h
    obtain ⟨rest, hrest, rfl⟩ := except.map_eq_ok.mp h
    exact (ih hrest).cons (by rintro _ ⟨⟩)
  | case5 c bytes hspace hopen hclose hword ih =>
    rw [tokenize_from_cons, if_neg hspace, if_neg hopen, if_neg hclose, if_pos hword] at h
    obtain ⟨rest, hrest, rfl⟩ := except.map_eq_ok.mp h
    exact (ih hrest).cons fun _ => ident_of_word
  | case6 c bytes hspace hopen hclose hword =>
    rw [tokenize_from_cons, if_neg hspace, if_neg hopen, if_neg hclose, if_neg hword] at h
    cases h

section

variable {input : String} {tokens : List Token}

/-- What the parser reads, if it reads anything, names no tag as a word of the grammar. -/
def ReadsPlain {pos : Nat} (result : Except TagExprError (Read TagExpr tokens pos)) : Prop :=
  ∀ r, result = .ok r → Plain r.value

theorem and_loop_plain {pos : Nat} (hunary : ∀ q, pos < q → q ≤ tokens.length → ReadsPlain (parse_unary input tokens q))
    (lhs : Read TagExpr tokens pos) (hlhs : Plain lhs.value) : ReadsPlain (and_loop input tokens lhs) := by
  generalize hn : tokens.length - lhs.next = n
  induction n using Nat.strong_induction_on generalizing lhs with
  | h n ih =>
    intro r hr
    have hlater := lhs.later
    rw [and_loop] at hr
    split at hr
    · rename_i hand
      have hlt := lt_length hand
      obtain ⟨rhs, hrhs, hrest⟩ := except.bind_eq_ok.mp hr
      have hlater' := rhs.later
      have hright := hunary (lhs.next + 1) (by omega) (by omega) rhs hrhs
      exact ih (tokens.length - rhs.next) (by omega) _ ((plain_pair rfl).mpr ⟨hlhs, hright⟩) rfl r hrest
    · obtain rfl := Except.ok.inj hr
      exact hlhs

theorem or_loop_plain {pos : Nat} (hand : ∀ q, pos < q → q ≤ tokens.length → ReadsPlain (parse_and input tokens q))
    (lhs : Read TagExpr tokens pos) (hlhs : Plain lhs.value) : ReadsPlain (or_loop input tokens lhs) := by
  generalize hn : tokens.length - lhs.next = n
  induction n using Nat.strong_induction_on generalizing lhs with
  | h n ih =>
    intro r hr
    have hlater := lhs.later
    rw [or_loop] at hr
    split at hr
    · rename_i hor
      have hlt := lt_length hor
      obtain ⟨rhs, hrhs, hrest⟩ := except.bind_eq_ok.mp hr
      have hlater' := rhs.later
      have hright := hand (lhs.next + 1) (by omega) (by omega) rhs hrhs
      exact ih (tokens.length - rhs.next) (by omega) _ ((plain_pair rfl).mpr ⟨hlhs, hright⟩) rfl r hrest
    · obtain rfl := Except.ok.inj hr
      exact hlhs

theorem parse_atom_plain (hidents : IdentsPlain tokens) {pos : Nat}
    (hor : ReadsPlain (parse_or input tokens (pos + 1))) : ReadsPlain (parse_atom input tokens pos) := by
  intro r hr
  rw [parse_atom] at hr
  split at hr
  · simp only [except.bind_eq_ok] at hr
    obtain ⟨opened, _, name, hname, closed, _, slug, hslug, hr⟩ := hr
    obtain rfl := Except.ok.inj hr
    rintro tag htag
    obtain rfl := List.mem_singleton.mp htag
    have hread := Slug.as_str_of_from_str (except.mapError_eq_ok.mp hslug)
    rw [ident] at hname
    split at hname
    · rename_i text htext
      obtain rfl := Except.ok.inj hname
      change slug.as_str ∉ keywords
      rw [hread]
      exact hidents text (List.mem_of_getElem? htext)
    · cases hname
  · simp only [except.bind_eq_ok] at hr
    obtain ⟨inner, hinner, closed, _, hr⟩ := hr
    obtain rfl := Except.ok.inj hr
    exact hor inner hinner
  · cases hr

/-- The parsers of one position, from those of the positions behind it. -/
theorem parse_or_plain (hidents : IdentsPlain tokens) (pos : Nat) :
    ReadsPlain (parse_unary input tokens pos) ∧ ReadsPlain (parse_and input tokens pos) ∧
      ReadsPlain (parse_or input tokens pos) := by
  generalize hn : tokens.length - pos = n
  induction n using Nat.strong_induction_on generalizing pos with
  | h n ih =>
    have hbehind : ∀ q, pos < q → q ≤ tokens.length → ReadsPlain (parse_unary input tokens q) ∧
        ReadsPlain (parse_and input tokens q) ∧ ReadsPlain (parse_or input tokens q) :=
      fun q hpos hq => ih (tokens.length - q) (by omega) q rfl
    have hunary : ReadsPlain (parse_unary input tokens pos) := by
      intro r hr
      rw [parse_unary] at hr
      split at hr
      · rename_i hnot
        have hlt := lt_length hnot
        obtain ⟨inner, hinner, hr⟩ := except.bind_eq_ok.mp hr
        obtain rfl := Except.ok.inj hr
        exact (hbehind (pos + 1) (by omega) (by omega)).1 inner hinner
      · by_cases hlt : pos < tokens.length
        · exact parse_atom_plain hidents (hbehind (pos + 1) (by omega) (by omega)).2.2 r hr
        · rw [parse_atom] at hr
          have hnone : tokens[pos]? = none := List.getElem?_eq_none (by omega)
          split at hr
          · rename_i htoken
            rw [hnone] at htoken
            cases htoken
          · rename_i htoken
            rw [hnone] at htoken
            cases htoken
          · cases hr
    have hand : ReadsPlain (parse_and input tokens pos) := by
      intro r hr
      rw [parse_and] at hr
      obtain ⟨lhs, hlhs, hr⟩ := except.bind_eq_ok.mp hr
      exact and_loop_plain (fun q hpos hq => (hbehind q hpos hq).1) lhs (hunary lhs hlhs) r hr
    refine ⟨hunary, hand, fun r hr => ?_⟩
    rw [parse_or] at hr
    obtain ⟨lhs, hlhs, hr⟩ := except.bind_eq_ok.mp hr
    exact or_loop_plain (fun q hpos hq => (hbehind q hpos hq).2.1) lhs (hand lhs hlhs) r hr

end

theorem plain_of_parse {text : String} {e : TagExpr} (h : parse text = .ok e) : Plain e := by
  obtain ⟨tokens, htokens, h⟩ := except.bind_eq_ok.mp h
  obtain ⟨expr, hexpr, h⟩ := except.bind_eq_ok.mp h
  split at h
  · cases h
  · obtain rfl := Except.ok.inj h
    exact (parse_or_plain (idents_of_tokenize htokens) 0).2.2 expr hexpr

/-- The tag named `and`: its expression is printed as `has(and)`. -/
def tag_and : Tag := ⟨⟨"and", by decide, by decide, by decide⟩⟩

theorem parse_to_string_and :
    ¬∀ e : TagExpr, parse (to_string e) = .ok e := by
  intro h
  obtain ⟨err, herr⟩ := parse_to_string_fails (e := .Has tag_and) (by decide)
  rw [h] at herr
  cases herr

end api2mcp.resolve.tag_expr
