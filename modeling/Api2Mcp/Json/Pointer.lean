import Api2Mcp.Json.Value

namespace jsonptr

open serde_json

/-- A JSON pointer, as its decoded tokens. -/
structure PointerBuf where
  tokens : List String
  deriving DecidableEq, Repr

/-- `~` and `/` inside a token are written `~0` and `~1`. -/
def encode (token : String) : String :=
  String.ofList (token.toList.flatMap fun c =>
    if c = '~' then ['~', '0'] else if c = '/' then ['~', '1'] else [c])

/-- `none` when a `~` stands before anything but `0` and `1`. -/
def decode : List Char → Option (List Char)
  | '~' :: '0' :: rest => (decode rest).map ('~' :: ·)
  | '~' :: '1' :: rest => (decode rest).map ('/' :: ·)
  | '~' :: _ => none
  | c :: rest => (decode rest).map (c :: ·)
  | [] => some []

/-- A pointer is empty, or every token has a `/` before it. -/
def PointerBuf.parse (s : String) : Option PointerBuf :=
  match s.toList with
  | [] => some ⟨[]⟩
  | '/' :: rest => ((rest.splitOn '/').mapM decode).map fun tokens => ⟨tokens.map String.ofList⟩
  | _ => none

def PointerBuf.to_string (pointer : PointerBuf) : String :=
  String.join (pointer.tokens.map fun token => "/" ++ encode token)

theorem decode_encode (cs : List Char) :
    decode (cs.flatMap fun c => if c = '~' then ['~', '0'] else if c = '/' then ['~', '1'] else [c]) =
      some cs := by
  induction cs with
  | nil => rfl
  | cons c cs ih =>
    rw [List.flatMap_cons]
    split
    · rename_i htilde
      rw [htilde, List.cons_append, List.cons_append, List.nil_append, decode, ih]
      rfl
    split
    · rename_i hslash
      rw [hslash, List.cons_append, List.cons_append, List.nil_append, decode, ih]
      rfl
    · rename_i htilde hslash
      rw [List.cons_append, List.nil_append, decode, ih]
      · rfl
      all_goals
        intros
        simp_all

theorem notMem_encode (token : String) : '/' ∉ (encode token).toList := by
  rw [encode, String.toList_ofList, List.mem_flatMap]
  rintro ⟨c, _, hc⟩
  split at hc
  · simp at hc
  split at hc
  · simp at hc
  · rename_i hslash
    exact hslash (List.mem_singleton.mp hc).symm

/-- A pointer is read from its text. -/
theorem PointerBuf.parse_to_string (pointer : PointerBuf) : parse pointer.to_string = some pointer := by
  obtain ⟨tokens⟩ := pointer
  have htext : ∀ tokens : List String, (to_string ⟨tokens⟩).toList =
      tokens.flatMap fun token => '/' :: (encode token).toList := by
    intro tokens
    simp only [to_string, String.toList_join, List.flatMap_map, String.toList_append]
    rfl
  unfold parse
  rw [htext]
  cases tokens with
  | nil => rfl
  | cons token tokens =>
    have hjoin : ∀ (token : String) (tokens : List String),
        (encode token).toList ++ tokens.flatMap (fun token => '/' :: (encode token).toList) =
          ['/'].intercalate ((token :: tokens).map fun token => (encode token).toList) := by
      intro token tokens
      induction tokens generalizing token with
      | nil => simp
      | cons next tokens ih =>
        rw [List.flatMap_cons, List.map_cons, List.map_cons, List.intercalate_cons_cons, List.cons_append,
          ih next]
        simp
    rw [List.flatMap_cons, List.cons_append, hjoin]
    have hapart : ∀ cs ∈ (token :: tokens).map fun token => (encode token).toList, '/' ∉ cs := by
      intro cs hcs
      obtain ⟨token, _, rfl⟩ := List.mem_map.mp hcs
      exact notMem_encode token
    have hdecode : ∀ tokens : List String,
        (tokens.map fun token => (encode token).toList).mapM decode = some (tokens.map String.toList) := by
      intro tokens
      induction tokens with
      | nil => rfl
      | cons token tokens ih =>
        rw [List.map_cons, List.mapM_cons, ih, encode, String.toList_ofList, decode_encode]
        rfl
    show ((['/'].intercalate ((token :: tokens).map fun token => (encode token).toList)).splitOn '/' |>.mapM
      decode).map (fun tokens => (⟨tokens.map String.ofList⟩ : PointerBuf)) = _
    rw [List.splitOn_intercalate '/' hapart (by simp), hdecode]
    simp

/-- An array index has only digits and no leading zero. -/
def index (token : String) : Option Nat :=
  let cs := token.toList
  if cs.isEmpty || !cs.all Char.isDigit then none
  else if cs.head? = some '0' && cs.length > 1 then none
  else some (cs.foldl (fun n c => n * 10 + (c.toNat - '0'.toNat)) 0)

/-- The value a pointer leads to; `none` when it leads nowhere. -/
def resolve : List String → Value → Option Value
  | [], value => some value
  | token :: tokens, .object fields => (Map.get token fields).bind (resolve tokens)
  | token :: tokens, .array items =>
    (index token).bind fun i => (items[i]?).bind (resolve tokens)
  | _ :: _, _ => none

end jsonptr
