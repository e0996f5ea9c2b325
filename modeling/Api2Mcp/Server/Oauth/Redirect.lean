import Api2Mcp.Concurrent.Trace
import Api2Mcp.Net.Form
import Api2Mcp.Net.WhatwgAppend
import Api2Mcp.Server.Login
import Api2Mcp.Server.Oauth.Authorize
import Api2Mcp.Text.Utf8

namespace api2mcp.server.oauth.redirect

open concurrent net
open api2mcp.store

/-- The redirects back to a client: the URI they lead to with the client's
`state`, the pair that tells the outcome, and the target. -/
inductive Sent (sha256_hex : String → String) : String → Option String → String × String → String → Prop
  | issued {st : Nat → AuthDb} {n m : Nat} {client_id user_id : Uuid} {uri challenge method scope : String}
      {resource state : Option String} {code target : String} :
      Task.Ran st n (authorize.issue_code_and_redirect sha256_hex client_id user_id uri challenge method scope resource
        state code) m (.done (.ok target)) →
      Sent sha256_hex uri state ("code", code) target
  | decided {st : Nat → AuthDb} {n m : Nat} {req : ConsentRequest} {decision : String} {caller : Uuid}
      {drawn : authorize.Drawn} {target : String} :
      Task.Ran st n (consent.decide_request sha256_hex req decision caller drawn) m (.done (.ok target)) →
      Sent sha256_hex req.redirect_uri req.state
        (if decision ≠ "approve" then ("error", "access_denied") else ("code", drawn.code)) target

/-- The pairs that are put behind a redirect URI. -/
def added_pairs (pair : String × String) (state : Option String) : List (String × String) :=
  pair :: ((state.filter fun s => s ≠ "").map fun st => ("state", st)).toList

/-- What is relied on: a text that the url crate accepts is a URL by the
standard, which has no domains with spaces. -/
structure UrlLaws (parses : String → Bool) (caret : Bool) (domain ipv6 : List Char → Option Host) : Prop where
  accepted : ∀ text, parses text = true → ∃ url, whatwg.parse caret domain ipv6 text = some url
  space : ∀ text, ' ' ∈ text → domain text = none

/-- The target is sent, and is the URL of the redirect URI with the pairs behind
its query. -/
def WellFormed (caret : Bool) (domain ipv6 : List Char → Option Host) (uri : String) (pairs : List (String × String))
    (target : String) : Prop :=
  (login.redirect_to target []).location = some target ∧
    ∃ url query added, whatwg.parse caret domain ipv6 uri = some url ∧
      whatwg.parse caret domain ipv6 target = some { url with query := some query } ∧
      query = (match url.query with | none => added | some given => given ++ "&" ++ added) ∧
      form_urlencoded.parse added = pairs ∧
      form_urlencoded.parse query = form_urlencoded.parse (url.query.getD "") ++ pairs

/-- A URI that a query can be put behind: no fragment, nothing that a header
cannot carry, and no space that is stripped from its end. -/
structure Appendable (uri : String) : Prop where
  no_fragment : '#' ∉ uri.toList
  header : (HeaderValue.from_str uri).isSome = true
  no_space : ' ' ∉ whatwg.trailing uri

/-! The targets. -/

/-- The text of a pair: plain characters that a form is read from. -/
structure PairText (text : String) (pair : String × String) : Prop where
  plain : ∀ c ∈ text.toList, whatwg.special_query_set c = false
  single : '&' ∉ text.toList
  parsed : form_urlencoded.parse_pair text.toList = pair
  nonempty : text.toList ≠ []

theorem plain_percent_encode {s : String} {c : Char} (h : c ∈ (percent_encode s).toList) :
    whatwg.special_query_set c = false ∧ c ≠ '&' := by
  rw [percent_encode, String.toList_ofList] at h
  obtain rfl | ⟨n, hn, rfl⟩ | ⟨b, hascii, hkept, rfl⟩ := percent.mem_encode h
  · decide
  · have hall : ∀ n < 16, whatwg.special_query_set (percent.hex n) = false ∧ percent.hex n ≠ '&' := by decide
    exact hall n hn
  · have hall : ∀ n : Fin 128, login.alphanumeric (UInt8.ofNat n) = true →
        whatwg.special_query_set (Char.ofNat n) = false ∧ Char.ofNat n ≠ '&' := by
      decide
    have hlt : b.toNat < 128 := hascii
    exact hall ⟨b.toNat, hlt⟩ (by rwa [UInt8.ofNat_toNat])

/-- A name of plain characters with an encoded value. -/
theorem pairText_encoded {name : String} (hname : ∀ c ∈ name.toList, whatwg.special_query_set c = false ∧ c ≠ '&' ∧ c ≠ '=')
    (hdecode : form_urlencoded.decode name.toList = name) (value : String) :
    PairText (name ++ "=" ++ percent_encode value) (name, value) := by
  have htext : (name ++ "=" ++ percent_encode value).toList = name.toList ++ '=' :: (percent_encode value).toList := by
    simp
  refine ⟨fun c hc => ?_, fun hc => ?_, ?_, by simp [htext]⟩
  · rw [htext] at hc
    obtain hc | hc := List.mem_append.mp hc
    · exact (hname c hc).1
    · obtain rfl | hc := List.mem_cons.mp hc
      · decide
      · exact (plain_percent_encode hc).1
  · rw [htext] at hc
    obtain hc | hc := List.mem_append.mp hc
    · exact (hname _ hc).2.1 rfl
    · obtain hc | hc := List.mem_cons.mp hc
      · exact absurd hc (by decide)
      · exact (plain_percent_encode hc).2 rfl
  · rw [htext, percent_encode, String.toList_ofList,
      form_urlencoded.parse_pair_encoded (by decide) (by decide) (fun h => (hname _ h).2.2 rfl), hdecode]

theorem pairText_denied : PairText "error=access_denied" ("error", "access_denied") :=
  ⟨by decide, by decide, by decide, by decide⟩

/-- What is put behind the separator. -/
def added_text (text : String) (state : Option String) : String :=
  match state.filter fun s => s ≠ "" with
  | none => text
  | some st => text ++ "&" ++ ("state" ++ "=" ++ percent_encode st)

theorem redirect_target_eq (uri text : String) (state : Option String) :
    authorize.redirect_target uri text state =
      uri ++ ((if '?' ∈ uri.toList then "&" else "?") ++ added_text text state) := by
  unfold authorize.redirect_target added_text
  simp only [String.contains_char_eq, decide_eq_true_eq]
  generalize (if '?' ∈ uri.toList then "&" else "?") = sep
  cases state.filter fun s => s ≠ "" with
  | none => exact String.append_assoc
  | some st =>
    have hname : "&state=" = "&" ++ ("state" ++ "=") := rfl
    simp only [hname, String.append_assoc]

section

variable {text : String} {pair : String × String}

theorem pairText_state (st : String) : PairText ("state" ++ "=" ++ percent_encode st) ("state", st) :=
  pairText_encoded (by decide) (by decide) st

theorem plain_added_text (htext : PairText text pair) (state : Option String) :
    ∀ c ∈ (added_text text state).toList, whatwg.special_query_set c = false := by
  unfold added_text
  split
  · exact htext.plain
  · rename_i st _
    intro c hc
    rw [String.toList_append, String.toList_append, List.mem_append, List.mem_append] at hc
    obtain (hc | hc) | hc := hc
    · exact htext.plain c hc
    · obtain rfl : c = '&' := by simpa using hc
      decide
    · exact (pairText_state st).plain c hc

theorem parse_added_text (htext : PairText text pair) (state : Option String) :
    form_urlencoded.parse (added_text text state) = added_pairs pair state := by
  have hpair := form_urlencoded.parse_single htext.single htext.nonempty
  rw [htext.parsed] at hpair
  unfold added_text added_pairs
  cases state.filter fun s => s ≠ "" with
  | none => exact hpair
  | some st =>
    have hstate := form_urlencoded.parse_single (pairText_state st).single (pairText_state st).nonempty
    rw [(pairText_state st).parsed] at hstate
    simp only [form_urlencoded.parse_append, hpair, hstate]
    rfl

theorem issued_target {sha256_hex : String → String} {st : Nat → AuthDb} {n m : Nat} {client_id user_id : Uuid}
    {uri challenge method scope : String} {resource state : Option String} {code target : String}
    (h : Task.Ran st n (authorize.issue_code_and_redirect sha256_hex client_id user_id uri challenge method scope resource
      state code) m (.done (.ok target))) :
    target = authorize.redirect_target uri ("code=" ++ percent_encode code) state := by
  simp only [authorize.issue_code_and_redirect, auth.utc_now, Task.ran_read_bind, create_code] at h
  obtain ⟨now, _, _, _, h⟩ := h
  simp only [Task.exec_bind, Task.stmt_bind, Task.ran_stmt] at h
  obtain ⟨stored, _, _, _, _, h⟩ := h
  cases hinsert : (st stored).oauth.oauth_codes.insert
    { code_hash := sha256_hex code, client_id, user_id, redirect_uri := uri, code_challenge := challenge
      code_challenge_method := method, resource, scope := some scope, used := false
      expires_at := (st now).oauth.now + authorize.seconds authorize.CODE_TTL_SECS } with
  | none =>
    simp only [hinsert, Task.pure_eq, Task.done_bind, Task.ran_done] at h
    cases h.2
  | some codes =>
    simp only [hinsert, Task.pure_eq, Task.done_bind, Task.ran_done] at h
    cases h.2
    rfl

/-- Every redirect has the target of its pair. -/
theorem target_of_sent {sha256_hex : String → String} {uri : String} {state : Option String} {target : String}
    (h : Sent sha256_hex uri state pair target) :
    ∃ text, PairText text pair ∧ target = authorize.redirect_target uri text state := by
  have hcode : ∀ code, PairText ("code=" ++ percent_encode code) ("code", code) := fun code =>
    @pairText_encoded "code" (by decide) (by decide) code
  cases h with
  | issued hran => exact ⟨_, hcode _, issued_target hran⟩
  | @decided _ _ _ req decision caller drawn _ hran =>
    unfold consent.decide_request at hran
    split at hran
    · rename_i hdenied
      rw [if_pos hdenied]
      simp only [Task.pure_eq, Task.ran_done] at hran
      cases hran.2
      exact ⟨_, pairText_denied, rfl⟩
    · rename_i happroved
      rw [if_neg happroved]
      obtain ⟨_, answer, _, hran⟩ := Task.Ran.bind hran
      cases answer with
      | error e =>
        simp only [Task.pure_eq, Task.ran_done] at hran
        cases hran.2
      | ok granted => exact ⟨_, hcode _, issued_target hran⟩

/-! Headers. -/

theorem plain_valid {c : Char} (h : whatwg.special_query_set c = false) :
    (String.utf8EncodeChar c).all HeaderValue.is_valid = true := by
  have hbounds : 31 < c.toNat ∧ c.toNat < 127 := by
    simp only [whatwg.special_query_set, whatwg.query_set, whatwg.c0_control_set, Bool.or_eq_false_iff,
      decide_eq_false_iff_not] at h
    omega
  have hall : ∀ n : Fin 127, 31 < n.val → (String.utf8EncodeChar (Char.ofNat n)).all HeaderValue.is_valid = true := by
    decide
  have hvalid := hall ⟨c.toNat, hbounds.2⟩ hbounds.1
  rwa [Char.ofNat_toNat] at hvalid

/-- What is stripped of a header value is tabs and spaces. -/
theorem blank_of_valid {c : Char} (hblank : whatwg.is_c0_control_or_space c = true)
    (hvalid : (String.utf8EncodeChar c).all HeaderValue.is_valid = true) : c = '\t' ∨ c = ' ' := by
  have hlt : c.toNat < 33 := Nat.lt_succ_of_le (of_decide_eq_true hblank)
  have hall : ∀ n : Fin 33, (String.utf8EncodeChar (Char.ofNat n)).all HeaderValue.is_valid = true →
      Char.ofNat n = '\t' ∨ Char.ofNat n = ' ' := by
    decide
  have hcases := hall ⟨c.toNat, hlt⟩
  rw [Char.ofNat_toNat] at hcases
  exact hcases hvalid

theorem location_redirect_to_iff (location : String) :
    (login.redirect_to location []).location = some location ↔ (HeaderValue.from_str location).isSome = true := by
  unfold login.redirect_to
  split
  · rename_i hvalid
    simp [hvalid]
  · rename_i hinvalid
    simp [hinvalid]

/-- What is put behind a URI is a header value where the URI is. -/
theorem header_append (uri : String) {behind : String} (h : ∀ c ∈ behind.toList, whatwg.special_query_set c = false) :
    (HeaderValue.from_str (uri ++ behind)).isSome = true ↔ (HeaderValue.from_str uri).isSome = true := by
  rw [HeaderValue.isSome_from_str, HeaderValue.isSome_from_str, String.toList_append]
  constructor
  · exact fun hall c hc => hall c (List.mem_append_left _ hc)
  · intro hall c hc
    obtain hc | hc := List.mem_append.mp hc
    · exact hall c hc
    · exact plain_valid (h c hc)

/-- What the parser reads of a URI and of what was put behind it. -/
theorem preprocess_behind {uri behind : String} (hheader : (HeaderValue.from_str uri).isSome = true)
    (hne : whatwg.preprocess uri ≠ []) (hbehind : behind.toList ≠ [])
    (hplain : ∀ c ∈ behind.toList, whatwg.special_query_set c = false) :
    ∃ spaces, (∀ c ∈ spaces, c = ' ') ∧ (spaces = [] ↔ ' ' ∉ whatwg.trailing uri) ∧
      whatwg.preprocess (uri ++ behind) = whatwg.preprocess uri ++ (spaces ++ behind.toList) := by
  have hblank : ∀ c ∈ whatwg.trailing uri, c = '\t' ∨ c = ' ' := by
    intro c hc
    have hmem := List.mem_reverse.mp hc
    have hstripped := List.all_eq_true.mp List.all_takeWhile c hmem
    have hchar := List.mem_reverse.mp ((List.takeWhile_sublist _).subset hmem)
    exact blank_of_valid hstripped ((HeaderValue.isSome_from_str uri).mp hheader c hchar)
  have hspaces : ∀ c ∈ (whatwg.trailing uri).filter (fun d => !whatwg.is_tab_or_newline d), c = ' ' := by
    intro c hc
    obtain ⟨hmem, hkept⟩ := List.mem_filter.mp hc
    obtain rfl | hspace := hblank c hmem
    · exact absurd hkept (by decide)
    · exact hspace
  have hlast := List.getLast?_eq_some_getLast hbehind
  have hkept : ∀ d ∈ behind.toList, whatwg.is_c0_control_or_space d = false := by
    intro d hd
    have hquery := hplain d hd
    rw [whatwg.special_query_set, Bool.or_eq_false_iff] at hquery
    exact (whatwg.of_query_set hquery.1).1
  refine ⟨_, hspaces, ⟨fun hnil hmem => ?_, fun hnone => ?_⟩, whatwg.preprocess_append hne hlast
    (hkept _ (List.getLast_mem hbehind)) fun d hd => whatwg.not_tab_or_newline (hkept d hd)⟩
  · have hstay : ' ' ∈ (whatwg.trailing uri).filter (fun d => !whatwg.is_tab_or_newline d) :=
      List.mem_filter.mpr ⟨hmem, by decide⟩
    rw [hnil] at hstay
    cases hstay
  · rw [List.eq_nil_iff_forall_not_mem]
    intro d hd
    exact hnone (hspaces d hd ▸ (List.mem_filter.mp hd).1)

end

/-! Redirects. -/

section

variable {parses : String → Bool} {caret : Bool} {domain ipv6 : List Char → Option Host} {uri text : String}
  {pair : String × String}

theorem encode_of_plain {scheme : String} {added : List Char} (h : ∀ c ∈ added, whatwg.special_query_set c = false) :
    whatwg.encode (whatwg.query_set_of scheme) added = added := by
  refine whatwg.encode_of_kept fun c hc => ?_
  have hkept := h c hc
  unfold whatwg.query_set_of
  split
  · exact hkept
  · rw [whatwg.special_query_set, Bool.or_eq_false_iff] at hkept
    exact hkept.1

theorem encode_space (scheme : String) (rest : List Char) :
    whatwg.encode (whatwg.query_set_of scheme) (' ' :: rest) =
      '%' :: '2' :: '0' :: whatwg.encode (whatwg.query_set_of scheme) rest := by
  have hset : whatwg.query_set_of scheme ' ' = true := by
    unfold whatwg.query_set_of
    split <;> decide
  have hspace : whatwg.encode_char (whatwg.query_set_of scheme) ' ' = ['%', '2', '0'] := by
    rw [whatwg.encode_char, hset]
    decide
  rw [whatwg.encode, List.flatMap_cons, hspace]
  rfl

theorem preprocess_ne_nil {url : Url} (h : whatwg.parse caret domain ipv6 uri = some url) :
    whatwg.preprocess uri ≠ [] := by
  intro hnil
  rw [whatwg.parse, hnil] at h
  cases h

/-- What is put behind a URI. -/
def behind (uri text : String) (state : Option String) : String :=
  (if '?' ∈ uri.toList then "&" else "?") ++ added_text text state

variable (uri) in
theorem plain_behind (htext : PairText text pair) (state : Option String) :
    ∀ c ∈ (behind uri text state).toList, whatwg.special_query_set c = false := by
  intro c hc
  rw [behind, String.toList_append, List.mem_append] at hc
  obtain hc | hc := hc
  · split at hc
    · obtain rfl : c = '&' := by simpa using hc
      decide
    · obtain rfl : c = '?' := by simpa using hc
      decide
  · exact plain_added_text htext state c hc

variable (uri) in
theorem hash_notMem_behind (htext : PairText text pair) (state : Option String) :
    '#' ∉ (behind uri text state).toList := fun h => absurd (plain_behind uri htext state _ h) (by decide)

theorem behind_ne_nil (uri text : String) (state : Option String) : (behind uri text state).toList ≠ [] := by
  rw [behind, String.toList_append]
  split <;> simp

/-- The target of a URI that a query can be put behind. -/
theorem wellFormed_of_appendable {url : Url} (hurl : whatwg.parse caret domain ipv6 uri = some url)
    (htext : PairText text pair) (state : Option String) (h : Appendable uri) :
    WellFormed caret domain ipv6 uri (added_pairs pair state) (authorize.redirect_target uri text state) := by
  have htarget : authorize.redirect_target uri text state = uri ++ behind uri text state := redirect_target_eq uri text state
  have hplain := plain_behind uri htext state
  obtain ⟨spaces, _, hnone, hread⟩ :=
    preprocess_behind h.header (preprocess_ne_nil hurl) (behind_ne_nil uri text state) hplain
  rw [hnone.mpr h.no_space, List.nil_append] at hread
  have hhash : '#' ∉ whatwg.preprocess uri := fun hmem => h.no_fragment (whatwg.mem_of_mem_preprocess hmem)
  have hparsed := parse_added_text htext state
  refine ⟨(location_redirect_to_iff _).mpr ?_, ?_⟩
  · rw [htarget]
    exact (header_append uri hplain).mpr h.header
  have hwhole : whatwg.parse caret domain ipv6 (uri ++ behind uri text state) =
      whatwg.parse_stripped caret domain ipv6 (whatwg.preprocess uri ++ (behind uri text state).toList) := by
    rw [whatwg.parse, hread]
  rw [htarget, hwhole]
  by_cases hmark : '?' ∈ uri.toList
  · obtain ⟨given, hgiven, hquery⟩ := whatwg.parse_stripped_query_append hurl hhash
      (whatwg.mem_preprocess (by decide) hmark) (hash_notMem_behind uri htext state)
    rw [encode_of_plain hplain] at hquery
    have hbehind : behind uri text state = "&" ++ added_text text state := by
      rw [behind, if_pos hmark]
    refine ⟨url, _, added_text text state, hurl, hquery, ?_, hparsed, ?_⟩
    · rw [hgiven, String.ofList_toList, hbehind, ← String.append_assoc]
    · rw [hgiven, String.ofList_toList, hbehind, ← String.append_assoc, form_urlencoded.parse_append, hparsed]
      rfl
  · have hbehind : (behind uri text state).toList = '?' :: (added_text text state).toList := by
      rw [behind, if_neg hmark, String.toList_append]
      rfl
    have hmark' : '?' ∉ whatwg.preprocess uri := fun hmem => hmark (whatwg.mem_of_mem_preprocess hmem)
    have hadded : '#' ∉ (added_text text state).toList := fun hmem =>
      absurd (plain_added_text htext state _ hmem) (by decide)
    obtain ⟨hnoquery, hquery⟩ := whatwg.parse_stripped_query hurl hhash hmark' (whatwg.getLast?_preprocess uri) hadded
    rw [encode_of_plain (plain_added_text htext state), String.ofList_toList, ← hbehind] at hquery
    refine ⟨url, _, added_text text state, hurl, hquery, by rw [hnoquery], hparsed, ?_⟩
    rw [hnoquery, hparsed]
    rfl

/-- A target that is well formed comes from such a URI. -/
theorem appendable_of_wellFormed (hdomain : ∀ text, ' ' ∈ text → domain text = none)
    (htext : PairText text pair) (state : Option String)
    (h : WellFormed caret domain ipv6 uri (added_pairs pair state) (authorize.redirect_target uri text state)) :
    Appendable uri := by
  have htarget : authorize.redirect_target uri text state = uri ++ behind uri text state := redirect_target_eq uri text state
  have hplain := plain_behind uri htext state
  obtain ⟨hlocation, url, query, added, hurl, hparsed, hquery, _, _⟩ := h
  rw [htarget] at hlocation hparsed
  have hheader := (header_append uri hplain).mp ((location_redirect_to_iff _).mp hlocation)
  obtain ⟨spaces, hspaces, hnone, hread⟩ :=
    preprocess_behind hheader (preprocess_ne_nil hurl) (behind_ne_nil uri text state) hplain
  rw [whatwg.parse, hread] at hparsed
  have hhash : '#' ∉ uri.toList := by
    intro hmem
    have hne : spaces ++ (behind uri text state).toList ≠ [] :=
      List.append_ne_nil_of_right_ne_nil _ (behind_ne_nil uri text state)
    exact whatwg.fragment_of_parse_stripped hurl (whatwg.mem_preprocess (by decide) hmem) hne hparsed rfl
  have hhash' : '#' ∉ whatwg.preprocess uri := fun hmem => hhash (whatwg.mem_of_mem_preprocess hmem)
  refine ⟨hhash, hheader, ?_⟩
  rw [← hnone]
  by_contra hne
  by_cases hmark : '?' ∈ uri.toList
  · have hbehind : (behind uri text state).toList = '&' :: (added_text text state).toList := by
      rw [behind, if_pos hmark, String.toList_append]
      rfl
    have hhash'' : '#' ∉ spaces ++ (behind uri text state).toList := by
      rw [List.mem_append, not_or]
      exact ⟨fun hmem => absurd (hspaces _ hmem) (by decide), hash_notMem_behind uri htext state⟩
    obtain ⟨given, hgiven, hgrown⟩ := whatwg.parse_stripped_query_append hurl hhash'
      (whatwg.mem_preprocess (by decide) hmark) hhash''
    rw [hgrown] at hparsed
    have hsame := congrArg (fun found : Option Url => found.bind (·.query)) hparsed
    simp only [Option.bind_some, Option.some.injEq] at hsame
    rw [hgiven] at hquery
    dsimp only at hquery
    rw [hquery, String.append_assoc] at hsame
    obtain ⟨space, others, rfl⟩ := List.exists_cons_of_ne_nil hne
    obtain rfl := hspaces space (List.mem_cons_self ..)
    have hchars := congrArg String.toList (String.append_right_inj given |>.mp hsame)
    rw [List.cons_append, encode_space, String.toList_ofList, String.toList_append] at hchars
    simp at hchars
  · have hbehind : (behind uri text state).toList = '?' :: (added_text text state).toList := by
      rw [behind, if_neg hmark, String.toList_append]
      rfl
    have hmark' : '?' ∉ whatwg.preprocess uri := fun hmem => hmark (whatwg.mem_of_mem_preprocess hmem)
    have hadded : '#' ∉ (added_text text state).toList := fun hmem =>
      absurd (plain_added_text htext state _ hmem) (by decide)
    rw [hbehind] at hparsed
    exact whatwg.path_of_parse_stripped hdomain hurl hhash' hmark' hne hspaces hadded hparsed rfl

end

/-- A redirect to a URI that was registered is well formed exactly when a query
can be put behind the URI. -/
theorem well_formed_iff {sha256_hex : String → String} {parses : String → Bool} {caret : Bool}
    {domain ipv6 : List Char → Option Host} (hlaws : UrlLaws parses caret domain ipv6) {uris : List String} {uri : String}
    (hregistered : register.validate_redirect_uris parses uris = .ok ()) (huri : uri ∈ uris) {state : Option String}
    {pair : String × String} {target : String} (hsent : Sent sha256_hex uri state pair target) :
    WellFormed caret domain ipv6 uri (added_pairs pair state) target ↔ Appendable uri := by
  obtain ⟨text, htext, rfl⟩ := target_of_sent hsent
  have haccepted : parses uri = true := by
    unfold register.validate_redirect_uris at hregistered
    split at hregistered
    · cases hregistered
    split at hregistered
    · cases hregistered
    · rename_i hall
      simpa using List.find?_eq_none.mp hall uri huri
  obtain ⟨url, hurl⟩ := hlaws.accepted uri haccepted
  exact ⟨appendable_of_wellFormed hlaws.space htext state, wellFormed_of_appendable hurl htext state⟩

/-- Two URIs of a client. -/
def client_uris : List String := ["https://app.example/cb?x=1", "https://app.example/cb#top"]

def client_domain (text : List Char) : Option Host := if ' ' ∈ text then none else some (.Domain (String.ofList text))

def client_parses (text : String) : Bool := client_uris.contains text

theorem client_laws : UrlLaws client_parses true client_domain fun _ => none := by
  refine ⟨fun text haccepted => ?_, fun text hspace => if_pos hspace⟩
  have hcases : text = "https://app.example/cb?x=1" ∨ text = "https://app.example/cb#top" := by
    simpa [client_parses, client_uris] using haccepted
  obtain rfl | rfl := hcases
  · exact ⟨_, rfl⟩
  · exact ⟨_, rfl⟩

def denied_request (uri : String) : ConsentRequest where
  id := 5
  client_id := 7
  redirect_uri := uri
  scope := none
  resource := none
  code_challenge := "E9Melhoa2OwvFrEMTJguCHaoeK1t8URWbuGJSstw-cM"
  code_challenge_method := "S256"
  state := some "a b"
  expires_at := 600000000

def denied_store : AuthDb where
  oauth_clients := .empty
  oauth_consents := .empty
  oauth_consent_requests := .empty
  oauth := { oauth_codes := .empty, oauth_tokens := .empty, next_id := 1, now := 0, db_now := 0 }

theorem denied_sent (sha256_hex : String → String) (uri : String) :
    Sent sha256_hex uri (some "a b") ("error", "access_denied") (consent.deny_redirect (denied_request uri)) := by
  have hran : Task.Ran (fun _ => denied_store) 0
      (consent.decide_request sha256_hex (denied_request uri) "deny" 8 ⟨"", 0, 0⟩) 0
      (.done (.ok (consent.deny_redirect (denied_request uri)))) := .idle (Nat.le_refl 0)
  exact .decided hran

/-- The query of the first one goes on. -/
theorem queried_uri_well_formed : WellFormed true client_domain (fun _ => none) "https://app.example/cb?x=1"
    (added_pairs ("error", "access_denied") (some "a b"))
    (consent.deny_redirect (denied_request "https://app.example/cb?x=1")) := by
  have hregistered : register.validate_redirect_uris client_parses client_uris = .ok () := rfl
  exact (well_formed_iff client_laws hregistered (by decide) (denied_sent id _)).mpr ⟨by decide, by decide, by decide⟩

/-- The pairs go into the fragment of the second one. -/
theorem fragment_uri_ill_formed :
    register.validate_redirect_uris client_parses client_uris = .ok () ∧
      UrlLaws client_parses true client_domain (fun _ => none) ∧
      Sent id "https://app.example/cb#top" (some "a b") ("error", "access_denied")
        "https://app.example/cb#top?error=access_denied&state=a%20b" ∧
      (whatwg.parse true client_domain (fun _ => none)
        "https://app.example/cb#top?error=access_denied&state=a%20b").map (fun url => (url.query, url.fragment)) =
          some (none, some "top?error=access_denied&state=a%20b") ∧
      ¬ WellFormed true client_domain (fun _ => none) "https://app.example/cb#top"
        (added_pairs ("error", "access_denied") (some "a b"))
        "https://app.example/cb#top?error=access_denied&state=a%20b" := by
  have htarget : consent.deny_redirect (denied_request "https://app.example/cb#top") =
      "https://app.example/cb#top?error=access_denied&state=a%20b" := by
    rw [consent.deny_redirect, redirect_target_eq]
    decide
  have hparsed : whatwg.parse true client_domain (fun _ => none)
      "https://app.example/cb#top?error=access_denied&state=a%20b" =
        some { scheme := "https", host := some (.Domain "app.example"), path := "/cb"
               fragment := some "top?error=access_denied&state=a%20b" } := by
    decide
  refine ⟨rfl, client_laws, htarget ▸ denied_sent id _, by rw [hparsed]; rfl, ?_⟩
  rintro ⟨_, url, query, added, _, hquery, _⟩
  rw [hparsed, Option.some.injEq] at hquery
  exact absurd (congrArg Url.query hquery) (by simp)

end api2mcp.server.oauth.redirect
