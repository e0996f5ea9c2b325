import Api2Mcp.Http.Pages
import Api2Mcp.Http.Redacted
import Api2Mcp.Runtime.Dispatch

namespace api2mcp.runtime.dispatch

open interact net serde_json
open api2mcp.model api2mcp.http api2mcp.resolve

/-- The body of a page as its error may tell it. -/
def redacted_body (crates : Crates) (page : CallResponse) : String :=
  redact_message crates.url (text.trim_matches is_whitespace (text.from_utf8_lossy page.body))

/-- There is an error, and it tells the redacted body: all of it within the cap,
and the beginning of a longer one. -/
def Detailed (crates : Crates) (page : CallResponse) : Prop :=
  ∃ detail, http_status_error crates page = some (.HttpStatus page.status.as_u16
      ((crates.canonical_reason page.status).getD "") detail none) ∧
    ((redacted_body crates page).utf8ByteSize ≤ DETAIL_CAP → detail = redacted_body crates page) ∧
    (DETAIL_CAP < (redacted_body crates page).utf8ByteSize →
      ∃ p : String, p.toList <+: (redacted_body crates page).toList ∧ p.utf8ByteSize ≤ DETAIL_CAP ∧ detail = p ++ "…")

section

variable {crates : Crates} {page : CallResponse}

theorem http_status_error_short (h : (redacted_body crates page).utf8ByteSize ≤ DETAIL_CAP) :
    http_status_error crates page = some (.HttpStatus page.status.as_u16
      ((crates.canonical_reason page.status).getD "") (redacted_body crates page) none) := by
  unfold http_status_error
  exact if_neg (Nat.not_lt.mpr h)

theorem http_status_error_long (h : DETAIL_CAP < (redacted_body crates page).utf8ByteSize) :
    http_status_error crates page = (text.truncate (redacted_body crates page) DETAIL_CAP).map fun cut =>
      .HttpStatus page.status.as_u16 ((crates.canonical_reason page.status).getD "") (cut ++ "…") none := by
  unfold http_status_error
  exact if_pos h

/-- The error of a page tells its body exactly if the redacted body is within
the cap, or the cap is at the boundary of two of its characters. -/
theorem http_status_error_iff (crates : Crates) (page : CallResponse) :
    Detailed crates page ↔ (redacted_body crates page).utf8ByteSize ≤ DETAIL_CAP ∨
      (⟨DETAIL_CAP⟩ : String.Pos.Raw).IsValid (redacted_body crates page) := by
  obtain hlong | hshort := Nat.lt_or_ge DETAIL_CAP (redacted_body crates page).utf8ByteSize
  rotate_left
  · refine iff_of_true ⟨_, http_status_error_short hshort, fun _ => rfl, fun hlong => ?_⟩ (.inl hshort)
    exact absurd hshort (Nat.not_le.mpr hlong)
  · rw [or_iff_right (Nat.not_le.mpr hlong), text.is_valid_iff_prefix]
    constructor
    · rintro ⟨detail, herror, -, -⟩
      rw [http_status_error_long hlong] at herror
      obtain ⟨cut, hcut, -⟩ := Option.map_eq_some_iff.mp herror
      exact ⟨cut, (text.truncate_iff hlong).mp hcut⟩
    · rintro ⟨cut, hbegins, hsize⟩
      refine ⟨cut ++ "…", ?_, fun hshort => absurd hshort (Nat.not_le.mpr hlong), fun _ => ?_⟩
      · rw [http_status_error_long hlong, (text.truncate_iff hlong).mpr ⟨hbegins, hsize⟩, Option.map_some]
      · exact ⟨cut, hbegins, hsize.le, rfl⟩

end

/-- Letters, and one of two bytes after the 511th. -/
def straddling_page : CallResponse where
  status := ⟨500, by decide⟩
  headers := []
  url := sample_url
  body := List.replicate 511 0x61 ++ [0xc3, 0xa9]

theorem decode_straddling (n : Nat) :
    text.decode_lossy none (List.replicate n 0x61 ++ [0xc3, 0xa9]) = List.replicate n 'a' ++ ['é'] := by
  induction n with
  | zero => decide
  | succ n ih =>
    rw [List.replicate_succ, List.cons_append, List.replicate_succ, List.cons_append, ← ih]
    rfl

theorem size_replicate (n : Nat) : (String.ofList (List.replicate n 'a')).utf8ByteSize = n := by
  induction n with
  | zero => rfl
  | succ n ih =>
    have hone : 'a'.utf8Size = 1 := by decide
    rw [List.replicate_succ, text.size_cons, ih, hone, Nat.add_comm]

theorem size_straddling (n : Nat) : (String.ofList (List.replicate n 'a' ++ ['é'])).utf8ByteSize = n + 2 := by
  have htwo : (String.ofList ['é']).utf8ByteSize = 2 := by decide
  rw [String.ofList_append, String.utf8ByteSize_append, size_replicate, htwo]

/-- A text that is one word has nothing to trim. -/
theorem trim_word {w : List Char} (hw : Word w) :
    text.trim_matches is_whitespace (String.ofList w) = String.ofList w := by
  refine text.trim_matches_of_ends (fun c rest heq => hw.spaceless c ?_) fun front c heq => hw.spaceless c ?_
  · rw [← String.toList_ofList (l := w), heq]
    exact List.mem_cons_self
  · rw [← String.toList_ofList (l := w), heq]
    exact List.mem_append_right front (List.mem_singleton_self c)

theorem split_word {w : List Char} (hw : Word w) : split_whitespace (String.ofList w) = [String.ofList w] := by
  have hwords := @words_intercalate [w] (List.forall_mem_singleton.mpr hw)
  rw [List.intercalate_singleton] at hwords
  rw [split_whitespace, String.toList_ofList, hwords, List.map_singleton]

theorem word_straddling (n : Nat) : Word (List.replicate n 'a' ++ ['é']) := by
  refine ⟨List.append_ne_nil_of_right_ne_nil _ (List.cons_ne_nil _ _), fun c hc => ?_⟩
  obtain hletter | hlast := List.mem_append.mp hc
  · rw [List.eq_of_mem_replicate hletter]
    decide
  · rw [List.mem_singleton.mp hlast]
    decide

theorem redacted_straddling : redacted_body default straddling_page = String.ofList (List.replicate 511 'a' ++ ['é']) := by
  have hword := word_straddling 511
  have hbody : text.from_utf8_lossy straddling_page.body = String.ofList (List.replicate 511 'a' ++ ['é']) := by
    rw [text.from_utf8_lossy, straddling_page, decode_straddling]
  have hkept : ∀ word url, ¬ UrlWord (default : Crates).url word url := by
    rintro word url ⟨hparse, -⟩
    cases hparse
  rw [redacted_body, hbody, trim_word hword, redact_message_eq, split_word hword, List.map_singleton,
    redact_word_of_other (hkept _), String.intercalate_singleton]

/-- The cap goes through the last character. -/
theorem http_status_error_panics : ¬ ∀ (crates : Crates) (page : CallResponse), Detailed crates page := by
  intro h
  have hlong : DETAIL_CAP < (redacted_body default straddling_page).utf8ByteSize := by
    rw [redacted_straddling, size_straddling]
    decide
  obtain ⟨detail, herror, -⟩ := h default straddling_page
  rw [http_status_error_long hlong] at herror
  obtain ⟨cut, hcut, -⟩ := Option.map_eq_some_iff.mp herror
  obtain ⟨hbegins, hsize⟩ := (text.truncate_iff hlong).mp hcut
  rw [redacted_straddling, String.toList_ofList, List.prefix_concat_iff] at hbegins
  rw [← @String.ofList_toList cut] at hsize
  obtain hall | hletters := hbegins
  · rw [hall, size_straddling] at hsize
    cases hsize
  · obtain ⟨hlength, hletters⟩ := List.prefix_replicate_iff.mp hletters
    rw [hletters, size_replicate] at hsize
    unfold DETAIL_CAP at hsize
    omega

/-! A page that is no success, among the pages of a call. -/

/-- The page names no next one. -/
def Final (from_slice : List UInt8 → Except String Value) (pagination : Pagination) (page : CallResponse) : Prop :=
  ∀ path key, pagination = .Cursor path key → ∃ body, from_slice page.body = .ok body ∧
    (jsonptr.resolve path.tokens body = none ∨ jsonptr.resolve path.tokens body = some .null)

/-- The text of the page's error ends within the cap, or can be cut at it. -/
def Cuttable (crates : Crates) (page : CallResponse) : Prop :=
  (redacted_body crates page).utf8ByteSize ≤ DETAIL_CAP ∨
    (⟨DETAIL_CAP⟩ : String.Pos.Raw).IsValid (redacted_body crates page)

/-- Each page that is no success is the last one asked for, and the call ends
with the failure of its status, which records what was sent. -/
def StatusesFail (planned : PlannedApiCall) (request : BoundRequest) (requests : List BoundRequest)
    (responses : List CallResponse) (rest : Dispatch (Except DispatchError DispatchOutcome)) : Prop :=
  ∀ k page, responses[k]? = some page → page.status.is_success = false → requests.length = k + 1 ∧
    ∃ reason detail, rest = .done (.error (.HttpStatus page.status.as_u16 reason detail
      (some (attempt_of planned request responses))))

section

variable {crates : Crates} {planned : PlannedApiCall} {request : BoundRequest}

theorem next_request_final (crate : UrlCrate) (from_slice : List UInt8 → Except String Value) (response : CallResponse)
    (pagination : Pagination) :
    next_request crate from_slice response pagination = .ok none ↔ Final from_slice pagination response := by
  cases pagination with
  | None => exact iff_of_true rfl (by rintro _ _ ⟨⟩)
  | Cursor path key =>
    constructor
    · rintro h _ _ ⟨⟩
      simp only [next_request] at h
      split at h
      · cases h
      rename_i body hbody
      split at h
      · rename_i hnone
        exact ⟨body, hbody, .inl hnone⟩
      · rename_i hnull
        exact ⟨body, hbody, .inr hnull⟩
      · cases h
      · cases h
    · intro h
      obtain ⟨body, hbody, hnone | hnull⟩ := h path key rfl
      · simp only [next_request, hbody, hnone]
      · simp only [next_request, hbody, hnull]

/-- The failure of a page has its status, and is there if its text can be cut. -/
theorem http_status_error_some (page : CallResponse) :
    (∀ error, http_status_error crates page = some error → ∃ reason detail,
        error = .HttpStatus page.status.as_u16 reason detail none) ∧
      (Cuttable crates page ↔ http_status_error crates page ≠ none) := by
  obtain hlong | hshort := Nat.lt_or_ge DETAIL_CAP (redacted_body crates page).utf8ByteSize
  · rw [http_status_error_long hlong]
    constructor
    · intro error herror
      obtain ⟨cut, -, rfl⟩ := Option.map_eq_some_iff.mp herror
      exact ⟨_, _, rfl⟩
    · rw [Cuttable, or_iff_right (Nat.not_le.mpr hlong), text.is_valid_iff_prefix, ne_eq, Option.map_eq_none_iff,
        ← ne_eq, Option.ne_none_iff_exists']
      exact exists_congr fun cut => (text.truncate_iff hlong).symm
  · rw [http_status_error_short hshort]
    constructor
    · rintro error ⟨⟩
      exact ⟨_, _, rfl⟩
    · exact iff_of_true (.inl hshort) (by rintro ⟨⟩)

/-- The first page that is no success decides what a call with all pages comes to. -/
theorem conclude_of_failure {pages : List CallResponse} {bad : CallResponse}
    (hbad : pages.find? (fun p => !p.status.is_success) = some bad) :
    (http_status_error crates bad = none ∧ conclude crates planned request pages = Dispatch.panicked) ∨
      Cuttable crates bad ∧ ∃ reason detail, conclude crates planned request pages =
        .done (.error (.HttpStatus bad.status.as_u16 reason detail (some (attempt_of planned request pages)))) := by
  unfold conclude
  simp only [hbad]
  cases herror : http_status_error crates bad with
  | none => exact .inl ⟨rfl, rfl⟩
  | some error =>
    obtain ⟨hshape, hcuttable⟩ := @http_status_error_some crates bad
    obtain ⟨reason, detail, rfl⟩ := hshape error herror
    refine .inr ⟨hcuttable.mpr ?_, reason, detail, rfl⟩
    rw [herror]
    rintro ⟨⟩

/-- What a call comes to with its pages, or without them. -/
def settle (crates : Crates) (planned : PlannedApiCall) (request : BoundRequest) :
    Except PaginateError (List CallResponse) → Dispatch (Except DispatchError DispatchOutcome)
  | .error e => return .error (.Send e)
  | .ok pages => conclude crates planned request pages

theorem settle_silent {fetched : Except PaginateError (List CallResponse)} {devs : List DispatchEvent}
    {rest : Dispatch (Except DispatchError DispatchOutcome)}
    (h : (settle crates planned request fetched).Emits devs rest) : devs = [] := by
  cases fetched with
  | error e => exact h.of_done.1
  | ok pages =>
    simp only [settle, conclude] at h
    split at h
    · split at h
      · obtain ⟨rfl, -⟩ | ⟨⟨⟩, -⟩ := Prog.Emits.of_ask h
        rfl
      · exact h.of_done.1
    · split at h
      · exact h.of_done.1
      · exact h.of_done.1

/-- A call whose client is there runs the loop, and settles. -/
theorem dispatch_of_client {plan : EndpointPlan} {ctx : DispatchContext} {caller_script : Option Slug} {name : String}
    {args : Value} {budget : CallBudget} {bound_args : btree.BTreeMap String Value} {client : Client}
    {devs : List DispatchEvent} {rest : Dispatch (Except DispatchError DispatchOutcome)}
    (hresolve : resolve plan caller_script name = .ok planned)
    (hargs : schema.bind_args planned.api_call.params args = .ok bound_args)
    (hbind : http.bind crates.url crates.values planned.api_call planned.service bound_args = .ok request) :
    (dispatch crates plan ctx caller_script name args budget).Emits
        (⟨.client_for planned.service, .ok client⟩ :: devs) rest ↔
      (Dispatch.io (fetch crates ctx planned budget request client) >>= settle crates planned request).Emits devs
        rest := by
  unfold dispatch dispatch_call
  simp only [hresolve, hargs, hbind, Dispatch.client_for_bind]
  constructor
  · rintro (_ | h)
    exact h
  · intro h
    exact .cons h

theorem settle_emits {p : Io (Except PaginateError (List CallResponse))} {evs : List IoEvent}
    {fetched : Except PaginateError (List CallResponse)} (h : p.Emits evs (.done fetched)) :
    (Dispatch.io p >>= settle crates planned request).Emits (evs.map io_event) (settle crates planned request fetched) :=
  (Dispatch.io_emits h).bind_left (settle crates planned request)

theorem of_io_emits {α : Type} {p : Io α} {devs : List DispatchEvent} {rest : Dispatch α}
    (h : (Dispatch.io p).Emits devs rest) :
    ∃ evs rest', p.Emits evs rest' ∧ rest = Dispatch.io rest' ∧ devs = evs.map io_event := by
  let forth (q : Question) (a : Answer q) : DispatchAnswer (.io q) := a
  exact Prog.Emits.of_among forth (fun _ _ => rfl) h

theorem of_settle_emits {p : Io (Except PaginateError (List CallResponse))} {devs : List DispatchEvent}
    {rest : Dispatch (Except DispatchError DispatchOutcome)}
    (h : (Dispatch.io p >>= settle crates planned request).Emits devs rest) :
    ∃ evs rest', p.Emits evs rest' ∧ devs = evs.map io_event := by
  have hio : ∃ rest', (Dispatch.io p).Emits devs rest' := by
    obtain ⟨rest', hio, -⟩ | ⟨fetched, before, after, rfl, hio, hafter⟩ := h.of_bind
    · exact ⟨rest', hio⟩
    · rw [settle_silent hafter, List.append_nil]
      exact ⟨_, hio⟩
  obtain ⟨_, hio⟩ := hio
  obtain ⟨evs, rest', hp, -, hevs⟩ := of_io_emits hio
  exact ⟨evs, rest', hp, hevs⟩

/-- A call that got all of its pages, and panics on them: the text of the first one
that is no success is longer than an error tells, and has no end at the cap. -/
def Uncut (crates : Crates) (plan : EndpointPlan) (ctx : DispatchContext) (caller_script : Option Slug) (name : String)
    (args : Value) (budget : CallBudget) (devs : List DispatchEvent) : Prop :=
  ∃ planned bound_args request client evs pages bad,
    resolve plan caller_script name = .ok planned ∧
    schema.bind_args planned.api_call.params args = .ok bound_args ∧
    http.bind crates.url crates.values planned.api_call planned.service bound_args = .ok request ∧
    devs = ⟨.client_for planned.service, .ok client⟩ :: evs.map io_event ∧
    (fetch crates ctx planned budget request client).Emits evs (.done (.ok pages)) ∧
    pages.find? (fun p => !p.status.is_success) = some bad ∧ ¬ Cuttable crates bad

/-- What a request asks has an answer. -/
theorem not_stuck_io {α : Type} (p : Io α) : ¬ (Dispatch.io p).Stuck := by
  cases p with
  | done a => exact id
  | ask q next =>
    intro hstuck
    cases q with
    | now => exact hstuck (0 : Nat)
    | env key => exact hstuck (none : Option String)
    | exchange client request =>
      let refused : Exchange := { started := 0, lookup := .error "", outcome := .error ⟨true, []⟩ }
      exact hstuck refused

theorem stuck_settle_iff (fetched : Except PaginateError (List CallResponse)) :
    (settle crates planned request fetched).Stuck ↔ ∃ pages bad, fetched = .ok pages ∧
      pages.find? (fun p => !p.status.is_success) = some bad ∧ ¬ Cuttable crates bad := by
  cases fetched with
  | error e => exact iff_of_false id (by rintro ⟨_, _, ⟨⟩, _⟩)
  | ok pages =>
    rw [settle]
    cases hfind : pages.find? fun p => !p.status.is_success with
    | none =>
      refine iff_of_false (fun hstuck => ?_) (fun ⟨_, _, hpages, hbad, _⟩ => ?_)
      · unfold conclude at hstuck
        simp only [hfind] at hstuck
        split at hstuck
        · exact hstuck
        · exact hstuck
      · cases hpages
        rw [hfind] at hbad
        cases hbad
    | some bad =>
      obtain ⟨hnone, hpanicked⟩ | ⟨hcuttable, reason, detail, hfailure⟩ :=
        @conclude_of_failure crates planned request pages bad hfind
      · rw [hpanicked]
        refine iff_of_true (by rintro ⟨⟩) ⟨pages, bad, rfl, hfind, fun hcuttable => ?_⟩
        exact (http_status_error_some bad).2.mp hcuttable hnone
      · rw [hfailure]
        refine iff_of_false id fun ⟨_, _, hpages, hbad, hnot⟩ => ?_
        cases hpages
        rw [hfind] at hbad
        cases hbad
        exact hnot hcuttable

/-- A call goes no further exactly where it panics on its pages. -/
theorem stuck_iff_uncut {plan : EndpointPlan} {ctx : DispatchContext} {caller_script : Option Slug} {name : String}
    {args : Value} {budget : CallBudget} {devs : List DispatchEvent}
    {rest : Dispatch (Except DispatchError DispatchOutcome)}
    (h : (dispatch crates plan ctx caller_script name args budget).Emits devs rest) :
    rest.Stuck ↔ Uncut crates plan ctx caller_script name args budget devs := by
  constructor
  · intro hstuck
    have hdone : ∀ {devs : List DispatchEvent} {result : Except DispatchError DispatchOutcome},
        ¬ (Prog.done result : Dispatch _).Emits devs rest := by
      intro devs result hemits
      obtain ⟨_, rfl⟩ := hemits.of_done
      exact hstuck
    unfold dispatch at h
    split at h
    · exact absurd h hdone
    rename_i planned hresolve
    unfold dispatch_call at h
    split at h
    · exact absurd h hdone
    rename_i bound_args hargs
    split at h
    · exact absurd h hdone
    rename_i request hbind
    rw [Dispatch.client_for_bind] at h
    obtain ⟨_, rfl⟩ | ⟨answer, devs, rfl, hnext⟩ := h.of_ask
    · exact (hstuck (.error "" : Except String Client)).elim
    obtain e | client := answer
    · exact absurd hnext hdone
    have hsettles : (Dispatch.io (fetch crates ctx planned budget request client) >>=
        settle crates planned request).Emits devs rest := hnext
    obtain ⟨p, hio, hopen, rfl⟩ | ⟨fetched, before, after, rfl, hio, hafter⟩ := hsettles.of_bind_open
    · obtain ⟨_, p, _, rfl, _⟩ := of_io_emits hio
      cases p with
      | done a => exact absurd rfl (hopen a)
      | ask q next => exact absurd hstuck (not_stuck_io (.ask q next))
    · obtain ⟨evs, p, hfetch, hp, rfl⟩ := of_io_emits hio
      have hsettled : (settle crates planned request fetched).Emits after rest := hafter
      obtain rfl := settle_silent hsettled
      obtain rfl := hsettled.eq (.nil _)
      obtain ⟨pages, bad, rfl, hfind, hnot⟩ := (stuck_settle_iff fetched).mp hstuck
      cases p with
      | ask q next => cases hp
      | done fetched =>
        cases hp
        refine ⟨planned, bound_args, request, client, evs, pages, bad, hresolve, hargs, hbind, ?_, hfetch, hfind, hnot⟩
        rw [List.append_nil]
  · rintro ⟨planned, bound_args, request, client, evs, pages, bad, hresolve, hargs, hbind, rfl, hfetch, hfind, hnot⟩
    obtain rfl := h.eq ((dispatch_of_client hresolve hargs hbind).mpr (settle_emits hfetch))
    exact (stuck_settle_iff _).mpr ⟨pages, bad, rfl, hfind, hnot⟩

theorem first_failure {responses : List CallResponse} {k : Nat} {page : CallResponse} (hpage : responses[k]? = some page)
    (hfails : page.status.is_success = false) :
    ∃ (j : Nat) (bad : CallResponse), responses[j]? = some bad ∧ bad.status.is_success = false ∧
      responses.find? (fun p => !p.status.is_success) = some bad := by
  have hsome : (responses.find? fun p => !p.status.is_success).isSome :=
    List.find?_isSome.mpr ⟨page, List.mem_of_getElem? hpage, by rw [hfails]; rfl⟩
  obtain ⟨bad, hbad⟩ := Option.isSome_iff_exists.mp hsome
  obtain ⟨j, hj⟩ := List.mem_iff_getElem?.mp (List.mem_of_find?_eq_some hbad)
  exact ⟨j, bad, hj, by simpa using List.find?_some hbad, hbad⟩

/-- Every run of a call that has its client sends requests in turn. Its pages
that are no success end it with their status exactly if each of them is one
that names no next page, and has a text that can be cut. -/
theorem statuses_fail_iff {plan : EndpointPlan} {ctx : DispatchContext} {caller_script : Option Slug} {name : String}
    {args : Value} {budget : CallBudget} {bound_args : btree.BTreeMap String Value} (client : Client)
    (hresolve : resolve plan caller_script name = .ok planned)
    (hargs : schema.bind_args planned.api_call.params args = .ok bound_args)
    (hbind : http.bind crates.url crates.values planned.api_call planned.service bound_args = .ok request) :
    (∀ devs rest, (dispatch crates plan ctx caller_script name args budget).Emits
        (⟨.client_for planned.service, .ok client⟩ :: devs) rest →
      ∃ evs requests responses outcome, devs = evs.map io_event ∧
        Fetching crates.url crates.json.from_slice client planned.api_call.pagination budget.max_pages.toNat
          (send_params ctx planned budget) budget.max_pages.toNat request evs requests responses outcome) ∧
    ∀ evs requests responses outcome rest,
      Fetching crates.url crates.json.from_slice client planned.api_call.pagination budget.max_pages.toNat
          (send_params ctx planned budget) budget.max_pages.toNat request evs requests responses outcome →
        (dispatch crates plan ctx caller_script name args budget).Emits
          (⟨.client_for planned.service, .ok client⟩ :: evs.map io_event) rest →
      (StatusesFail planned request requests responses rest ↔ ∀ page ∈ responses, page.status.is_success = false →
        Final crates.json.from_slice planned.api_call.pagination page ∧ Cuttable crates page) := by
  constructor
  · intro devs rest hrun
    rw [dispatch_of_client hresolve hargs hbind] at hrun
    obtain ⟨evs, rest', hfetch, rfl⟩ := of_settle_emits hrun
    obtain ⟨requests, responses, outcome, hfetching, -⟩ := fetching_of_emits hfetch
    exact ⟨evs, requests, responses, outcome, rfl, hfetching⟩
  intro evs requests responses outcome rest hfetching hrun
  rw [dispatch_of_client hresolve hargs hbind] at hrun
  -- The end of the loop is the only thing the rest of the call goes on from.
  have hrest : ∀ ended, outcome = some ended → rest = settle crates planned request (ended.map fun _ => responses) := by
    rintro ended rfl
    exact hrun.eq (settle_emits (hfetching.emits []))
  constructor
  · intro hsame page hmem hfails
    obtain ⟨k, hpage⟩ := List.mem_iff_getElem?.mp hmem
    obtain ⟨hlength, reason, detail, hdone⟩ := hsame k page hpage hfails
    obtain hmore | ⟨-, ⟨hnone, houtcome⟩ | ⟨e, houtcome, -⟩⟩ := hfetching.ended hpage
    · omega
    · refine ⟨(next_request_final _ _ _ _).mp hnone, ?_⟩
      obtain ⟨j, bad, hj, hbadfails, hfind⟩ := first_failure hpage hfails
      obtain rfl : j = k := by
        have hj' := (hsame j bad hj hbadfails).1
        omega
      obtain rfl := Option.some.inj (hpage.symm.trans hj)
      have hconclude := hrest _ houtcome
      obtain ⟨-, hpanicked⟩ | ⟨hcuttable, -⟩ := @conclude_of_failure crates planned request responses page hfind
      · have hstuck : rest = Dispatch.panicked := hconclude.trans hpanicked
        rw [hdone] at hstuck
        cases hstuck
      · exact hcuttable
    · have hsent := hrest _ houtcome
      rw [hdone] at hsent
      cases hsent
  · intro hcondition k page hpage hfails
    have hlast : ∀ {j bad}, responses[j]? = some bad → bad.status.is_success = false →
        requests.length = j + 1 ∧ outcome = some (.ok ()) := fun hj hbad =>
      hfetching.final hj ((next_request_final _ _ _ _).mpr (hcondition _ (List.mem_of_getElem? hj) hbad).1)
    obtain ⟨hlength, houtcome⟩ := hlast hpage hfails
    obtain ⟨j, bad, hj, hbadfails, hfind⟩ := first_failure hpage hfails
    obtain rfl : j = k := by
      have hj' := (hlast hj hbadfails).1
      omega
    obtain rfl := Option.some.inj (hpage.symm.trans hj)
    refine ⟨hlength, ?_⟩
    have hconclude := hrest _ houtcome
    obtain ⟨hnone, -⟩ | ⟨-, reason, detail, hfailure⟩ := @conclude_of_failure crates planned request responses page hfind
    · exact absurd hnone ((http_status_error_some page).2.mp (hcondition page (List.mem_of_getElem? hpage) hfails).2)
    · exact ⟨reason, detail, hconclude.trans hfailure⟩

end

/-! An upstream that fails with a text, as the first page of the sample call. -/

def failing_page : CallResponse where
  status := ⟨500, by decide⟩
  headers := []
  url := sample_url
  body := utf8 "oops"

def failing_exchange : Exchange where
  started := 0
  lookup := .error ""
  outcome := .ok { status := ⟨500, by decide⟩, headers := [], content_length := none, chunks := [.ok (utf8 "oops")] }

def paged_planned (pagination : Pagination) : PlannedApiCall :=
  { sample_planned with api_call := { sample_call with pagination } }

def paged_plan (pagination : Pagination) : EndpointPlan :=
  { sample_plan with calls := [(sample_slug, paged_planned pagination)] }

def paged_budget : CallBudget where
  max_response_bytes := 1000
  max_pages := 10
  deadline := 1000

theorem bind_paged (pagination : Pagination) :
    http.bind sample_crates.url sample_crates.values (paged_planned pagination).api_call
      (paged_planned pagination).service [] = .ok sample_bound := by
  have hsample : http.bind sample_crates.url sample_crates.values sample_call sample_service [] = .ok sample_bound := rfl
  unfold http.bind at hsample ⊢
  exact hsample

def failing_events : List IoEvent :=
  [⟨.now, 0⟩, ⟨.now, 0⟩, ⟨.exchange (client_of sample_service {}) (sample_request 1000), failing_exchange⟩]

theorem send_failing (pagination : Pagination) :
    (send sample_crates.url (client_of sample_service {}) sample_bound
      (send_params sample_context (paged_planned pagination) paged_budget)).Emits failing_events
        (.done (.ok failing_page)) := by
  have hread : ∀ response : RawResponse, response.content_length = none → response.chunks = [.ok (utf8 "oops")] →
      read_capped sample_crates.url response
        (send_params sample_context (paged_planned pagination) paged_budget).max_response_bytes = .ok (utf8 "oops") := by
    intro response hlength hchunks
    have hlen : (utf8 "oops").length = 4 := rfl
    have hcap : (send_params sample_context (paged_planned pagination) paged_budget).max_response_bytes = 1000 := rfl
    simp [read_capped, hlength, hchunks, read_chunks, hlen, hcap]
  exact send_emits (client_of sample_service {}) sample_bound 0 0 failing_exchange rfl (Nat.not_lt_zero _) rfl rfl
    rfl (hread _ rfl rfl)

theorem dispatch_failing (pagination : Pagination) {fetched : Except PaginateError (List CallResponse)}
    (h : (fetch sample_crates sample_context (paged_planned pagination) paged_budget sample_bound
      (client_of sample_service {})).Emits failing_events (.done fetched)) :
    (dispatch sample_crates (paged_plan pagination) sample_context none "ping" (.object []) paged_budget).Emits
      (⟨.client_for sample_service, .ok (client_of sample_service {})⟩ :: failing_events.map io_event)
      (settle sample_crates (paged_planned pagination) sample_bound fetched) :=
  (dispatch_of_client rfl rfl (bind_paged pagination)).mpr (settle_emits h)

/-- Without a cursor, the failing page is the failure of its status. -/
theorem failing_page_told :
    ∃ rest, (dispatch sample_crates (paged_plan .None) sample_context none "ping" (.object []) paged_budget).Emits
        (⟨.client_for sample_service, .ok (client_of sample_service {})⟩ :: failing_events.map io_event) rest ∧
      StatusesFail (paged_planned .None) sample_bound [sample_bound] [failing_page] rest := by
  have hfetching : Fetching sample_crates.url sample_crates.json.from_slice (client_of sample_service {}) .None 10
      (send_params sample_context (paged_planned .None) paged_budget) 10 sample_bound failing_events [sample_bound]
      [failing_page] (some (.ok ())) := .last (send_failing .None) rfl
  obtain ⟨-, hiff⟩ := @statuses_fail_iff sample_crates (paged_planned .None) sample_bound (paged_plan .None)
    sample_context none "ping" (.object []) paged_budget [] (client_of sample_service {}) rfl rfl (bind_paged .None)
  have hrun := dispatch_failing .None (hfetching.emits [])
  refine ⟨_, hrun, (hiff _ _ _ _ _ hfetching hrun).mpr fun page hpage _ => ?_⟩
  rw [List.mem_singleton.mp hpage]
  exact ⟨by rintro _ _ ⟨⟩, .inl (by decide +kernel)⟩

/-- With one, it is an answer that is not JSON. -/
theorem failing_page_untold : ¬ ∀ (crates : Crates) (plan : EndpointPlan) (ctx : DispatchContext)
    (caller_script : Option Slug) (name : String) (args : Value) (budget : CallBudget) (planned : PlannedApiCall)
    (bound_args : btree.BTreeMap String Value) (request : BoundRequest) (client : Client),
    resolve plan caller_script name = .ok planned →
      schema.bind_args planned.api_call.params args = .ok bound_args →
        http.bind crates.url crates.values planned.api_call planned.service bound_args = .ok request →
    ∀ evs requests responses outcome rest,
      Fetching crates.url crates.json.from_slice client planned.api_call.pagination budget.max_pages.toNat
          (send_params ctx planned budget) budget.max_pages.toNat request evs requests responses outcome →
        (dispatch crates plan ctx caller_script name args budget).Emits
          (⟨.client_for planned.service, .ok client⟩ :: evs.map io_event) rest →
      StatusesFail planned request requests responses rest := by
  intro h
  have hfetching : Fetching sample_crates.url sample_crates.json.from_slice (client_of sample_service {})
      (.Cursor ⟨["next"]⟩ "page") 10 (send_params sample_context (paged_planned (.Cursor ⟨["next"]⟩ "page")) paged_budget)
      10 sample_bound failing_events [sample_bound] [failing_page] (some (.error (.ResponseNotJson "expected value"))) :=
    .refused (send_failing _) rfl
  obtain ⟨-, reason, detail, hdone⟩ := h sample_crates (paged_plan (.Cursor ⟨["next"]⟩ "page")) sample_context none "ping"
    (.object []) paged_budget (paged_planned (.Cursor ⟨["next"]⟩ "page")) [] sample_bound _ rfl rfl (bind_paged _) _ _ _ _ _
    hfetching (dispatch_failing _ (hfetching.emits [])) 0 failing_page rfl rfl
  cases hdone

end api2mcp.runtime.dispatch
