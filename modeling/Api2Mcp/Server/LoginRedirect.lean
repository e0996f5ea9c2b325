import Api2Mcp.Net.Form
import Api2Mcp.Server.LoginOidc

namespace api2mcp.server.login

open net

/-- Where a login that was given `next` leads. -/
def landing (next : Option String) : String := (validate_next next).getD "/"

theorem validate_next_landing (next : Option String) : validate_next (some (landing next)) = some (landing next) := by
  unfold landing
  cases hnext : validate_next next with
  | none => rfl
  | some n =>
    rw [Option.getD_some]
    unfold validate_next at hnext
    split at hnext
    · cases hnext
    rename_i given
    dsimp only at hnext
    split at hnext
    · rename_i hsafe
      obtain rfl := Option.some.inj hnext
      simp only [validate_next, text.trim_matches_idem]
      rw [if_pos hsafe]
    · cases hnext

theorem landing_idem (next : Option String) : landing (some (landing next)) = landing next := by
  rw [landing, validate_next_landing]
  rfl

/-- A login leads to a text that begins with a slash. -/
theorem landing_slash (next : Option String) : ∃ rest, (landing next).toList = '/' :: rest := by
  have h := validate_next_landing next
  unfold validate_next at h
  dsimp only at h
  split at h
  · rename_i hsafe
    rw [Option.some.inj h] at hsafe
    simp only [Bool.and_eq_true, starts_with, List.isPrefixOf_iff_prefix] at hsafe
    obtain ⟨rest, hrest⟩ := hsafe.1.1.1
    exact ⟨rest, hrest.symm⟩
  · cases h

/-- The `next` of a request for the URL. -/
def query_next (url : String) : Option String :=
  let query := (url.toList.dropWhile (· ≠ '?')).drop 1
  ((form_urlencoded.parse (String.ofList query)).find? fun kv => kv.1 = "next").map (·.2)

theorem parse_encoded_next (first : List (List Char)) (hfirst : ∀ t ∈ first, '&' ∉ t ∧ t ≠ []) (next : String) :
    form_urlencoded.parse (String.ofList
        (['&'].intercalate (first ++ ["next=".toList ++ percent.encode alphanumeric (utf8 next)]))) =
      first.map form_urlencoded.parse_pair ++ [("next", next)] := by
  have hnext : '&' ∉ percent.encode alphanumeric (utf8 next) :=
    form_urlencoded.notMem_encode (show (38 : UInt8) < 128 by decide) (by decide) (by decide) (by decide) _
  have hapart : ∀ t ∈ first ++ ["next=".toList ++ percent.encode alphanumeric (utf8 next)], '&' ∉ t := by
    intro t ht
    obtain ht | ht := List.mem_append.mp ht
    · exact (hfirst t ht).1
    · rw [List.mem_singleton.mp ht]
      simp [hnext]
  have hpair : form_urlencoded.parse_pair ("next=".toList ++ percent.encode alphanumeric (utf8 next)) =
      ("next", next) :=
    form_urlencoded.parse_pair_encoded (by decide) (by decide) (show '=' ∉ "next".toList by decide) next
  rw [form_urlencoded.parse, String.toList_ofList, List.splitOn_intercalate '&' hapart (by simp),
    List.filter_eq_self.mpr, List.map_append, List.map_singleton, hpair]
  intro t ht
  obtain ht | ht := List.mem_append.mp ht
  · simpa using (hfirst t ht).2
  · rw [List.mem_singleton.mp ht]
    simp

theorem after_mark {path : List Char} (hpath : '?' ∉ path) (query : List Char) :
    ((path ++ '?' :: query).dropWhile (· ≠ '?')).drop 1 = query := by
  have hall : ∀ c ∈ path, decide (c ≠ '?') = true := fun c hc => decide_eq_true fun heq => hpath (heq ▸ hc)
  rw [List.dropWhile_append_of_pos hall, List.dropWhile_cons_of_neg (by decide), List.drop_one, List.tail_cons]

theorem query_next_of {path query : List Char} {url : String} (hurl : url.toList = path ++ '?' :: query)
    (hpath : '?' ∉ path) : query_next url =
      ((form_urlencoded.parse (String.ofList query)).find? fun kv => kv.1 = "next").map (·.2) := by
  rw [query_next, hurl, after_mark hpath]

theorem toList_append_ofList (s : String) (cs : List Char) : (s ++ String.ofList cs).toList = s.toList ++ cs := by
  rw [String.toList_append]
  exact congrArg _ String.toList_ofList

theorem query_next_oidc_start_url (next : String) : query_next (oidc_start_url next) = some next := by
  have hparse := parse_encoded_next [] (by simp) next
  rw [List.nil_append, List.intercalate_singleton] at hparse
  have hurl : (oidc_start_url next).toList = "/login/oidc/start".toList ++ '?' ::
      ("next=".toList ++ percent.encode alphanumeric (utf8 next)) := by
    rw [show oidc_start_url next = "/login/oidc/start?next=" ++
      String.ofList (percent.encode alphanumeric (utf8 next)) from rfl, toList_append_ofList,
      String.toList_ofList, String.toList_ofList, String.toList_ofList]
    rfl
  rw [query_next_of hurl (by decide), hparse]
  rfl

theorem query_next_login_failed (next : String) :
    query_next ("/login?error=oidc&next=" ++ String.ofList (percent.encode alphanumeric (utf8 next))) = some next := by
  have hparse := parse_encoded_next ["error=oidc".toList] (by simp) next
  have hurl : ("/login?error=oidc&next=" ++ String.ofList (percent.encode alphanumeric (utf8 next))).toList =
      "/login".toList ++ '?' ::
        ['&'].intercalate (["error=oidc".toList] ++ ["next=".toList ++ percent.encode alphanumeric (utf8 next)]) := by
    rw [toList_append_ofList, List.singleton_append, List.intercalate_cons_cons, List.intercalate_singleton,
      String.toList_ofList, String.toList_ofList, String.toList_ofList, String.toList_ofList]
    rfl
  have hfirst : ["error=oidc".toList].map form_urlencoded.parse_pair = [("error", "oidc")] := by
    rw [String.toList_ofList]
    decide +kernel
  rw [query_next_of hurl (by decide), hparse, hfirst]
  rfl

section

open login_oidc

/-! The pages and redirects that a `next` goes through before a login ends. -/

/-- A page that was rendered for `next`: on the way in, or after a login that
failed. -/
inductive Rendered (crate : UrlCrate) (cfg : Config) (next : Option String) : LoginPage → Prop
  | get_login (failed : Bool) (page : LoginPage) : (login.get_login crate cfg next failed).page = some page →
      Rendered crate cfg next page
  | post_login (verify : String → String → Except store.StoreError (Option Uuid))
      (create : Uuid → Except String String) (form : LoginForm) (page : LoginPage) : form.next = next →
      (login.post_login crate cfg verify create form).page = some page → Rendered crate cfg next page

/-- A flow cookie that a start with `next` has set. -/
def Started (crate : UrlCrate) (flows : FlowCrate) (cfg : Config) (oidc_cfg : OidcConfig) (next : Option String)
    (value : String) : Prop :=
  ∃ answers pkce state, ∃ cookie ∈ (get_oidc_start crate flows cfg oidc_cfg answers pkce state next).set_cookie,
    cookie.value = value

/-- A session began. -/
def SignedIn (response : Response) : Prop := ∃ cookie ∈ response.set_cookie, cookie.name = SESSION_COOKIE_NAME

/-- What `next` reaches the server as: as it was given, through the hidden field
and the link of a page, and through the redirect after an attempt that failed. -/
inductive Entered (crate : UrlCrate) (flows : FlowCrate) (cfg : Config) (next : Option String) :
    Option String → Prop
  | given : Entered crate flows cfg next next
  | hidden {n : Option String} (page : LoginPage) : Entered crate flows cfg next n → Rendered crate cfg n page →
      Entered crate flows cfg next (some page.next)
  | link {n : Option String} (page : LoginPage) (label url : String) : Entered crate flows cfg next n →
      Rendered crate cfg n page → page.oidc_link = some (label, url) → Entered crate flows cfg next (query_next url)
  | not_started {n : Option String} (oidc_cfg : OidcConfig) (answers : Answers) (pkce : Pkce) (state e url : String) :
      Entered crate flows cfg next n → answers.discover oidc_cfg.issuer = .error e →
      (get_oidc_start crate flows cfg oidc_cfg answers pkce state n).location = some url →
      Entered crate flows cfg next (query_next url)
  | not_completed {n : Option String} (oidc_cfg : OidcConfig) (answers : Answers) (query : OidcCallbackQuery)
      (header value url : String) : Entered crate flows cfg next n → Started crate flows cfg oidc_cfg n value →
      auth.cookie_value header OIDC_FLOW_COOKIE_NAME = some value →
      ¬ SignedIn (get_oidc_callback flows cfg oidc_cfg answers query (some header)) →
      (get_oidc_callback flows cfg oidc_cfg answers query (some header)).location = some url →
      Entered crate flows cfg next (query_next url)

/-- The response that ends a login that began with `next`: of the form, or of
the callback of a flow, with a session. -/
inductive Ends (crate : UrlCrate) (flows : FlowCrate) (cfg : Config) (next : Option String) : Response → Prop
  | password {n : Option String} (verify : String → String → Except store.StoreError (Option Uuid))
      (create : Uuid → Except String String) (form : LoginForm) : Entered crate flows cfg next n → form.next = n →
      SignedIn (login.post_login crate cfg verify create form) →
      Ends crate flows cfg next (login.post_login crate cfg verify create form)
  | oidc {n : Option String} (oidc_cfg : OidcConfig) (answers : Answers) (query : OidcCallbackQuery)
      (header value : String) : Entered crate flows cfg next n → Started crate flows cfg oidc_cfg n value →
      auth.cookie_value header OIDC_FLOW_COOKIE_NAME = some value →
      SignedIn (get_oidc_callback flows cfg oidc_cfg answers query (some header)) →
      Ends crate flows cfg next (get_oidc_callback flows cfg oidc_cfg answers query (some header))

variable {crate : UrlCrate} {flows : FlowCrate} {cfg : Config} {next : Option String}

theorem set_cookie_redirect_to (location : String) (cookies : List SetCookie) :
    (redirect_to location cookies).set_cookie = cookies := by
  unfold redirect_to
  split
  · rfl
  · rfl

theorem location_redirect_to {location url : String} {cookies : List SetCookie}
    (h : (redirect_to location cookies).location = some url) : url = location := by
  unfold redirect_to at h
  split at h
  · exact (Option.some.inj h).symm
  · cases h

/-- The form leads where it was told to, or the page is shown again. -/
theorem post_login_cases (crate : UrlCrate) (cfg : Config) (verify : String → String → Except store.StoreError (Option Uuid))
    (create : Uuid → Except String String) (form : LoginForm) :
    (∃ cookies, login.post_login crate cfg verify create form = redirect_to (landing form.next) cookies) ∨
      ∃ status error, login.post_login crate cfg verify create form =
        page_response status (render_login_page crate cfg (landing form.next) error) := by
  unfold login.post_login
  split
  · exact .inr ⟨_, _, rfl⟩
  · exact .inr ⟨_, _, rfl⟩
  · split
    · exact .inr ⟨_, _, rfl⟩
    · exact .inl ⟨_, rfl⟩

theorem page_of_rendered {page : LoginPage} (h : Rendered crate cfg next page) :
    ∃ error, page = render_login_page crate cfg (landing next) error := by
  cases h with
  | get_login failed page hpage => exact ⟨_, (Option.some.inj hpage).symm⟩
  | post_login verify create form page hnext hpage =>
    subst hnext
    obtain ⟨cookies, hredirect⟩ | ⟨status, error, hshown⟩ := post_login_cases crate cfg verify create form
    · rw [hredirect] at hpage
      unfold redirect_to at hpage
      split at hpage
      · cases hpage
      · cases hpage
    · rw [hshown] at hpage
      exact ⟨error, (Option.some.inj hpage).symm⟩

theorem flow_of_started {oidc_cfg : OidcConfig} {value : String} (h : Started crate flows cfg oidc_cfg next value) :
    ∃ state verifier, value = flows.encode_flow ⟨state, verifier, landing next⟩ := by
  obtain ⟨answers, pkce, state, cookie, hcookie, rfl⟩ := h
  unfold get_oidc_start at hcookie
  dsimp only at hcookie
  split at hcookie
  · rw [login_failed_redirect, set_cookie_redirect_to] at hcookie
    cases hcookie
  split at hcookie
  · rw [login_failed_redirect, set_cookie_redirect_to] at hcookie
    cases hcookie
  rw [set_cookie_redirect_to, List.mem_singleton] at hcookie
  rw [hcookie]
  exact ⟨_, _, rfl⟩

/-- A callback leads where its flow was told to, with a session, or back to the
login without one. -/
theorem get_oidc_callback_cases (hflows : ∀ flow, flows.decode_flow (flows.encode_flow flow) = some flow)
    {oidc_cfg : OidcConfig} {value header : String} (hstarted : Started crate flows cfg oidc_cfg next value)
    (hcookie : auth.cookie_value header OIDC_FLOW_COOKIE_NAME = some value) (answers : Answers)
    (query : OidcCallbackQuery) :
    (∃ cookie_value, get_oidc_callback flows cfg oidc_cfg answers query (some header) =
        redirect_to (landing next)
          [set_cookie_header cfg cookie_value cfg.session_ttl, clear_flow_cookie cfg]) ∨
      get_oidc_callback flows cfg oidc_cfg answers query (some header) = clear_flow_and_fail cfg (landing next) := by
  obtain ⟨state, verifier, rfl⟩ := flow_of_started hstarted
  simp only [get_oidc_callback, Option.bind_some, hcookie, hflows]
  split
  · exact .inr rfl
  split
  · split
    · exact .inr rfl
    · split
      · exact .inr rfl
      · exact .inl ⟨_, rfl⟩
  · exact .inr rfl

theorem query_next_of_failed {n url : String} {cookies : List SetCookie}
    (h : (login_failed_redirect n cookies).location = some url) : query_next url = some n := by
  rw [login_failed_redirect] at h
  rw [location_redirect_to h]
  exact query_next_login_failed n

/-- Whatever it goes through, `next` leads to the same place. -/
theorem landing_of_entered (hflows : ∀ flow, flows.decode_flow (flows.encode_flow flow) = some flow)
    {n : Option String} (h : Entered crate flows cfg next n) : landing n = landing next := by
  induction h with
  | given => rfl
  | hidden page _ hrendered ih =>
    obtain ⟨error, rfl⟩ := page_of_rendered hrendered
    exact (landing_idem _).trans ih
  | link page label url _ hrendered hlink ih =>
    obtain ⟨error, rfl⟩ := page_of_rendered hrendered
    obtain ⟨oidc_cfg, -, hpair⟩ := Option.map_eq_some_iff.mp hlink
    obtain ⟨-, rfl⟩ := Prod.mk.inj hpair
    rw [query_next_oidc_start_url, landing_idem]
    exact ih
  | not_started oidc_cfg answers pkce state e url _ hfailed hurl ih =>
    simp only [get_oidc_start, hfailed] at hurl
    rw [query_next_of_failed hurl]
    exact (landing_idem _).trans ih
  | not_completed oidc_cfg answers query header value url _ hstarted hcookie hnot hurl ih =>
    obtain ⟨cookie_value, hdone⟩ | hfailed := get_oidc_callback_cases hflows hstarted hcookie answers query
    · refine absurd ⟨set_cookie_header cfg cookie_value cfg.session_ttl, ?_, rfl⟩ hnot
      rw [hdone, set_cookie_redirect_to]
      exact List.mem_cons_self ..
    · rw [hfailed, clear_flow_and_fail] at hurl
      rw [query_next_of_failed hurl, landing_idem]
      exact ih

theorem redirect_of_ends (hflows : ∀ flow, flows.decode_flow (flows.encode_flow flow) = some flow)
    {response : Response} (h : Ends crate flows cfg next response) :
    ∃ cookies, response = redirect_to (landing next) cookies := by
  cases h with
  | password verify create form hentered hform hsigned =>
    subst hform
    obtain ⟨cookies, hredirect⟩ | ⟨status, error, hshown⟩ := post_login_cases crate cfg verify create form
    · exact ⟨cookies, landing_of_entered hflows hentered ▸ hredirect⟩
    · obtain ⟨cookie, hcookie, -⟩ := hsigned
      rw [hshown] at hcookie
      cases hcookie
  | oidc oidc_cfg answers query header value hentered hstarted hcookie hsigned =>
    obtain ⟨cookie_value, hdone⟩ | hfailed := get_oidc_callback_cases hflows hstarted hcookie answers query
    · exact ⟨_, landing_of_entered hflows hentered ▸ hdone⟩
    · obtain ⟨cookie, hmem, hname⟩ := hsigned
      rw [hfailed, clear_flow_and_fail, login_failed_redirect, set_cookie_redirect_to, List.mem_singleton] at hmem
      rw [hmem] at hname
      have hother : OIDC_FLOW_COOKIE_NAME ≠ SESSION_COOKIE_NAME := by decide
      exact absurd hname hother

/-- Without tabs, the text has no second slash after its first; or what follows
the slashes is the host and port of the base. -/
def Stays (host_parse : List Char → Option Host) (base : Url) (location : String) : Prop :=
  ∀ c rest, whatwg.preprocess location = '/' :: c :: rest → whatwg.is_slash c = true →
    whatwg.special_authority_ignore_slashes_state host_parse base.scheme rest = some base.origin

/-- Every login leads to the origin of the base URL, if and only if the text it
was told to go to does not begin, tabs aside, with a second slash. -/
theorem login_stays_iff (host_parse : List Char → Option Host) (base : Url)
    (hflows : ∀ flow, flows.decode_flow (flows.encode_flow flow) = some flow) {response : Response}
    (h : Ends crate flows cfg next response) {location : String} (hlocation : response.location = some location) :
    whatwg.resolve_origin host_parse base location = some base.origin ↔ Stays host_parse base (landing next) := by
  obtain ⟨cookies, rfl⟩ := redirect_of_ends hflows h
  rw [location_redirect_to hlocation]
  obtain ⟨rest, hrest⟩ := landing_slash next
  obtain ⟨rest', hread⟩ := whatwg.preprocess_of_slash hrest
  rw [whatwg.resolve_origin_of_slash hread]
  constructor
  · intro hsame c rest'' hslash hc
    obtain ⟨-, rfl⟩ := List.cons.inj (hread.symm.trans hslash)
    rw [whatwg.relative_slash_state, if_pos hc] at hsame
    exact hsame
  · intro hstays
    cases rest' with
    | nil => rfl
    | cons c rest'' =>
      rw [whatwg.relative_slash_state]
      split
      · rename_i hc
        exact hstays c rest'' hread hc
      · rfl

def form_flows : FlowCrate where
  encode_flow flow :=
    form_urlencoded.serialize [("state", flow.state), ("verifier", flow.verifier), ("next", flow.next)]
  decode_flow value :=
    match form_urlencoded.parse value with
    | [(_, state), (_, verifier), (_, next)] => some ⟨state, verifier, next⟩
    | _ => none

theorem form_flows_decode (flow : FlowState) : form_flows.decode_flow (form_flows.encode_flow flow) = some flow := by
  simp only [form_flows, form_urlencoded.parse_serialize]

def local_cfg : Config where
  base_url := "http://test.local:8080"
  session_ttl := 3600
  oidc := none

def local_base : Url := { scheme := "http", host := some (.Domain "test.local"), port := some 8080 }

/-- Names in ASCII are their own hosts. -/
def ascii_host (name : List Char) : Option Host := some (.Domain (String.ofList name))

def local_login (next : String) : Response :=
  login.post_login default local_cfg (fun _ _ => .ok (some 1)) (fun _ => .ok "token") ⟨"", "", some next⟩

theorem local_login_ends {next : String} (h : SignedIn (local_login next)) :
    Ends default form_flows local_cfg (some next) (local_login next) :=
  .password _ _ _ .given rfl h

theorem login_stays_runs : whatwg.resolve_origin ascii_host local_base "/runs" = some local_base.origin := by
  have hends : Ends default form_flows local_cfg (some "/runs") (local_login "/runs") :=
    local_login_ends ⟨_, List.mem_singleton_self _, rfl⟩
  have hread : whatwg.preprocess (landing (some "/runs")) = ['/', 'r', 'u', 'n', 's'] := by decide +kernel
  refine (login_stays_iff ascii_host local_base form_flows_decode hends (by decide +kernel)).mpr ?_
  intro c rest hslash hc
  rw [hread] at hslash
  obtain ⟨-, hrest⟩ := List.cons.inj hslash
  obtain ⟨rfl, -⟩ := List.cons.inj hrest
  cases hc

/-- A tab between the slashes: the text passes, and leads to another host. -/
theorem login_leaves :
    Ends default form_flows local_cfg (some "/\t/evil.example") (local_login "/\t/evil.example") ∧
      (local_login "/\t/evil.example").location = some "/\t/evil.example" ∧
      whatwg.resolve_origin ascii_host local_base "/\t/evil.example" =
        some (.Tuple "http" (.Domain "evil.example") 80) ∧
      whatwg.resolve_origin ascii_host local_base "/\t/evil.example" ≠ some local_base.origin := by
  refine ⟨local_login_ends ⟨set_cookie_header local_cfg "token" 3600, ?_, rfl⟩, ?_, ?_, ?_⟩
  all_goals decide +kernel

end

end api2mcp.server.login
