import Api2Mcp.Concurrent.Trace
import Api2Mcp.Control.Except
import Api2Mcp.Net.Html
import Api2Mcp.Server.LoginRedirect
import Api2Mcp.Server.Oauth.Authorize
import Api2Mcp.Text.Utf8
import Mathlib.Data.List.Infix

namespace api2mcp.server

open concurrent net
open api2mcp.store

/-- The query string of a request. -/
def query_string (path_and_query : String) : String :=
  String.ofList ((path_and_query.toList.dropWhile (· ≠ '?')).drop 1)

/-- A field of a query or a form, which may be given once. -/
def form_field (pairs : List (String × String)) (name : String) : Except String (Option String) :=
  match pairs.filter (·.1 = name) with
  | [] => .ok none
  | [kv] => .ok (some kv.2)
  | _ => .error ("duplicate field " ++ name)

namespace oauth.authorize

deriving instance DecidableEq for AuthorizeQuery

/-- `Query(q)`. -/
def read_query (path_and_query : String) : Except String AuthorizeQuery := do
  let pairs := form_urlencoded.parse (query_string path_and_query)
  return { response_type := ← form_field pairs "response_type"
           client_id := ← form_field pairs "client_id"
           redirect_uri := ← form_field pairs "redirect_uri"
           code_challenge := ← form_field pairs "code_challenge"
           code_challenge_method := ← form_field pairs "code_challenge_method"
           scope := ← form_field pairs "scope"
           state := ← form_field pairs "state"
           resource := ← form_field pairs "resource" }

end oauth.authorize

namespace login

structure LoginQuery where
  next : Option String
  error : Option String

/-- `Query(query)`. -/
def read_query (path_and_query : String) : Except String LoginQuery := do
  let pairs := form_urlencoded.parse (query_string path_and_query)
  return { next := ← form_field pairs "next", error := ← form_field pairs "error" }

/-- `Form(form)`. -/
def read_form (body : String) : Except String LoginForm := do
  let pairs := form_urlencoded.parse body
  let some email ← form_field pairs "email" | throw "missing field email"
  let some password ← form_field pairs "password" | throw "missing field password"
  return { email, password, next := ← form_field pairs "next" }

/-- `str::replace`, of one character. -/
def replace (c : Char) (with_text : String) (s : String) : String :=
  String.ofList (s.toList.flatMap fun d => if d = c then with_text.toList else [d])

def html_escape (s : String) : String :=
  replace html.APOSTROPHE "&#39;" (replace '"' "&quot;" (replace '>' "&gt;" (replace '<' "&lt;"
    (replace '&' "&amp;" s))))

/-- The hidden input of the form that `render_page` writes. -/
def next_input (next : String) : String :=
  "<input type=\"hidden\" name=\"next\" value=\"" ++ html_escape next ++ "\">"

/-- What a browser posts of the form, with what its user types. -/
def submission (page : LoginPage) (email password : String) : Option String :=
  (html.input_entry (next_input page.next)).map fun next =>
    form_urlencoded.serialize [next, ("email", email), ("password", password)]

/-- A browser goes to the login at `location`, and its user submits the form. -/
def log_in (crate : UrlCrate) (cfg : Config) (verify_password : String → String → Except StoreError (Option Uuid))
    (create_session : Uuid → Except String String) (email password location : String) : Except String Response := do
  let query ← read_query location
  let shown := (get_login crate cfg query.next query.error.isSome).page
  let some body := shown.bind fun page => submission page email password | throw "no form"
  let form ← read_form body
  return post_login crate cfg verify_password create_session form

end login

/-- The path and query of an authorization request: no part of it is a control
character or a space. -/
structure AuthorizeTarget where
  text : String
  path : ∃ query, text = "/oauth/authorize" ++ query
  legal : ∀ c ∈ text.toList, 32 < c.toNat ∧ c.toNat ≠ 127

namespace login

section

theorem toList_replace (c : Char) (with_text s : String) :
    (replace c with_text s).toList = s.toList.flatMap fun d => if d = c then with_text.toList else [d] := by
  rw [replace, String.toList_ofList]

/-- One replacement after the other is one escape for each character: what is
put in holds no character that is replaced later. -/
theorem toList_html_escape (s : String) : (html_escape s).toList = s.toList.flatMap html.escape := by
  rw [html_escape]
  simp only [toList_replace, List.flatMap_assoc]
  refine congrArg (List.flatMap · s.toList) (funext fun c => ?_)
  unfold html.escape
  split
  · rfl
  rw [List.flatMap_singleton]
  split
  · rfl
  rw [List.flatMap_singleton]
  split
  · rfl
  rw [List.flatMap_singleton]
  split
  · rfl
  rw [List.flatMap_singleton]

/-- The entry of an input whose value was written without a quote. -/
theorem input_entry_of {tag next : String} {value : List Char}
    (htag : tag.toList = "<input type=\"hidden\" name=\"next\" value=\"".toList ++ value ++ "\">".toList)
    (hquote : '"' ∉ value) (hread : html.read_value none value = next.toList) :
    html.input_entry tag = some ("next", next) := by
  have happart : ∀ part ∈ ["<input type=".toList, "hidden".toList, " name=".toList, "next".toList,
      " value=".toList, value, ">".toList], '"' ∉ part := by
    simp [hquote]
  have hparts : tag.toList = ['"'].intercalate ["<input type=".toList, "hidden".toList,
      " name=".toList, "next".toList, " value=".toList, value, ">".toList] := by
    rw [htag]
    rfl
  have hattributes : html.attributes tag = [("type", "hidden"), ("name", "next"), ("value", next)] := by
    rw [html.attributes, hparts, List.splitOn_intercalate '"' happart (by simp)]
    simp only [html.attributes_of, hread, String.ofList_toList]
    rfl
  rw [html.input_entry, hattributes]
  rfl

theorem entry_next_input (next : String) : html.input_entry (next_input next) = some ("next", next) := by
  have hescape := toList_html_escape next
  have htext : (next_input next).toList =
      "<input type=\"hidden\" name=\"next\" value=\"".toList ++ (html_escape next).toList ++ "\">".toList :=
    String.toList_append.trans (congrArg (· ++ "\">".toList) String.toList_append)
  refine input_entry_of htext ?_ ?_
  · rw [hescape]
    exact html.quote_notMem_escaped _
  · rw [hescape]
    exact html.read_escaped _

theorem contains_iff {s pattern : String} : contains s pattern = true ↔ pattern.toList <:+: s.toList := by
  rw [contains, List.any_eq_true, List.infix_iff_prefix_suffix]
  simp only [List.mem_tails, List.isPrefixOf_iff_prefix]
  exact exists_congr fun t => and_comm

end

section

variable {crate : UrlCrate} {cfg : Config} {verify : String → String → Except StoreError (Option Uuid)}
  {create : Uuid → Except String String} {email password cookie : String} {user : Uuid}

theorem read_submission (next email password : String) :
    read_form (form_urlencoded.serialize [("next", next), ("email", email), ("password", password)]) =
      .ok ⟨email, password, some next⟩ := by
  unfold read_form
  rw [form_urlencoded.parse_serialize]
  simp [form_field]

theorem query_string_of {path query : List Char} {url : String} (hurl : url.toList = path ++ '?' :: query)
    (hpath : '?' ∉ path) : query_string url = String.ofList query := by
  rw [query_string, hurl, after_mark hpath]

theorem read_bounce (target : String) :
    read_query ("/login?next=" ++ oauth.percent_encode target) = .ok ⟨some target, none⟩ := by
  have hparse := parse_encoded_next [] (by simp) target
  rw [List.nil_append, List.intercalate_singleton] at hparse
  have hurl : ("/login?next=" ++ oauth.percent_encode target).toList = "/login".toList ++ '?' ::
      ("next=".toList ++ percent.encode alphanumeric (utf8 target)) :=
    toList_append_ofList _ _
  unfold read_query
  rw [query_string_of hurl (by decide), hparse]
  rfl

theorem next_render_login_page (next : String) (error : Option String) :
    (render_login_page crate cfg next error).next = next := rfl

theorem submission_eq (page : LoginPage) (email password : String) : submission page email password =
    some (form_urlencoded.serialize [("next", page.next), ("email", email), ("password", password)]) := by
  rw [submission, entry_next_input, Option.map_some]

theorem log_in_of {location body : String} {query : LoginQuery} {page : LoginPage} {form : LoginForm}
    (hquery : read_query location = .ok query)
    (hshown : (get_login crate cfg query.next query.error.isSome).page = some page)
    (hbody : submission page email password = some body) (hform : read_form body = .ok form) :
    log_in crate cfg verify create email password location = .ok (post_login crate cfg verify create form) := by
  unfold log_in
  refine except.bind_eq_ok.mpr ⟨query, hquery, ?_⟩
  dsimp only
  rw [hshown, Option.bind_some, hbody]
  exact except.bind_eq_ok.mpr ⟨form, hform, rfl⟩

/-- A login that succeeds leads to where its query says, through the form and
back. -/
theorem log_in_bounced (target : String) (hverify : verify email password = .ok (some user))
    (hcreate : create user = .ok cookie) :
    log_in crate cfg verify create email password ("/login?next=" ++ oauth.percent_encode target) =
      .ok (redirect_to (landing (some target)) [set_cookie_header cfg cookie cfg.session_ttl]) := by
  have hpost : post_login crate cfg verify create ⟨email, password, some (landing (some target))⟩ =
      redirect_to (landing (some target)) [set_cookie_header cfg cookie cfg.session_ttl] := by
    rw [post_login]
    dsimp only
    rw [hverify]
    dsimp only
    rw [hcreate]
    dsimp only
    rw [validate_next_landing, Option.getD_some]
  have hshown : (get_login crate cfg (some target) false).page =
      some (render_login_page crate cfg (landing (some target)) none) := rfl
  have hbody := submission_eq (render_login_page crate cfg (landing (some target)) none) email password
  rw [next_render_login_page] at hbody
  have hform := read_submission (landing (some target)) email password
  have hlogged := @log_in_of crate cfg verify create email password _ _ _ _ _ (read_bounce target) hshown hbody hform
  rw [hlogged, hpost]

end

/-- A character that is no control character, and no space, may stand in a
header value. -/
theorem all_is_valid {c : Char} (h : 32 < c.toNat ∧ c.toNat ≠ 127) :
    (String.utf8EncodeChar c).all HeaderValue.is_valid = true := by
  have hbyte : ∀ n : Nat, 32 ≤ n % 256 → n % 256 ≠ 127 → HeaderValue.is_valid (UInt8.ofNat n) = true := by
    intro n hlow hne
    have hnat : (UInt8.ofNat n).toNat = n % 256 := UInt8.toNat_ofNat'
    have hge : 32 ≤ UInt8.ofNat n := by
      rw [UInt8.le_iff_toNat_le, hnat]
      exact hlow
    have hother : UInt8.ofNat n ≠ 127 := fun heq => by
      rw [heq] at hnat
      exact hne hnat.symm
    simp [HeaderValue.is_valid, hge, hother]
  obtain ⟨hspace, hdelete⟩ := h
  have hval : c.toNat = c.val.toNat := rfl
  unfold String.utf8EncodeChar
  dsimp only
  split
  · simp only [List.all_cons, List.all_nil, Bool.and_true]
    exact hbyte _ (by omega) (by omega)
  split
  · simp only [List.all_cons, List.all_nil, Bool.and_true, Bool.and_eq_true]
    exact ⟨hbyte _ (by omega) (by omega), hbyte _ (by omega) (by omega)⟩
  split
  · simp only [List.all_cons, List.all_nil, Bool.and_true, Bool.and_eq_true]
    exact ⟨hbyte _ (by omega) (by omega), hbyte _ (by omega) (by omega), hbyte _ (by omega) (by omega)⟩
  · simp only [List.all_cons, List.all_nil, Bool.and_true, Bool.and_eq_true]
    exact ⟨hbyte _ (by omega) (by omega), hbyte _ (by omega) (by omega), hbyte _ (by omega) (by omega),
      hbyte _ (by omega) (by omega)⟩

section

variable (target : AuthorizeTarget)

theorem target_begins : ∃ rest, target.text.toList = '/' :: 'o' :: rest := by
  obtain ⟨query, hquery⟩ := target.path
  refine ⟨"auth/authorize".toList ++ query.toList, ?_⟩
  rw [hquery, String.toList_append]
  rfl

theorem trim_target (hback : ∀ front c, target.text.toList = front ++ [c] → http.is_whitespace c = false) :
    text.trim_matches http.is_whitespace target.text = target.text := by
  obtain ⟨rest, hrest⟩ := target_begins target
  refine text.trim_matches_of_ends (fun c rest' heq => ?_) hback
  obtain ⟨rfl, -⟩ := List.cons.inj (hrest.symm.trans heq)
  decide

/-- The login leads back to a target that has no second scheme in it, and
nothing at its end that is trimmed. -/
theorem landing_target_iff : landing (some target.text) = target.text ↔
    (¬ "://".toList <:+: target.text.toList) ∧
      ∀ front c, target.text.toList = front ++ [c] → http.is_whitespace c = false := by
  constructor
  · intro h
    have hvalid := validate_next_landing (some target.text)
    rw [h] at hvalid
    unfold validate_next at hvalid
    dsimp only at hvalid
    split at hvalid
    · rename_i hsafe
      have htrim := Option.some.inj hvalid
      have hends := (text.trim_matches_ends http.is_whitespace target.text).2
      rw [htrim] at hsafe hends
      refine ⟨fun hscheme => ?_, hends⟩
      rw [contains_iff.mpr hscheme, Bool.not_true, Bool.and_false] at hsafe
      cases hsafe
    · cases hvalid
  · rintro ⟨hscheme, hback⟩
    obtain ⟨rest, hrest⟩ := target_begins target
    have hcontains : contains target.text "://" = false :=
      Bool.eq_false_iff.mpr fun h => hscheme (contains_iff.mp h)
    have hslash : starts_with target.text "/" = true := by
      rw [starts_with, hrest]
      rfl
    have hdouble : starts_with target.text "//" = false := by
      rw [starts_with, hrest]
      rfl
    have hbackslash : starts_with target.text "/\\" = false := by
      rw [starts_with, hrest]
      rfl
    rw [landing, validate_next, trim_target target hback, hslash, hdouble, hbackslash, hcontains]
    rfl

/-- A target with a second scheme in it leads to the dashboard. -/
theorem landing_of_scheme (hscheme : "://".toList <:+: target.text.toList)
    (hback : ∀ front c, target.text.toList = front ++ [c] → http.is_whitespace c = false) :
    landing (some target.text) = "/" := by
  rw [landing, validate_next, trim_target target hback, contains_iff.mpr hscheme, Bool.not_true, Bool.and_false]
  rfl

theorem header_value_target : (HeaderValue.from_str target.text).isSome = true :=
  (HeaderValue.isSome_from_str _).mpr fun c hc => all_is_valid (target.legal c hc)

end

section

variable {st : Nat → AuthDb} {n m : Nat} {sha256_hex : String → String} {parse_uuid : String → Option Uuid}
  {uuid_text : Uuid → String} {q : oauth.authorize.AuthorizeQuery} {drawn : oauth.authorize.Drawn}
  {path_and_query location : String}

/-- An authorization of nobody that is not refused leads to the login. -/
theorem location_of_bounce
    (h : Task.Ran st n (oauth.authorize.authorize sha256_hex parse_uuid uuid_text q none path_and_query drawn) m
      (.done (.ok location))) : location = "/login?next=" ++ oauth.percent_encode path_and_query := by
  unfold oauth.authorize.authorize at h
  split at h
  · obtain ⟨-, hdone⟩ := Task.ran_done.mp h
    cases hdone
  obtain ⟨k, answer, -, hrest⟩ := h.bind
  dsimp only at hrest
  split at hrest
  · obtain ⟨-, hdone⟩ := Task.ran_done.mp hrest
    cases hdone
  split at hrest
  · obtain ⟨-, hdone⟩ := Task.ran_done.mp hrest
    cases hdone
  · obtain ⟨-, hdone⟩ := Task.ran_done.mp hrest
    exact (Except.ok.inj hdone).symm

variable {crate : UrlCrate} {cfg : Config} {verify : String → String → Except StoreError (Option Uuid)}
  {create : Uuid → Except String String} {email password cookie : String} {user : Uuid}

/-- A login that an authorization led to, and that succeeds, leads back to the
request, if and only if no `://` is in it and its last character is not one
that is trimmed. -/
theorem authorization_survives_iff (target : AuthorizeTarget)
    (hbounced : Task.Ran st n (oauth.authorize.authorize sha256_hex parse_uuid uuid_text q none target.text drawn) m
      (.done (.ok location)))
    (hverify : verify email password = .ok (some user)) (hcreate : create user = .ok cookie) :
    ∃ response, log_in crate cfg verify create email password location = .ok response ∧ SignedIn response ∧
      (response.location = some target.text ↔
        (¬ "://".toList <:+: target.text.toList) ∧
          ∀ front c, target.text.toList = front ++ [c] → http.is_whitespace c = false) := by
  obtain rfl := location_of_bounce hbounced
  refine ⟨_, log_in_bounced target.text hverify hcreate, ?_, ?_⟩
  · rw [SignedIn, set_cookie_redirect_to]
    exact ⟨_, List.mem_singleton_self _, rfl⟩
  · rw [← landing_target_iff]
    constructor
    · intro hlocation
      exact (location_redirect_to hlocation).symm
    · intro hlanding
      rw [hlanding, redirect_to, if_pos (header_value_target target)]

end

theorem toList_parts (r s t : String) : (r ++ s ++ t).toList = r.toList ++ s.toList ++ t.toList := by
  rw [String.toList_append, String.toList_append]

/-- A text ends as its last part does. -/
theorem ends_of_last {s t : String} {last : Char} (hlast : t.toList.getLast? = some last)
    (hspace : http.is_whitespace last = false) (front : List Char) (c : Char) (h : (s ++ t).toList = front ++ [c]) :
    http.is_whitespace c = false := by
  have hends := congrArg List.getLast? h
  rw [String.toList_append, List.getLast?_append, hlast, List.getLast?_append, List.getLast?_singleton] at hends
  obtain rfl := Option.some.inj hends
  exact hspace

/-- Client 7 has registered `https://app.example/cb`. -/
def client_store : AuthDb :=
  ((oauth.register.register_client id (fun _ => true) ⟨["https://app.example/cb"], none⟩ 7).alone
    { oauth_clients := .empty
      oauth_consents := .empty
      oauth_consent_requests := .empty
      oauth := { oauth_codes := .empty, oauth_tokens := .empty, next_id := 1, now := 0, db_now := 0 } }).2

def client_uuid (s : String) : Option Uuid :=
  if s = "00000000-0000-4000-8000-000000000007" then some 7 else none

def client_query : oauth.authorize.AuthorizeQuery where
  response_type := some "code"
  client_id := some "00000000-0000-4000-8000-000000000007"
  redirect_uri := some "https://app.example/cb"
  code_challenge := some "E9M"

theorem client_bounced (path_and_query : String) :
    Task.Ran (fun _ => client_store) 0 (oauth.authorize.authorize id client_uuid (fun _ => "") client_query none
      path_and_query ⟨"", 0, 0⟩) 1 (.done (.ok ("/login?next=" ++ oauth.percent_encode path_and_query))) := by
  have hcheck : oauth.authorize.check_query client_uuid client_query =
      .ok ⟨"S256", "E9M", 7, "https://app.example/cb"⟩ := by
    rfl
  unfold oauth.authorize.authorize
  rw [hcheck]
  dsimp only
  refine Task.ran_stmt.mpr ⟨0, Nat.le_refl 0, Nat.zero_lt_one, rfl, rfl, ?_⟩
  exact .idle (Nat.le_refl 1)

/-- The target with its redirect URI percent-encoded. -/
def encoded_target : AuthorizeTarget where
  text := "/oauth/authorize" ++ "?response_type=code&client_id=00000000-0000-4000-8000-000000000007" ++
    "&redirect_uri=https%3A%2F%2Fapp.example%2Fcb&code_challenge=E9M"
  path := ⟨_, String.append_assoc⟩
  legal := by
    rw [toList_parts, String.toList_ofList, String.toList_ofList, String.toList_ofList]
    decide +kernel

/-- The target with its redirect URI as it is. -/
def plain_target : AuthorizeTarget where
  text := "/oauth/authorize" ++ "?response_type=code&client_id=00000000-0000-4000-8000-000000000007" ++
    "&redirect_uri=https://app.example/cb&code_challenge=E9M"
  path := ⟨_, String.append_assoc⟩
  legal := by
    rw [toList_parts, String.toList_ofList, String.toList_ofList, String.toList_ofList]
    decide +kernel

theorem authorization_survives_encoded :
    oauth.authorize.read_query encoded_target.text = .ok client_query ∧
      ∃ location, Task.Ran (fun _ => client_store) 0 (oauth.authorize.authorize id client_uuid (fun _ => "")
          client_query none encoded_target.text ⟨"", 0, 0⟩) 1 (.done (.ok location)) ∧
        ∃ response, log_in default local_cfg (fun _ _ => .ok (some 1)) (fun _ => .ok "token") "" "" location = .ok response ∧
          SignedIn response ∧ response.location = some encoded_target.text := by
  refine ⟨?_, _, client_bounced _, ?_⟩
  · have htext : encoded_target.text.toList = _ := toList_parts _ _ _
    unfold oauth.authorize.read_query query_string form_urlencoded.parse
    rw [htext]
    dsimp only
    rw [String.toList_ofList, String.toList_ofList, String.toList_ofList, String.toList_ofList]
    decide +kernel
  obtain ⟨response, hresponse, hsigned, hiff⟩ := @authorization_survives_iff _ _ _ _ _ _ _ _ _ default local_cfg
    (fun _ _ => .ok (some 1)) (fun _ => .ok "token") "" "" "token" 1 encoded_target (client_bounced _) rfl rfl
  have hlast : "&redirect_uri=https%3A%2F%2Fapp.example%2Fcb&code_challenge=E9M".toList.getLast? = some 'M' := by
    rw [String.toList_ofList]
    rfl
  refine ⟨response, hresponse, hsigned, hiff.mpr ⟨?_, ends_of_last hlast (by decide)⟩⟩
  have htext : encoded_target.text.toList = _ := toList_parts _ _ _
  rw [htext, String.toList_ofList, String.toList_ofList, String.toList_ofList, String.toList_ofList]
  decide +kernel

/-- The same request with the redirect URI as it is leads to the dashboard. -/
theorem authorization_lost :
    oauth.authorize.read_query plain_target.text = .ok client_query ∧
      (∃ location, Task.Ran (fun _ => client_store) 0 (oauth.authorize.authorize id client_uuid (fun _ => "")
          client_query none plain_target.text ⟨"", 0, 0⟩) 1 (.done (.ok location)) ∧
        ∃ response, log_in default local_cfg (fun _ _ => .ok (some 1)) (fun _ => .ok "token") "" "" location = .ok response ∧
          SignedIn response ∧ response.location = some "/") ∧
      plain_target.text ≠ "/" := by
  have hlast : "&redirect_uri=https://app.example/cb&code_challenge=E9M".toList.getLast? = some 'M' := by
    rw [String.toList_ofList]
    rfl
  have hlanding : landing (some plain_target.text) = "/" := by
    refine landing_of_scheme plain_target ?_ (ends_of_last hlast (by decide))
    have htext : plain_target.text.toList = _ := toList_parts _ _ _
    rw [htext, String.toList_ofList, String.toList_ofList, String.toList_ofList, String.toList_ofList]
    decide +kernel
  refine ⟨?_, ⟨_, client_bounced _, _, log_in_bounced plain_target.text rfl rfl, ?_, ?_⟩, ?_⟩
  · have htext : plain_target.text.toList = _ := toList_parts _ _ _
    unfold oauth.authorize.read_query query_string form_urlencoded.parse
    rw [htext]
    dsimp only
    rw [String.toList_ofList, String.toList_ofList, String.toList_ofList, String.toList_ofList]
    decide +kernel
  · rw [SignedIn, set_cookie_redirect_to]
    exact ⟨_, List.mem_singleton_self _, rfl⟩
  · rw [hlanding]
    decide
  · decide +kernel

end login

end api2mcp.server
