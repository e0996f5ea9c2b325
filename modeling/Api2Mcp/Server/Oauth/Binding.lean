import Api2Mcp.Server.Oauth.Authorize
import Api2Mcp.Server.Oauth.Redemption
import Api2Mcp.Server.Oauth.Served

namespace api2mcp.server.oauth.binding

open relational concurrent
open api2mcp.entity api2mcp.store

section

variable (sha256_hex s256 : String → String) (parses : String → Bool) (parse_uuid : String → Option Uuid)
  (uuid_text : Uuid → String)

/-- `POST /oauth/token`. -/
def token (req : TokenRequest) (draws : Draws) : OauthTask (Except OAuthError TokenResponse) :=
  if req.grant_type = "authorization_code" then do
    let (_, response) ← exchange_code sha256_hex s256 parse_uuid req draws
    return response
  else if req.grant_type = "refresh_token" then do
    let (_, response) ← refresh.grant sha256_hex req draws
    return response
  else
    return .error (.bad "unsupported_grant_type" ("unsupported grant_type: " ++ req.grant_type))

/-- What reaches the authorization server, one request after the other, with
what each one draws, and the passing of time. -/
inductive Request where
  | register (req : register.RegisterRequest) (id : Uuid)
  | authorize (q : authorize.AuthorizeQuery) (caller : Option Uuid) (path_and_query : String)
      (drawn : authorize.Drawn)
  | consent (form : consent.ConsentForm) (caller : Option Uuid) (drawn : authorize.Drawn)
  | token (req : TokenRequest) (draws : Draws)
  | tick (app db : Int)

/-- The answer to a token request and the store it leaves. -/
def served (s : OauthDb) (req : TokenRequest) (draws : Draws) : Except OAuthError TokenResponse × OauthDb :=
  (token sha256_hex s256 parse_uuid req draws).alone s

def Request.run (s : AuthDb) : Request → AuthDb
  | .register req id => ((register.register_client sha256_hex parses req id).alone s).2
  | .authorize q caller path_and_query drawn =>
    ((authorize.authorize sha256_hex parse_uuid uuid_text q caller path_and_query drawn).alone s).2
  | .consent form caller drawn => ((consent.post_consent sha256_hex parse_uuid form caller drawn).alone s).2
  | .token req draws => { s with oauth := (served sha256_hex s256 parse_uuid s.oauth req draws).2 }
  | .tick app db => ((auth.tick app db).alone s).2

/-- Every token request of the sequence satisfies `ok`, with the store it is
served from. -/
def EachToken (ok : OauthDb → TokenRequest → Draws → Prop) (s : AuthDb) : List Request → Prop
  | [] => True
  | .token req draws :: rest =>
    ok s.oauth req draws ∧
      EachToken ok (Request.run sha256_hex s256 parses parse_uuid uuid_text s (.token req draws)) rest
  | r :: rest => EachToken ok (Request.run sha256_hex s256 parses parse_uuid uuid_text s r) rest

/-- Tokens that were issued belong to the client the request names, if it names
one, and a code was issued for the redirect URI the request names. -/
structure Bound (s : OauthDb) (req : TokenRequest) (response : TokenResponse) (s' : OauthDb) : Prop where
  client : ∀ cid, req.client_id = some cid → ∃ row ∈ s'.oauth_tokens.rows,
    row.access_token_hash = sha256_hex response.access_token ∧
      row.refresh_token_hash = response.refresh_token.map sha256_hex ∧ parse_uuid cid = some row.client_id
  redirect_uri : req.grant_type = "authorization_code" → ∀ rd, req.redirect_uri = some rd →
    ∃ row ∈ s.oauth_codes.rows, req.code.map sha256_hex = some row.code_hash ∧ row.redirect_uri = rd

/-- What a token request is answered with is bound. -/
def AnswersBound (s : OauthDb) (req : TokenRequest) (draws : Draws) : Prop :=
  ∀ response, (served sha256_hex s256 parse_uuid s req draws).1 = .ok response →
    Bound sha256_hex parse_uuid s req response (served sha256_hex s256 parse_uuid s req draws).2

/-- A refresh request that names a client names the one the token it presents
was issued to, if that token is live. -/
def NamesOwner (s : OauthDb) (req : TokenRequest) (_ : Draws) : Prop :=
  req.grant_type = "refresh_token" → ∀ cid, req.client_id = some cid →
    ∀ row ∈ s.oauth_tokens.rows, row.refresh_token_hash = req.refresh_token.map sha256_hex →
      row.revoked = false → (∀ exp, row.refresh_expires_at = some exp → s.now < exp) →
        parse_uuid cid = some row.client_id

end

section

variable {sha256_hex s256 : String → String} {parse_uuid : String → Option Uuid} {req : TokenRequest}
  {draws : Draws} {s s' : OauthDb} {response : TokenResponse}

/-- A code passed the checks against a request only if both agree on the client
and on the redirect URI. -/
theorem check_grant_ok {verifier : String} {consumed : OauthCode}
    (h : check_grant s256 parse_uuid req verifier consumed = .ok ()) :
    (∀ rd, req.redirect_uri = some rd → rd = consumed.redirect_uri) ∧
      ∀ cid, req.client_id = some cid → parse_uuid cid = some consumed.client_id := by
  have hredirect : ∀ rd, req.redirect_uri = some rd → rd = consumed.redirect_uri := by
    intro rd hrd
    by_contra hne
    simp only [check_grant, hrd, if_pos hne] at h
    split at h
    · cases h
    split at h
    · cases h
    · cases h
  have hclient : ∀ cid, req.client_id = some cid → parse_uuid cid = some consumed.client_id := by
    intro cid hcid
    by_contra hne
    cases hparse : parse_uuid cid with
    | none =>
      simp only [check_grant, hcid, hparse] at h
      repeat' split at h
      all_goals cases h
    | some id =>
      have hid : id ≠ consumed.client_id := fun heq => hne (by rw [hparse, heq])
      simp only [check_grant, hcid, hparse, if_pos hid] at h
      repeat' split at h
      all_goals cases h
  exact ⟨hredirect, hclient⟩

theorem exchange_bound
    {consumed : Option (Except StoreError (Option OauthCode))}
    (h : (exchange_code sha256_hex s256 parse_uuid req draws).alone s = ((consumed, .ok response), s')) :
    Bound sha256_hex parse_uuid s req response s' := by
  obtain ⟨code, verifier, row, hrow, hcode, hhash, hcheck, rfl, hinsert, _⟩ := exchange_code_ok h
  obtain ⟨hredirect, hclient⟩ := check_grant_ok hcheck
  refine ⟨fun cid hcid => ⟨_, (Table.mem_of_insert hinsert).mpr (.inr rfl), rfl, rfl, hclient cid hcid⟩,
    fun _ rd hrd => ⟨row, hrow, ?_, (hredirect rd hrd).symm⟩⟩
  rw [hcode, hhash]
  rfl

theorem grant_bound {answer : Option (Except StoreError (Option IssuedOauthToken))}
    (hnames : NamesOwner sha256_hex parse_uuid s req draws) (hgrant : req.grant_type = "refresh_token")
    (h : (refresh.grant sha256_hex req draws).alone s = ((answer, .ok response), s')) :
    Bound sha256_hex parse_uuid s req response s' := by
  obtain ⟨_, hnone, _⟩ | ⟨t, row, mid, ht, hrotates, ⟨hresponse, rfl, _⟩ | ⟨hresponse, _, _⟩⟩ :=
    grant_cases _ _ _ _ h
  · exact absurd rfl (hnone response)
  · cases hresponse
    have hmapped : row.refresh_token_hash = req.refresh_token.map sha256_hex := by
      rw [hrotates.hash, ht]
      rfl
    refine ⟨fun cid hcid => ⟨_, hrotates.mem, rfl, ?_, ?_⟩, fun hcode => ?_⟩
    · simp only [successor, token_response, Option.map_map, Function.comp_def]
    · exact hnames hgrant cid hcid row hrotates.found hmapped hrotates.live hrotates.unexpired
    · exact absurd (hgrant.symm.trans hcode) (by decide)
  · cases hresponse

theorem token_bound (hnames : NamesOwner sha256_hex parse_uuid s req draws) :
    AnswersBound sha256_hex s256 parse_uuid s req draws := by
  intro response h
  have halone : (token sha256_hex s256 parse_uuid req draws).alone s =
      (.ok response, (served sha256_hex s256 parse_uuid s req draws).2) := Prod.ext h rfl
  generalize (served sha256_hex s256 parse_uuid s req draws).2 = s' at halone ⊢
  unfold token at halone
  split at halone
  · rw [Task.alone_bind] at halone
    cases hserved : (exchange_code sha256_hex s256 parse_uuid req draws).alone s with
    | mk answer after =>
      rw [hserved] at halone
      obtain ⟨consumed, answered⟩ := answer
      cases halone
      exact exchange_bound hserved
  split at halone
  · rename_i hgrant
    rw [Task.alone_bind] at halone
    cases hserved : (refresh.grant sha256_hex req draws).alone s with
    | mk answer after =>
      rw [hserved] at halone
      obtain ⟨rotated, answered⟩ := answer
      cases halone
      exact grant_bound hnames hgrant hserved
  · cases halone

end

/-- Along any sequence of registrations, authorizations, consents and token
requests in which every refresh request that names a client names the owner of
the live token it presents, what every token request returns is bound to the
client and the redirect URI that it names. -/
theorem tokens_bound_to_client (sha256_hex s256 : String → String) (parses : String → Bool)
    (parse_uuid : String → Option Uuid) (uuid_text : Uuid → String) (s : AuthDb) (requests : List Request)
    (hnames : EachToken sha256_hex s256 parses parse_uuid uuid_text (NamesOwner sha256_hex parse_uuid) s
      requests) :
    EachToken sha256_hex s256 parses parse_uuid uuid_text (AnswersBound sha256_hex s256 parse_uuid) s
      requests := by
  induction requests generalizing s with
  | nil => trivial
  | cons r rest ih =>
    cases r with
    | token req draws => exact ⟨token_bound hnames.1, ih _ hnames.2⟩
    | register _ _ | authorize _ _ _ _ | consent _ _ _ | tick _ _ => exact ih _ hnames

section Samples

open redemption

def sampleUuid (s : String) : Option Uuid :=
  if s = "00000000-0000-4000-8000-000000000005" then some 5
  else if s = "00000000-0000-4000-8000-000000000007" then some 7
  else if s = "00000000-0000-4000-8000-000000000009" then some 9
  else none

def sampleUuidText (id : Uuid) : String :=
  if id = 5 then "00000000-0000-4000-8000-000000000005" else ""

def emptyAuthDb : AuthDb where
  oauth_clients := .empty
  oauth_consents := .empty
  oauth_consent_requests := .empty
  oauth := { sampleDb with oauth_codes := .empty }

/-- Clients 7 and 9 register, user 8 authorizes client 7, which exchanges its
code; then the refresh token is presented in the name of `client_id`. -/
def sampleRequests (client_id : String) : List Request :=
  [.register ⟨["http://localhost:9999/callback"], none⟩ 7,
    .register ⟨["http://localhost:8888/callback"], none⟩ 9,
    .authorize
      { response_type := some "code"
        client_id := some "00000000-0000-4000-8000-000000000007"
        redirect_uri := some "http://localhost:9999/callback"
        code_challenge := some "E9Melhoa2OwvFrEMTJguCHaoeK1t8URWbuGJSstw-cM" }
      (some 8) "/oauth/authorize" ⟨"", 0, 5⟩,
    .consent ⟨"00000000-0000-4000-8000-000000000005", "approve"⟩ (some 8)
      ⟨"qLPTI3zVOKAeDGn1rGXiVK1xyQV8j6mlJk6T1rTtwMY", 100, 0⟩,
    .token { sampleRequest with client_id := some "00000000-0000-4000-8000-000000000007" }
      ⟨"mG0kXt8pWv2aYc5dR7eLhBzN1qUsFjKoI4xPwQ3CbTE", "Vn8ZrJ2fKx5uYwEhT1bQmC7sLpD3gAoR6iXv0NkWz9M", 100⟩,
    .token
      { grant_type := "refresh_token"
        client_id := some client_id
        refresh_token := some "Vn8ZrJ2fKx5uYwEhT1bQmC7sLpD3gAoR6iXv0NkWz9M" }
      ⟨"t4HqBy7WcEo1ZsUnM2rGfK8xVd5jLpA0iTwR9vXhQ3Y", "p6JmDf0XsGi8NzKwQ4vBtR1yEo7aUcH3lLxTqW5bV2Z", 0⟩]

/-- The store the refresh token is presented to. -/
def issuedDb : OauthDb :=
  (((sampleRequests "").take 5).foldl
    (Request.run sampleSha sampleS256 (fun _ => true) sampleUuid sampleUuidText) emptyAuthDb).oauth

/-- Whether every answer of the sample sequence is bound. -/
abbrev SampleBound (client_id : String) : Prop :=
  EachToken sampleSha sampleS256 (fun _ => true) sampleUuid sampleUuidText
    (AnswersBound sampleSha sampleS256 sampleUuid) emptyAuthDb (sampleRequests client_id)

/-- Client 7 refreshes its own tokens. -/
theorem refreshed_by_owner : SampleBound "00000000-0000-4000-8000-000000000007" := by
  have howned : ∀ row ∈ issuedDb.oauth_tokens.rows,
      sampleUuid "00000000-0000-4000-8000-000000000007" = some row.client_id := by decide
  refine tokens_bound_to_client sampleSha sampleS256 (fun _ => true) sampleUuid sampleUuidText emptyAuthDb _
    ⟨fun h => absurd h (by decide), fun _ cid hcid row hrow _ _ _ => ?_, trivial⟩
  cases hcid
  exact howned row hrow

/-- Client 9 presents client 7's refresh token in its own name and is answered
with tokens that belong to client 7. -/
theorem refreshed_by_another :
    (issuedDb.oauth_tokens.rows.map (·.client_id) = [7] ∧
      (served sampleSha sampleS256 sampleUuid issuedDb
        { grant_type := "refresh_token"
          client_id := some "00000000-0000-4000-8000-000000000009"
          refresh_token := some "Vn8ZrJ2fKx5uYwEhT1bQmC7sLpD3gAoR6iXv0NkWz9M" }
        ⟨"t4HqBy7WcEo1ZsUnM2rGfK8xVd5jLpA0iTwR9vXhQ3Y", "p6JmDf0XsGi8NzKwQ4vBtR1yEo7aUcH3lLxTqW5bV2Z",
          0⟩).1.isOk = true) ∧
      ¬ SampleBound "00000000-0000-4000-8000-000000000009" := by
  refine ⟨⟨by decide, by decide⟩, fun h => ?_⟩
  have hserved : (served sampleSha sampleS256 sampleUuid issuedDb
      { grant_type := "refresh_token"
        client_id := some "00000000-0000-4000-8000-000000000009"
        refresh_token := some "Vn8ZrJ2fKx5uYwEhT1bQmC7sLpD3gAoR6iXv0NkWz9M" }
      ⟨"t4HqBy7WcEo1ZsUnM2rGfK8xVd5jLpA0iTwR9vXhQ3Y", "p6JmDf0XsGi8NzKwQ4vBtR1yEo7aUcH3lLxTqW5bV2Z", 0⟩).1 =
        .ok (token_response "t4HqBy7WcEo1ZsUnM2rGfK8xVd5jLpA0iTwR9vXhQ3Y"
          (some "p6JmDf0XsGi8NzKwQ4vBtR1yEo7aUcH3lLxTqW5bV2Z") ACCESS_TOKEN_TTL_SECS none) := by decide
  obtain ⟨row, hrow, -, -, hclient⟩ := (h.2.1 _ hserved).client _ rfl
  have howned : ∀ row ∈ (served sampleSha sampleS256 sampleUuid issuedDb
      { grant_type := "refresh_token"
        client_id := some "00000000-0000-4000-8000-000000000009"
        refresh_token := some "Vn8ZrJ2fKx5uYwEhT1bQmC7sLpD3gAoR6iXv0NkWz9M" }
      ⟨"t4HqBy7WcEo1ZsUnM2rGfK8xVd5jLpA0iTwR9vXhQ3Y", "p6JmDf0XsGi8NzKwQ4vBtR1yEo7aUcH3lLxTqW5bV2Z",
        0⟩).2.oauth_tokens.rows, row.client_id = 7 := by decide
  rw [howned row hrow] at hclient
  cases hclient

end Samples

end api2mcp.server.oauth.binding
