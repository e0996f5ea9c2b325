import Api2Mcp.Concurrent.RelyGuarantee
import Api2Mcp.Server.Oauth.Token

namespace api2mcp.server.oauth.redemption

open relational concurrent
open api2mcp.entity api2mcp.store

/-- The calls under way: `consume_code`, an `exchange_code` request, and the
passing of time. -/
inductive Call where
  | consume (code : String)
  | exchange (req : TokenRequest) (draws : Draws)
  | tick (app db : Int)

inductive Reply where
  | consumed (answer : Except StoreError (Option OauthCode))
  | exchanged (consumed : Option (Except StoreError (Option OauthCode)))
      (response : Except OAuthError TokenResponse)
  | ticked

/-- The code the call presents, if it presents one, is this one. -/
def Call.presents (code : String) : Call → Prop
  | .consume c => c = code
  | .exchange req _ => ∀ c, req.code = some c → c = code
  | .tick .. => True

/-- The family an issue of this call would start. -/
def Call.family : Call → Uuid
  | .exchange _ draws => draws.family_id
  | _ => 0

/-- `consume_code` returned `Some`. -/
def redeemed : Except StoreError (Option OauthCode) → Bool
  | .ok (some _) => true
  | _ => false

def Reply.redeemed : Reply → Bool
  | .consumed answer => redemption.redeemed answer
  | .exchanged answer _ => answer.any redemption.redeemed
  | .ticked => false

section

variable (sha256_hex s256 : String → String) (parse_uuid : String → Option Uuid)

def Call.task : Call → OauthTask Reply
  | .consume code => do
    let answer ← consume_code sha256_hex code
    return .consumed answer
  | .exchange req draws => do
    let (answer, response) ← exchange_code sha256_hex s256 parse_uuid req draws
    return .exchanged answer response
  | .tick app db => do
    store.tick app db
    return .ticked

/-- Any number of calls, all of them about to start. -/
def start {ι : Type} (s : OauthDb) (calls : ι → Call) : Pool ι OauthStmt OauthDb Reply where
  store := s
  task i := (calls i).task sha256_hex s256 parse_uuid

end

/-- A code marked used was not used yet: no other call got there between this
call's find and its update. -/
def updateFindsUnused {ι : Type} (_ : ι) (s : OauthDb) : OauthStmt → Prop
  | .mark_used h => (s.oauth_codes.find fun r => r.code_hash = h).any (fun r => !r.used) = true
  | _ => True

instance {ι : Type} (i : ι) (s : OauthDb) : ∀ l, Decidable (updateFindsUnused i s l)
  | .mark_used h =>
    inferInstanceAs
      (Decidable ((s.oauth_codes.find fun r => r.code_hash = h).any (fun r => !r.used) = true))
  | .now | .find_code _ | .find_by_refresh_hash _ | .revoke_rotated _ _ | .list_family _
  | .revoke_member _ _ | .family_started_at _ | .issue_in_family _ | .tick => isTrue trivial

/-- At most one call was told `Some`, and the tokens that were not there before
belong to one family. -/
structure RedeemedAtMostOnce {ι : Type} (s : OauthDb) (p : Pool ι OauthStmt OauthDb Reply) :
    Prop where
  call : ∀ i j a b, (p.task i).result? = some a → (p.task j).result? = some b →
    a.redeemed = true → b.redeemed = true → i = j
  family : ∀ r r', r ∈ p.store.oauth_tokens.rows → r' ∈ p.store.oauth_tokens.rows →
    r ∉ s.oauth_tokens.rows → r' ∉ s.oauth_tokens.rows → r.family_id = r'.family_id

section Spec

/-- The phase of a call: whether its update already marked the code used. -/
def fired (φ : Bool) : OauthStmt → Bool
  | .mark_used _ => true
  | _ => φ

/-- What a statement of a call presenting the code hashed to `h` does: it marks
that code used, it issues into the call's own family after it did, or it leaves
codes and tokens alone. -/
def redeemGuar (h : String) (family : Uuid) (φ : Bool) (l : OauthStmt) (s s' : OauthDb) : Prop :=
  match l with
  | .mark_used h' =>
    h' = h ∧ s'.oauth_codes = markUsed h s.oauth_codes ∧ s'.oauth_tokens = s.oauth_tokens
  | .issue_in_family _ =>
    φ = true ∧ s'.oauth_codes = s.oauth_codes ∧
      ∀ r ∈ s'.oauth_tokens.rows, r ∈ s.oauth_tokens.rows ∨ r.family_id = family
  | _ => s'.oauth_codes = s.oauth_codes ∧ s'.oauth_tokens = s.oauth_tokens

/-- A call that says `Some` marked the code used. Nothing is asked of the others. -/
def redeemSpec {α : Type} (h : String) (family : Uuid) (post : Bool → α → Prop) :
    Spec OauthStmt OauthDb α Bool where
  rely _ _ := True
  advance := fired
  guar := redeemGuar h family
  post φ _ a := post φ a

variable {sha256_hex s256 : String → String} {parse_uuid : String → Option Uuid}

theorem consume_code_meets (code : String) (family : Uuid) (φ : Bool) (w : OauthDb) :
    (consume_code sha256_hex code).Meets
      (redeemSpec (sha256_hex code) family fun φ a => redeemed a = true → φ = true) φ w := by
  simp only [consume_code, find_code, utc_now, mark_used, Task.read_bind, Task.exec_bind,
    Task.pure_eq]
  refine .stmt (fun s _ _ => ⟨rfl, rfl⟩) fun s _ _ => ?_
  cases hfind : s.oauth_codes.find fun r => r.code_hash = sha256_hex code with
  | none => exact .done fun _ _ h => by cases h
  | some row =>
    have hhash : row.code_hash = sha256_hex code := by simpa using (Table.mem_of_find hfind).2
    dsimp only
    split
    · exact .done fun _ _ h => by cases h
    refine .stmt (fun s _ _ => ⟨rfl, rfl⟩) fun s _ _ => ?_
    split
    · exact .done fun _ _ h => by cases h
    refine .stmt (fun s _ _ => ⟨hhash, by rw [hhash], rfl⟩) fun s _ _ => ?_
    split
    · exact .done fun _ _ h => by cases h
    · exact .done fun _ _ _ => rfl

theorem redeem_meets {h : String} {draws : Draws} (req : TokenRequest) (verifier : String)
    (consumed : Except StoreError (Option OauthCode)) {φ : Bool} (w : OauthDb)
    (hφ : redeemed consumed = true → φ = true) :
    (redeem sha256_hex s256 parse_uuid req verifier draws consumed).Meets
      (redeemSpec h draws.family_id fun φ _ => redeemed consumed = true → φ = true) φ w := by
  unfold redeem
  split
  · exact .done fun _ _ => hφ
  · exact .done fun _ _ => hφ
  rename_i code
  split
  · exact .done fun _ _ => hφ
  simp only [issue_token, issue_in_family, utc_now, Task.read_bind, Task.stmt_bind, Task.pure_eq]
  refine .stmt (fun s _ _ => ⟨rfl, rfl⟩) fun s _ _ => ?_
  split
  · exact .done fun _ _ => hφ
  split
  · exact .done fun _ _ => hφ
  simp only [Task.exec_bind, Task.stmt_bind]
  refine .stmt (fun s _ _ => ⟨hφ rfl, ?_⟩) fun s _ _ => ?_
  · unfold insertToken
    split
    · exact ⟨rfl, fun r hr => .inl hr⟩
    · rename_i t hinsert
      refine ⟨rfl, fun r hr => ?_⟩
      obtain hold | rfl := (Table.mem_of_insert hinsert).mp hr
      · exact .inl hold
      · exact .inr rfl
  · split
    · exact .done fun _ _ => hφ
    · exact .done fun _ _ => hφ

theorem task_meets {code : String} {call : Call} (hcode : call.presents code) (w : OauthDb) :
    (call.task sha256_hex s256 parse_uuid).Meets
      (redeemSpec (sha256_hex code) call.family fun φ a => a.redeemed = true → φ = true)
      false w := by
  cases call with
  | consume c =>
    obtain rfl : c = code := hcode
    exact (consume_code_meets c 0 false w).bind (fun _ => trivial) fun φ _ answer hanswer =>
      .done fun _ _ => hanswer
  | exchange req draws =>
    have hrefused : ∀ (e : OAuthError),
        (Task.done (Reply.exchanged none (.error e)) : OauthTask Reply).Meets
          (redeemSpec (sha256_hex code) draws.family_id fun φ a => a.redeemed = true → φ = true)
          false w :=
      fun _ => .done fun _ _ h => by cases h
    simp only [Call.task, exchange_code]
    split
    · exact hrefused _
    rename_i c hc
    obtain rfl : c = code := hcode c hc
    split
    · exact hrefused _
    rw [Task.bind_assoc]
    refine (consume_code_meets c draws.family_id false w).bind (fun _ => trivial) ?_
    intro φ w answer hanswer
    rw [Task.bind_assoc]
    refine (redeem_meets req _ answer w hanswer).bind (fun _ => trivial) ?_
    intro φ w response hresponse
    exact .done fun _ _ h => hresponse (by simpa [Reply.redeemed] using h)
  | tick app db =>
    simp only [Call.task, store.tick, Task.exec_bind, Task.pure_eq]
    exact .stmt (fun s _ _ => ⟨rfl, rfl⟩) fun s _ _ => .done fun _ _ h => by cases h

end Spec

section Invariant

/-- At most one call marked the code used, the code then is used, and only that
call's family is new. -/
structure Redemption {ι : Type} (h : String) (family : ι → Uuid) (s₀ : OauthDb) (φ : ι → Bool)
    (s : OauthDb) : Prop where
  one : ∀ i j, φ i = true → φ j = true → i = j
  used : ∀ i, φ i = true → ∀ r ∈ s.oauth_codes.rows, r.code_hash = h → r.used = true
  issued : ∀ r ∈ s.oauth_tokens.rows, r ∈ s₀.oauth_tokens.rows ∨
    ∃ i, φ i = true ∧ r.family_id = family i

variable {ι : Type} [DecidableEq ι] {h : String} {family : ι → Uuid} {s₀ s s' : OauthDb}
  {φ : ι → Bool} {i : ι} {l : OauthStmt}

theorem used_of_markUsed {t : Table oauth_codes.indexes} {r : oauth_codes.Model}
    (hr : r ∈ (markUsed h t).rows) (hhash : r.code_hash = h) : r.used = true := by
  obtain ⟨a, _, rfl⟩ := Table.mem_update.mp hr
  by_cases ha : a.code_hash = h
  · simp [ha]
  · simp [ha] at hhash

/-- Only the mark-used update moves a phase, and it does so once. -/
theorem Redemption.step (hinv : Redemption h family s₀ φ s) (hcond : updateFindsUnused i s l)
    (hguar : redeemGuar h (family i) (φ i) l s s') :
    Redemption h family s₀ (Function.update φ i (fired (φ i) l)) s' := by
  cases l with
  | mark_used h' =>
    obtain ⟨rfl, hcodes, htokens⟩ := hguar
    have hnone : ∀ j, φ j = false := by
      intro j
      by_contra hj
      obtain ⟨r, hfind, hunused⟩ := (Option.any_eq_true _ _).mp hcond
      obtain ⟨hr, hhash⟩ := Table.mem_of_find hfind
      have hused := hinv.used j (by simpa using hj) r hr (by simpa using hhash)
      simp [hused] at hunused
    have honly : ∀ j, Function.update φ i true j = true → j = i := by
      intro j hj
      by_contra hne
      simp [hne, hnone j] at hj
    refine ⟨fun j k hj hk => (honly j hj).trans (honly k hk).symm, fun _ _ r hr => ?_, ?_⟩
    · rw [hcodes] at hr
      exact used_of_markUsed hr
    · intro r hr
      rw [htokens] at hr
      obtain hold | ⟨j, hj, _⟩ := hinv.issued r hr
      · exact .inl hold
      · simp [hnone j] at hj
  | issue_in_family f =>
    obtain ⟨hφ, hcodes, htokens⟩ := hguar
    have hsame : Function.update φ i (fired (φ i) (.issue_in_family f)) = φ :=
      Function.update_eq_self i φ
    rw [hsame]
    refine ⟨hinv.one, ?_, fun r hr => ?_⟩
    · rw [hcodes]
      exact hinv.used
    · obtain hold | hnew := htokens r hr
      · exact hinv.issued r hold
      · exact .inr ⟨i, hφ, hnew⟩
  | now | find_code _ | find_by_refresh_hash _ | revoke_rotated _ _ | list_family _
  | revoke_member _ _ | family_started_at _ | tick =>
    obtain ⟨hcodes, htokens⟩ := hguar
    have hsame : Function.update φ i (φ i) = φ := Function.update_eq_self i φ
    refine ⟨?_, ?_, ?_⟩
    · simpa only [fired, hsame] using hinv.one
    · simpa only [fired, hsame, hcodes] using hinv.used
    · simpa only [fired, hsame, htokens] using hinv.issued

end Invariant

/-- Redemption holds along every run in which each mark-used update finds its
code unused. -/
theorem redeemed_at_most_once {ι : Type} [DecidableEq ι] (sha256_hex s256 : String → String)
    (parse_uuid : String → Option Uuid) (code : String) (s : OauthDb) (calls : ι → Call)
    (hcalls : ∀ i, (calls i).presents code) (sched : List ι)
    (hunused : (start sha256_hex s256 parse_uuid s calls).Along
      (Pool.Respects updateFindsUnused) sched) :
    RedeemedAtMostOnce s ((start sha256_hex s256 parse_uuid s calls).run sched) := by
  have hstart : (start sha256_hex s256 parse_uuid s calls).Sound
      (fun i => redeemSpec (sha256_hex code) (calls i).family fun φ a => a.redeemed = true → φ = true)
      (Redemption (sha256_hex code) (fun i => (calls i).family) s) :=
    ⟨fun _ => false, fun i => task_meets (hcalls i) s,
      ⟨fun _ _ h => (by cases h), fun _ h => (by cases h), fun r hr => .inl hr⟩⟩
  have hrun := hstart.run (fun _ _ => trivial) (fun _ _ _ _ _ _ => trivial)
    (fun _ _ _ _ _ _ _ => trivial) (fun _ _ _ _ _ hj hcond hguar => hj.step hcond hguar) hunused
  obtain ⟨φ, hinv, hpost⟩ := hrun.post fun _ _ => trivial
  refine ⟨fun i j a b hi hj ha hb => hinv.one i j (hpost i a hi ha) (hpost j b hj hb), ?_⟩
  intro r r' hr hr' hnew hnew'
  obtain hold | ⟨i, hi, hfamily⟩ := hinv.issued r hr
  · exact absurd hold hnew
  obtain hold | ⟨j, hj, hfamily'⟩ := hinv.issued r' hr'
  · exact absurd hold hnew'
  rw [hfamily, hfamily', hinv.one i j hi hj]

section Runs

/-- SHA-256 of the plaintexts below. -/
def sampleDigests : List (String × String) :=
  [("qLPTI3zVOKAeDGn1rGXiVK1xyQV8j6mlJk6T1rTtwMY",
    "7b1da4a408b291ec65ec8570ee6a4c5d73182ad3947a4313d14a9123b6cfd0c6"),
   ("mG0kXt8pWv2aYc5dR7eLhBzN1qUsFjKoI4xPwQ3CbTE",
    "02db8fa7a49a06c62ac12cd72eb2354893186336710d32b7b08053d2d6286f48"),
   ("Vn8ZrJ2fKx5uYwEhT1bQmC7sLpD3gAoR6iXv0NkWz9M",
    "3663659eb84ea80b6471b86240a2be0eaf12449dbfa389d632e3211544e78c42"),
   ("t4HqBy7WcEo1ZsUnM2rGfK8xVd5jLpA0iTwR9vXhQ3Y",
    "9da13e99fc2f1c4b99b36b941fb4a20565e95a9df34b724b0e50db29358ad2ea"),
   ("p6JmDf0XsGi8NzKwQ4vBtR1yEo7aUcH3lLxTqW5bV2Z",
    "3865b93cf7631abd4d208e5d983f7491c0064e3926e742d455dd52396bb30291")]

def sampleSha (s : String) : String := (sampleDigests.lookup s).getD ""

def sampleS256 (s : String) : String :=
  if s = "dBjftJeZ4CVP-mB92K27uhbUJU1p1r_wW1gFWFOEjXk" then "E9Melhoa2OwvFrEMTJguCHaoeK1t8URWbuGJSstw-cM" else ""

def sampleRow : oauth_codes.Model where
  code_hash := sampleSha "qLPTI3zVOKAeDGn1rGXiVK1xyQV8j6mlJk6T1rTtwMY"
  client_id := 7
  user_id := 8
  redirect_uri := "http://localhost:9999/callback"
  code_challenge := "E9Melhoa2OwvFrEMTJguCHaoeK1t8URWbuGJSstw-cM"
  code_challenge_method := "S256"
  resource := none
  scope := none
  used := false
  expires_at := 600000000

/-- One code, unused and not expired, and no token yet. -/
def sampleDb : OauthDb where
  oauth_codes := .single sampleRow
  oauth_tokens := .empty
  next_id := 1
  now := 1000000
  db_now := 1000000

def sampleRequest : TokenRequest where
  grant_type := "authorization_code"
  code := some "qLPTI3zVOKAeDGn1rGXiVK1xyQV8j6mlJk6T1rTtwMY"
  code_verifier := some "dBjftJeZ4CVP-mB92K27uhbUJU1p1r_wW1gFWFOEjXk"

/-- Two requests with the same code and verifier. -/
def sampleCalls : Fin 2 → Call
  | 0 => .exchange sampleRequest
      ⟨"mG0kXt8pWv2aYc5dR7eLhBzN1qUsFjKoI4xPwQ3CbTE",
        "Vn8ZrJ2fKx5uYwEhT1bQmC7sLpD3gAoR6iXv0NkWz9M", 100⟩
  | 1 => .exchange sampleRequest
      ⟨"t4HqBy7WcEo1ZsUnM2rGfK8xVd5jLpA0iTwR9vXhQ3Y",
        "p6JmDf0XsGi8NzKwQ4vBtR1yEo7aUcH3lLxTqW5bV2Z", 200⟩

def sampleStart : Pool (Fin 2) OauthStmt OauthDb Reply :=
  start sampleSha sampleS256 (fun _ => none) sampleDb sampleCalls

/-- One request after the other: the first one redeems the code. -/
theorem redeemed_at_most_once_sequential :
    sampleStart.Along (Pool.Respects updateFindsUnused) [0, 0, 0, 0, 0, 1, 1, 1, 1, 1] ∧
      ((sampleStart.run [0, 0, 0, 0, 0, 1, 1, 1, 1, 1]).task 0).result?.any Reply.redeemed = true ∧
      RedeemedAtMostOnce sampleDb (sampleStart.run [0, 0, 0, 0, 0, 1, 1, 1, 1, 1]) := by
  have hcalls : ∀ i, (sampleCalls i).presents "qLPTI3zVOKAeDGn1rGXiVK1xyQV8j6mlJk6T1rTtwMY" := by
    intro i
    match i with
    | 0 | 1 =>
      intro c hc
      exact (Option.some.inj hc).symm
  have hunused : sampleStart.Along (Pool.Respects updateFindsUnused)
      [0, 0, 0, 0, 0, 1, 1, 1, 1, 1] := by decide
  exact ⟨hunused, by decide, redeemed_at_most_once sampleSha sampleS256 (fun _ => none) _ sampleDb
    sampleCalls hcalls _ hunused⟩

/-- Both requests find the code unused before either marks it: both are told
`Some`, and two families are issued. -/
theorem redeemed_twice_when_interleaved :
    ((sampleStart.run [0, 1, 0, 1, 0, 1, 0, 0, 1, 1]).store.oauth_tokens.rows.map
        (·.family_id)) = [100, 200] ∧
      ¬ RedeemedAtMostOnce sampleDb (sampleStart.run [0, 1, 0, 1, 0, 1, 0, 0, 1, 1]) := by
  refine ⟨rfl, fun h => ?_⟩
  have hsame : (0 : Fin 2) = 1 := h.call 0 1 _ _ rfl rfl rfl rfl
  cases hsame

end Runs

end api2mcp.server.oauth.redemption
