import Api2Mcp.Server.Oauth.Redemption
import Api2Mcp.Server.Oauth.Served
import Mathlib.Data.List.Chain
import Mathlib.Tactic.Ring

namespace api2mcp.server.oauth.lifetimes

open relational concurrent
open api2mcp.entity api2mcp.entity.oauth_tokens api2mcp.store

/-- What happens to the token endpoint, one thing after the other: the clocks
move on, each by its own amount, or a refresh grant is served. -/
inductive Step where
  | pass (app db : Int)
  | grant (req : TokenRequest) (draws : Draws)

section

variable (sha256_hex : String → String)

def Step.run : Step → OauthDb → OauthDb
  | .pass app db, s => ((tick app db).alone s).2
  | .grant req draws, s => ((refresh.grant sha256_hex req draws).alone s).2

/-- The store after the steps. -/
def after (s : OauthDb) : List Step → OauthDb
  | [] => s
  | step :: steps => after (step.run sha256_hex s) steps

end

section Runs

variable {sha256_hex : String → String}

theorem Step.keeps (step : Step) (s : OauthDb) :
    Keeps s.oauth_tokens (step.run sha256_hex s).oauth_tokens := by
  cases step with
  | pass app db => exact .refl _
  | grant req draws =>
    obtain ⟨hidle, _, _⟩ | ⟨t, row, mid, _, hrotates, ⟨_, hs, _⟩ | ⟨_, hs, _⟩⟩ :=
      grant_cases sha256_hex s draws req rfl
    · exact hidle.keeps
    · rw [Step.run, hs]
      exact hrotates.keeps
    · rw [Step.run, hs]
      exact hrotates.keeps.trans (keeps_revokeFamily _ _)

variable (sha256_hex) in
/-- No row goes away, whatever is served. -/
theorem keeps_after (steps : List Step) (s : OauthDb) :
    Keeps s.oauth_tokens (after sha256_hex s steps).oauth_tokens := by
  induction steps generalizing s with
  | nil => exact .refl _
  | cons step steps ih => exact (step.keeps s).trans (ih (step.run sha256_hex s))

end Runs

/-- However often a family was rotated, a grant that presents one of its
refresh tokens returns tokens only while the clock shows at most the
`created_at` of the family's first row plus the maximum age, and a refusal for
age leaves no unrevoked member. `first` is any row of the family that was there
when the sequence began. -/
theorem family_outlives_nothing (sha256_hex : String → String) (s : OauthDb) (steps : List Step)
    {first row : Model} (hfirst : first ∈ s.oauth_tokens.rows)
    (hrow : row ∈ (after sha256_hex s steps).oauth_tokens.rows) (hfamily : row.family_id = first.family_id)
    {req : TokenRequest} {t : String} (hpresented : req.refresh_token = some t)
    (hhash : row.refresh_token_hash = some (sha256_hex t)) (draws : Draws) :
    let now := (after sha256_hex s steps).now
    let served := (refresh.grant sha256_hex req draws).alone (after sha256_hex s steps)
    (∀ response, served.1.2 = .ok response →
      now ≤ first.created_at + refresh.days refresh.ABSOLUTE_FAMILY_TTL_DAYS) ∧
    (served.1.2 = .error exceeded →
      ∀ r ∈ served.2.oauth_tokens.rows, r.family_id = first.family_id → r.revoked = true) := by
  obtain ⟨first', hfirst', haged⟩ := keeps_after sha256_hex steps s first hfirst
  obtain ⟨_, hnone, hyoung⟩ | ⟨t', row', mid, ht', hrotates, hcases⟩ :=
    grant_cases sha256_hex (after sha256_hex s steps) draws req rfl
  · exact ⟨fun response h => absurd h (hnone response), fun h => absurd h hyoung⟩
  -- the row that was exchanged is the one the token is the refresh token of
  obtain rfl : t' = t := Option.some.inj (ht'.symm.trans hpresented)
  obtain rfl : row' = row := eq_of_refresh_hash hrotates.found hrow hrotates.hash hhash
  obtain ⟨hresponse, hs, hages⟩ | ⟨hresponse, hs, _⟩ := hcases
  · refine ⟨fun _ _ => ?_, fun h => ?_⟩
    · obtain ⟨r, hr, haged'⟩ := hrotates.keeps first' hfirst'
      have hold := haged.trans haged'
      have hage := hages r hr (hold.family_eq.trans hfamily.symm)
      rw [hold.created_at_eq] at hage
      exact Int.le_add_of_sub_left_le hage
    · rw [hresponse] at h
      cases h
  · refine ⟨fun _ h => ?_, fun _ r hr hf => ?_⟩
    · rw [hresponse] at h
      cases h
    · rw [hs] at hr
      exact revoked_of_revokeFamily hr (hf.trans hfamily.symm)

section Age

open redemption

/-- The first pair of a family, issued when both clocks showed zero. -/
def agingRow : Model where
  id := 1
  access_token_hash := sampleSha "mG0kXt8pWv2aYc5dR7eLhBzN1qUsFjKoI4xPwQ3CbTE"
  refresh_token_hash := some (sampleSha "Vn8ZrJ2fKx5uYwEhT1bQmC7sLpD3gAoR6iXv0NkWz9M")
  client_id := 7
  user_id := 8
  family_id := 100
  scope := none
  resource := none
  revoked := false
  access_expires_at := 3600000000
  refresh_expires_at := some (refresh.days 30)
  created_at := 0

def agingDb : OauthDb where
  oauth_codes := .empty
  oauth_tokens := .single agingRow
  next_id := 2
  now := 0
  db_now := 0

def refreshRequest (refresh_token : String) : TokenRequest where
  grant_type := "refresh_token"
  refresh_token := some refresh_token

def agingDraws : Draws :=
  ⟨"t4HqBy7WcEo1ZsUnM2rGfK8xVd5jLpA0iTwR9vXhQ3Y", "p6JmDf0XsGi8NzKwQ4vBtR1yEo7aUcH3lLxTqW5bV2Z", 0⟩

/-- The pair is rotated after twenty days, and eleven days pass. -/
def agingSteps : List Step :=
  [.pass (refresh.days 20) (refresh.days 20),
    .grant (refreshRequest "Vn8ZrJ2fKx5uYwEhT1bQmC7sLpD3gAoR6iXv0NkWz9M") agingDraws,
    .pass (refresh.days 11) (refresh.days 11)]

/-- The rotated token, good for another thirty days by its own expiry, is
refused on the thirty-first day of the family. -/
theorem family_refused_on_day_31 :
    let served := (refresh.grant sampleSha
      (refreshRequest "p6JmDf0XsGi8NzKwQ4vBtR1yEo7aUcH3lLxTqW5bV2Z")
      ⟨"qLPTI3zVOKAeDGn1rGXiVK1xyQV8j6mlJk6T1rTtwMY", "", 0⟩).alone (after sampleSha agingDb agingSteps)
    served.1.2 = .error exceeded ∧
      ∀ r ∈ served.2.oauth_tokens.rows, r.family_id = 100 → r.revoked = true := by
  have hrefused : ((refresh.grant sampleSha
      (refreshRequest "p6JmDf0XsGi8NzKwQ4vBtR1yEo7aUcH3lLxTqW5bV2Z")
      ⟨"qLPTI3zVOKAeDGn1rGXiVK1xyQV8j6mlJk6T1rTtwMY", "", 0⟩).alone
        (after sampleSha agingDb agingSteps)).1.2 = .error exceeded := by decide
  have hfirst : agingRow ∈ agingDb.oauth_tokens.rows := List.mem_singleton.mpr rfl
  have hrow : successor sampleSha agingRow agingDraws 2 (refresh.days 20) (refresh.days 20) ∈
      (after sampleSha agingDb agingSteps).oauth_tokens.rows := by decide
  exact ⟨hrefused, (family_outlives_nothing sampleSha agingDb agingSteps hfirst hrow rfl rfl rfl _).2 hrefused⟩

end Age

/-- A pair that was handed out: what the clocks showed when it was issued, its
row, and the `expires_in` that was reported with it. -/
structure Issue where
  now : DateTime
  db_now : DateTime
  row : Model
  expires_in : Int

/-- How long the access token lives from its issue. -/
def Issue.access_lifetime (i : Issue) : Int := i.row.access_expires_at - i.now

/-- How long the refresh token lives from its issue. -/
def Issue.refresh_lifetime (i : Issue) : Option Int := i.row.refresh_expires_at.map (· - i.now)

section

variable (sha256_hex : String → String)

/-- The pair a response hands out: the row of its access token. -/
def handedOut (s s' : OauthDb) : Except OAuthError TokenResponse → Option Issue
  | .error _ => none
  | .ok response =>
    (s'.oauth_tokens.find fun r => r.access_token_hash = sha256_hex response.access_token).map fun row =>
      ⟨s.now, s.db_now, row, response.expires_in⟩

/-- The pair of the family that a step hands out, if it does. -/
def Step.issue (f : Uuid) (s : OauthDb) : Step → Option Issue
  | .pass .. => none
  | .grant req draws =>
    let served := (refresh.grant sha256_hex req draws).alone s
    (handedOut sha256_hex s served.2 served.1.2).filter fun i => i.row.family_id = f

/-- The pairs of the family handed out along the steps, in order. -/
def issues (f : Uuid) (s : OauthDb) : List Step → List Issue
  | [] => []
  | step :: steps => (step.issue sha256_hex f s).toList ++ issues f (step.run sha256_hex s) steps

end

/-- Every rotated token lives as long from its issue as those first issued, and
every `expires_in`, in seconds, is the lifetime of its access token. -/
structure LifetimesKept (first : Issue) (rotated : List Issue) : Prop where
  access : ∀ i ∈ rotated, i.access_lifetime = first.access_lifetime
  refresh : ∀ i ∈ rotated, i.refresh_lifetime = first.refresh_lifetime
  expires_in : ∀ i ∈ first :: rotated, i.expires_in * 1000000 = i.access_lifetime

/-- `b` was handed out for the tokens of `a`. -/
structure Follows (a b : Issue) : Prop where
  access : b.row.access_expires_at = b.now + (a.row.access_expires_at - a.row.created_at)
  refresh : b.row.refresh_expires_at = a.row.refresh_expires_at.map fun exp => b.now + (exp - a.row.created_at)
  created_at : b.row.created_at = b.db_now
  expires_in : b.expires_in = ACCESS_TOKEN_TTL_SECS

namespace Follows

variable {a b : Issue}

/-- One rotation adds to a lifetime by how far the application's clock was
ahead of the database's when the rotated pair was issued. -/
theorem access_lifetime_eq (h : Follows a b) (ha : a.row.created_at = a.db_now) :
    b.access_lifetime = a.access_lifetime + (a.now - a.db_now) := by
  unfold Issue.access_lifetime
  rw [h.access, ha]
  ring

theorem refresh_lifetime_eq (h : Follows a b) (ha : a.row.created_at = a.db_now) :
    b.refresh_lifetime = a.refresh_lifetime.map (· + (a.now - a.db_now)) := by
  unfold Issue.refresh_lifetime
  rw [h.refresh, ha, Option.map_map, Option.map_map]
  congr 1
  funext exp
  simp only [Function.comp_apply]
  ring

end Follows

/-- Along a chain of rotations the lifetimes stay what they were exactly when
the clocks agreed at every issue that was rotated later. -/
theorem lifetimes_eq_iff {a : Issue} {rotated : List Issue} (ha : a.row.created_at = a.db_now)
    (hchain : List.IsChain Follows (a :: rotated)) :
    (∀ i ∈ rotated, i.access_lifetime = a.access_lifetime ∧ i.refresh_lifetime = a.refresh_lifetime) ↔
      ∀ i ∈ (a :: rotated).dropLast, i.now = i.db_now := by
  induction rotated generalizing a with
  | nil => simp
  | cons b rotated ih =>
    obtain ⟨hfollows, hrest⟩ := List.isChain_cons_cons.mp hchain
    have hb := ih hfollows.created_at hrest
    have haccess := hfollows.access_lifetime_eq ha
    have hrefresh := hfollows.refresh_lifetime_eq ha
    rw [List.dropLast_cons_cons, List.forall_mem_cons, List.forall_mem_cons, ← hb]
    constructor
    · rintro ⟨⟨hsame, hsame'⟩, hothers⟩
      have hclocks : a.now = a.db_now := by
        rw [haccess] at hsame
        exact Int.sub_eq_zero.mp (add_eq_left.mp hsame)
      refine ⟨hclocks, fun i hi => ?_⟩
      rw [hsame, hsame']
      exact hothers i hi
    · rintro ⟨hclocks, hothers⟩
      have hzero : a.now - a.db_now = 0 := Int.sub_eq_zero.mpr hclocks
      have hsame : b.access_lifetime = a.access_lifetime := by rw [haccess, hzero, Int.add_zero]
      have hsame' : b.refresh_lifetime = a.refresh_lifetime := by
        rw [hrefresh, hzero]
        simp
      refine ⟨⟨hsame, hsame'⟩, fun i hi => ?_⟩
      rw [← hsame, ← hsame']
      exact hothers i hi

theorem expires_in_of_chain {a : Issue} {rotated : List Issue} (hchain : List.IsChain Follows (a :: rotated)) :
    ∀ i ∈ rotated, i.expires_in = ACCESS_TOKEN_TTL_SECS := by
  induction rotated generalizing a with
  | nil => simp
  | cons b rotated ih =>
    obtain ⟨hfollows, hrest⟩ := List.isChain_cons_cons.mp hchain
    exact List.forall_mem_cons.mpr ⟨hfollows.expires_in, ih hrest⟩

section Chain

variable {sha256_hex : String → String} {f : Uuid} {s s' : OauthDb} {draws : Draws} {last : Issue}

/-- The pair handed out last is the only one of its family that may be live. -/
structure Newest (f : Uuid) (last : Issue) (s : OauthDb) : Prop where
  live : ∀ r, Live f s.oauth_tokens r → r = last.row
  created_at : last.row.created_at = last.db_now

theorem handedOut_eq {response : TokenResponse} {row : Model} (hrow : row ∈ s'.oauth_tokens.rows)
    (hhash : row.access_token_hash = sha256_hex response.access_token) :
    handedOut sha256_hex s s' (.ok response) = some ⟨s.now, s.db_now, row, response.expires_in⟩ := by
  have hfind : (s'.oauth_tokens.find fun r => r.access_token_hash = sha256_hex response.access_token) = some row :=
    Table.find_of_mem hrow (decide_eq_true hhash) fun a _ ha => by
      simp [indexes, of_decide_eq_true ha, hhash]
  rw [handedOut, hfind]
  rfl

theorem Newest.idle (h : Newest f last s) (hidle : Idle s s') : Newest f last s' :=
  ⟨fun r hr => h.live r (hidle.live f r hr), h.created_at⟩

variable (sha256_hex) in
/-- The step lemma: a step hands out nothing of the family, or it hands out the
pair that follows the newest one and is the newest one from then on. -/
theorem Newest.step (h : Newest f last s) (step : Step) :
    (step.issue sha256_hex f s = none ∧ Newest f last (step.run sha256_hex s)) ∨
      ∃ i, step.issue sha256_hex f s = some i ∧ Follows last i ∧ Newest f i (step.run sha256_hex s) := by
  cases step with
  | pass app db => exact .inl ⟨rfl, h.live, h.created_at⟩
  | grant req draws =>
    obtain ⟨hidle, hnone, _⟩ | ⟨t, row, mid, _, hrotates, hcases⟩ :=
      grant_cases sha256_hex s draws req rfl
    · refine .inl ⟨?_, h.idle hidle⟩
      simp only [Step.issue]
      cases hresponse : ((refresh.grant sha256_hex req draws).alone s).1.2 with
      | error e => rfl
      | ok response => exact absurd hresponse (hnone response)
    -- what is live afterwards in a family other than the exchanged row's
    have hother : row.family_id ≠ f → Newest f last mid := by
      refine fun hf => ⟨fun r hr => ?_, h.created_at⟩
      obtain rfl | ⟨hold, _⟩ := hrotates.of_live hr
      · exact absurd hr.2.1 hf
      · exact h.live r hold
    obtain ⟨hresponse, hs, _⟩ | ⟨hresponse, hs, _⟩ := hcases
    · have hissue : (Step.grant req draws).issue sha256_hex f s = (some ⟨s.now, s.db_now,
          successor sha256_hex row draws s.next_id s.now s.db_now, ACCESS_TOKEN_TTL_SECS⟩).filter
            fun i => i.row.family_id = f := by
        simp only [Step.issue, hresponse, hs]
        rw [handedOut_eq hrotates.mem rfl]
        rfl
      by_cases hf : row.family_id = f
      · right
        refine ⟨_, hissue.trans (Option.filter_some_pos (decide_eq_true hf)), ?_, ?_⟩
        · obtain rfl := h.live row ⟨hrotates.found, hf, hrotates.live⟩
          exact ⟨rfl, rfl, rfl, rfl⟩
        · rw [Step.run, hs]
          refine ⟨fun r hr => ?_, rfl⟩
          obtain hnew | ⟨hold, hid⟩ := hrotates.of_live hr
          · exact hnew
          · have hsame := (h.live r hold).trans (h.live row ⟨hrotates.found, hf, hrotates.live⟩).symm
            exact absurd (congrArg Model.id hsame) hid
      · left
        rw [Step.run, hs]
        exact ⟨hissue.trans (Option.filter_some_neg (by simp [successor, hf])), hother hf⟩
    · left
      refine ⟨by simp only [Step.issue, hresponse, handedOut, Option.filter_none], ?_⟩
      rw [Step.run, hs]
      by_cases hf : row.family_id = f
      · refine ⟨fun r hr => ?_, h.created_at⟩
        have hrevoked := revoked_of_revokeFamily hr.1 (hr.2.1.trans hf.symm)
        rw [hr.2.2] at hrevoked
        cases hrevoked
      · exact (hother hf).idle (idle_revokeFamily row.family_id mid)

variable (sha256_hex) in
/-- The run lemma: the pairs of a family handed out one after the other form a
chain of rotations. -/
theorem Newest.chain (h : Newest f last s) (steps : List Step) :
    List.IsChain Follows (last :: issues sha256_hex f s steps) := by
  induction steps generalizing last s with
  | nil => exact .singleton last
  | cons step steps ih =>
    unfold issues
    obtain ⟨hissue, hnext⟩ | ⟨i, hissue, hfollows, hnext⟩ := h.step sha256_hex step
    · rw [hissue]
      exact ih hnext
    · rw [hissue]
      exact List.isChain_cons_cons.mpr ⟨hfollows, ih hnext⟩

end Chain

/-- A family starts with the pair `first` that a code exchange hands out; then
the clocks move on at will and refresh grants are served. The rotated tokens
keep the lifetimes of the first ones, with every `expires_in` true, exactly
when at every issue whose tokens were rotated later the application's clock,
which dates the expiries, and the database's, which dates the row, agreed. -/
theorem lifetimes_kept_iff (sha256_hex s256 : String → String) (parse_uuid : String → Option Uuid)
    (s₀ s : OauthDb) (req : TokenRequest) (draws : Draws)
    {consumed : Option (Except StoreError (Option OauthCode))} {response : Except OAuthError TokenResponse}
    (hserved : (exchange_code sha256_hex s256 parse_uuid req draws).alone s₀ = ((consumed, response), s))
    {first : Issue} (hfirst : handedOut sha256_hex s₀ s response = some first)
    (hnew : ∀ r ∈ s₀.oauth_tokens.rows, r.family_id ≠ draws.family_id) (steps : List Step) :
    LifetimesKept first (issues sha256_hex draws.family_id s steps) ↔
      ∀ i ∈ (first :: issues sha256_hex draws.family_id s steps).dropLast, i.now = i.db_now := by
  cases response with
  | error e => cases hfirst
  | ok response =>
    obtain ⟨code, verifier, row, _, _, _, _, rfl, hinsert, _, _⟩ := exchange_code_ok hserved
    rw [handedOut_eq ((Table.mem_of_insert hinsert).mpr (.inr rfl)) rfl] at hfirst
    have hnewest : Newest draws.family_id first s := by
      cases hfirst
      refine ⟨fun r hr => ?_, rfl⟩
      obtain hold | hrow := (Table.mem_of_insert hinsert).mp hr.1
      · exact absurd hr.2.1 (hnew r hold)
      · exact hrow
    have htrue : first.expires_in = ACCESS_TOKEN_TTL_SECS ∧
        first.access_lifetime = (ACCESS_TOKEN_TTL_SECS : Int) * 1000000 := by
      cases hfirst
      refine ⟨rfl, ?_⟩
      simp [Issue.access_lifetime, issuedRow, from_secs]
    have hchain := hnewest.chain sha256_hex steps
    refine Iff.trans ?_ (lifetimes_eq_iff hnewest.created_at hchain)
    constructor
    · exact fun h i hi => ⟨h.access i hi, h.refresh i hi⟩
    · intro h
      refine ⟨fun i hi => (h i hi).1, fun i hi => (h i hi).2, fun i hi => ?_⟩
      obtain rfl | hi := List.mem_cons.mp hi
      · rw [htrue.1, htrue.2]
      · rw [expires_in_of_chain hchain i hi, (h i hi).1, htrue.2]

section Skew

open redemption

def skewDraws : Draws :=
  ⟨"mG0kXt8pWv2aYc5dR7eLhBzN1qUsFjKoI4xPwQ3CbTE", "Vn8ZrJ2fKx5uYwEhT1bQmC7sLpD3gAoR6iXv0NkWz9M", 100⟩

/-- A minute after the code was exchanged its pair is rotated. -/
def skewSteps : List Step :=
  [.pass 60000000 60000000,
    .grant (refreshRequest "Vn8ZrJ2fKx5uYwEhT1bQmC7sLpD3gAoR6iXv0NkWz9M")
      ⟨"t4HqBy7WcEo1ZsUnM2rGfK8xVd5jLpA0iTwR9vXhQ3Y", "p6JmDf0XsGi8NzKwQ4vBtR1yEo7aUcH3lLxTqW5bV2Z", 0⟩]

/-- The store with the application's clock ahead of the database's. -/
def skewDb (ahead : Int) : OauthDb := { sampleDb with now := sampleDb.now + ahead }

def skewServed (ahead : Int) :
    (Option (Except StoreError (Option OauthCode)) × Except OAuthError TokenResponse) × OauthDb :=
  (exchange_code sampleSha sampleS256 (fun _ => none) sampleRequest skewDraws).alone (skewDb ahead)

/-- With clocks that agree, the rotated pair has the lifetimes of the first. -/
theorem lifetimes_kept_in_step :
    ∃ first, handedOut sampleSha (skewDb 0) (skewServed 0).2 (skewServed 0).1.2 = some first ∧
      (issues sampleSha 100 (skewServed 0).2 skewSteps).length = 1 ∧
      LifetimesKept first (issues sampleSha 100 (skewServed 0).2 skewSteps) := by
  refine ⟨_, rfl, by decide, ?_⟩
  exact (lifetimes_kept_iff sampleSha sampleS256 (fun _ => none) (skewDb 0) (skewServed 0).2 sampleRequest
    skewDraws rfl rfl (by decide) skewSteps).mpr (by decide)

/-- With the database's clock five minutes behind, the rotated access token
lives an hour and five minutes, while `expires_in` still says an hour. -/
theorem lifetimes_stretched_by_skew :
    ∃ first rotated, handedOut sampleSha (skewDb 300000000) (skewServed 300000000).2 (skewServed 300000000).1.2 =
        some first ∧
      issues sampleSha 100 (skewServed 300000000).2 skewSteps = [rotated] ∧
      first.access_lifetime = 3600000000 ∧ rotated.access_lifetime = 3900000000 ∧ rotated.expires_in = 3600 ∧
      ¬ LifetimesKept first (issues sampleSha 100 (skewServed 300000000).2 skewSteps) := by
  refine ⟨_, _, rfl, rfl, by decide, by decide, by decide, fun h => ?_⟩
  have hsame := h.access _ (List.mem_singleton.mpr rfl)
  exact absurd hsame (by decide)

end Skew

end api2mcp.server.oauth.lifetimes
