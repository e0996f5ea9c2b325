import Api2Mcp.Concurrent.RelyGuarantee
import Api2Mcp.Server.Oauth.Token
import Api2Mcp.Store.OauthFamily

namespace api2mcp.server.oauth.rotation

open relational concurrent
open api2mcp.entity api2mcp.entity.oauth_tokens api2mcp.store

/-- How far a call's rotation got: its update ran on a row of a family, or its
insert ran as well. -/
inductive Phase where
  | idle
  | rotating (family_id : Uuid) (id : Int)
  | rotated (family_id : Uuid) (id : Int)

/-- The row whose update the call ran. -/
def Phase.spent : Phase → Option Int
  | .idle => none
  | .rotating _ id | .rotated _ id => some id

def Phase.advance : Phase → OauthStmt → Phase
  | _, .revoke_rotated f id => .rotating f id
  | .rotating f id, .issue_in_family _ => .rotated f id
  | φ, _ => φ

/-- What a statement does to the tokens: a rotation's update revokes a row of
the family it names, its insert follows it, a family revocation revokes one
row, and the others only read. -/
def rotateGuar (φ : Phase) (l : OauthStmt) (s s' : OauthDb) : Prop :=
  match l with
  | .revoke_rotated f id =>
    φ = .idle ∧ (∃ r ∈ s.oauth_tokens.rows, r.id = id ∧ r.family_id = f) ∧
      s'.oauth_tokens = revokeId id s.oauth_tokens
  | .revoke_member _ id => s'.oauth_tokens = revokeId id s.oauth_tokens
  | .issue_in_family f =>
    (∃ id, φ = .rotating f id) ∧ (s'.oauth_tokens = s.oauth_tokens ∨
      ∃ row, row.family_id = f ∧ s.oauth_tokens.insert row = some s'.oauth_tokens)
  | _ => s'.oauth_tokens = s.oauth_tokens

def rotateSpec {α : Type} (post : Phase → OauthDb → α → Prop) : Spec OauthStmt OauthDb α Phase where
  rely s s' := Keeps s.oauth_tokens s'.oauth_tokens
  advance := Phase.advance
  guar := rotateGuar
  post := post

theorem rotateGuar.keeps {φ : Phase} {l : OauthStmt} {s s' : OauthDb} (h : rotateGuar φ l s s') :
    Keeps s.oauth_tokens s'.oauth_tokens := by
  have hsame : s'.oauth_tokens = s.oauth_tokens → Keeps s.oauth_tokens s'.oauth_tokens := by
    intro heq
    rw [heq]
    exact .refl _
  cases l with
  | revoke_rotated f id =>
    rw [h.2.2]
    exact keeps_revokeId _ _
  | revoke_member f id =>
    rw [show s'.oauth_tokens = _ from h]
    exact keeps_revokeId _ _
  | issue_in_family f =>
    obtain ⟨_, heq | ⟨row, _, hinsert⟩⟩ := h
    · exact hsame heq
    · exact keeps_insert hinsert
  | now | find_code _ | mark_used _ | find_by_refresh_hash _ | list_family _
  | family_started_at _ | tick => exact hsame h

/-- Only an issue into the family adds to it. -/
theorem rotateGuar.noneIssued {φ : Phase} {l : OauthStmt} {s s' : OauthDb} {f : Uuid}
    (h : rotateGuar φ l s s') (hl : l ≠ .issue_in_family f) :
    NoneIssued f s.oauth_tokens s'.oauth_tokens := by
  have hsame : s'.oauth_tokens = s.oauth_tokens →
      NoneIssued f s.oauth_tokens s'.oauth_tokens := by
    intro heq
    rw [heq]
    exact .refl _ _
  cases l with
  | revoke_rotated f' id =>
    rw [h.2.2]
    exact noneIssued_revokeId _ _ _
  | revoke_member f' id =>
    rw [show s'.oauth_tokens = _ from h]
    exact noneIssued_revokeId _ _ _
  | issue_in_family f' =>
    obtain ⟨_, heq | ⟨row, hfamily, hinsert⟩⟩ := h
    · exact hsame heq
    · refine noneIssued_insert hinsert fun hrow => hl ?_
      rw [← hfamily, hrow]
  | now | find_code _ | mark_used _ | find_by_refresh_hash _ | list_family _
  | family_started_at _ | tick => exact hsame h

section Meets

variable {sha256_hex : String → String}

/-- The call exchanged a row with this hash. -/
def Exchanged (h : String) (φ : Phase) (s : OauthDb) : Prop :=
  ∃ f id, φ = .rotated f id ∧
    ∃ r ∈ s.oauth_tokens.rows, r.id = id ∧ r.refresh_token_hash = some h

theorem Exchanged.mono {h : String} {φ : Phase} {s s' : OauthDb} (hex : Exchanged h φ s)
    (hkeeps : Keeps s.oauth_tokens s'.oauth_tokens) : Exchanged h φ s' := by
  obtain ⟨f, id, hφ, r, hr, hid, hhash⟩ := hex
  obtain ⟨r', hr', haged⟩ := hkeeps r hr
  exact ⟨f, id, hφ, r', hr', haged.id_eq.trans hid, haged.hash_eq.trans hhash⟩

/-- Revoking a family leaves the phase alone, and with it whatever the others
and later revocations keep. -/
theorem revoke_rows_meets {Q : Phase → OauthDb → Prop}
    (hQ : ∀ φ s s', Keeps s.oauth_tokens s'.oauth_tokens → Q φ s → Q φ s') {φ : Phase}
    (rows : List Model) {w : OauthDb} (hw : Q φ w) :
    (revoke_rows rows).Meets (rotateSpec fun φ s _ => Q φ s) φ w := by
  induction rows generalizing w with
  | nil => exact .done fun s hs => hQ φ w s hs hw
  | cons row rows ih =>
    unfold revoke_rows
    split
    · exact ih hw
    simp only [set_revoked, Task.exec_bind, Task.pure_eq]
    refine .stmt (fun s _ _ => rfl) fun s hs _ => ?_
    have hnext : Q φ { s with oauth_tokens := revokeId row.id s.oauth_tokens } :=
      hQ φ s _ (keeps_revokeId _ _) (hQ φ w s hs hw)
    split
    · exact .done fun s' hs' => hQ φ _ s' hs' hnext
    · exact ih hnext

theorem revoke_family_meets {Q : Phase → OauthDb → Prop}
    (hQ : ∀ φ s s', Keeps s.oauth_tokens s'.oauth_tokens → Q φ s → Q φ s') {φ : Phase}
    (f : Uuid) {w : OauthDb} (hw : Q φ w) :
    (revoke_family f).Meets (rotateSpec fun φ s _ => Q φ s) φ w := by
  simp only [revoke_family, list_family, Task.read_bind]
  exact .stmt (fun s _ _ => rfl) fun s hs _ => revoke_rows_meets hQ _ (hQ φ w s hs hw)

/-- What `rotate_refresh_token` answers about the token it was given. -/
def rotatePost (h : String) (φ : Phase) (s : OauthDb)
    (a : Except StoreError (Option IssuedOauthToken)) : Prop :=
  ∀ issued, a = .ok (some issued) → Exchanged h φ s

theorem issue_guar {grant : TokenGrant} {f : Uuid} {refresh_token : Option String}
    {exp : DateTime} {refresh_exp : Option DateTime} {draws : Draws} (id : Int) (s : OauthDb) :
    rotateGuar (.rotating f id) (.issue_in_family f) s
      (insertToken (issuedRow sha256_hex grant f refresh_token exp refresh_exp draws) s).2 := by
  refine ⟨⟨id, rfl⟩, ?_⟩
  unfold insertToken
  split
  · exact .inl rfl
  · rename_i t hinsert
    exact .inr ⟨_, rfl, hinsert⟩

theorem exchange_row_meets {row : Model} {h : String} {draws : Draws} {w : OauthDb}
    (hhash : row.refresh_token_hash = some h) (hrow : ∃ r ∈ w.oauth_tokens.rows, Aged row r) :
    (exchange_row sha256_hex row draws).Meets (rotateSpec (rotatePost h)) .idle w := by
  unfold exchange_row
  split
  · exact .done fun _ _ _ hanswer => by cases hanswer
  have hthere : ∀ s : OauthDb, Keeps w.oauth_tokens s.oauth_tokens →
      ∃ r ∈ s.oauth_tokens.rows, Aged row r := by
    intro s hs
    obtain ⟨r, hr, haged⟩ := hrow
    obtain ⟨r', hr', haged'⟩ := hs r hr
    exact ⟨r', hr', haged.trans haged'⟩
  simp only [set_revoked, Task.exec_bind, Task.pure_eq]
  refine .stmt (fun s hs _ => ⟨rfl, ?_, rfl⟩) fun s hs _ => ?_
  · obtain ⟨r, hr, haged⟩ := hthere s hs
    exact ⟨r, hr, haged.id_eq, haged.family_eq⟩
  split
  · exact .done fun _ _ _ hanswer => by cases hanswer
  -- from here on the call is `rotating`, and its row is kept
  obtain ⟨r, hr, haged⟩ := hthere s hs
  have hdone : Exchanged h (.rotated row.family_id row.id)
      { s with oauth_tokens := revokeId row.id s.oauth_tokens } := by
    obtain ⟨r', hr', haged'⟩ := keeps_revokeId row.id s.oauth_tokens r hr
    exact ⟨_, _, rfl, r', hr', haged'.id_eq.trans haged.id_eq,
      (haged'.hash_eq.trans haged.hash_eq).trans hhash⟩
  simp only [issue_in_family, utc_now, Task.read_bind, Task.stmt_bind]
  refine .stmt (fun s _ _ => rfl) fun s hs _ => ?_
  split
  · exact .done fun _ _ _ hanswer => by cases hanswer
  split
  · exact .done fun _ _ _ hanswer => by cases hanswer
  simp only [Task.exec_bind, Task.stmt_bind]
  refine .stmt (fun s _ _ => issue_guar row.id s) fun s' hs' _ => ?_
  split
  · exact .done fun _ _ _ hanswer => by cases hanswer
  · refine .done fun s'' hs'' _ _ => ?_
    exact ((hdone.mono (Keeps.trans hs hs')).mono (issue_guar row.id s').keeps).mono hs''

theorem rotate_refresh_token_meets (refresh_token : String) (draws : Draws) (w : OauthDb) :
    (rotate_refresh_token sha256_hex refresh_token draws).Meets
      (rotateSpec (rotatePost (sha256_hex refresh_token))) .idle w := by
  simp only [rotate_refresh_token, find_by_refresh_hash, Task.read_bind, Task.pure_eq]
  refine .stmt (fun s _ _ => rfl) fun s _ _ => ?_
  cases hfind : s.oauth_tokens.find fun r => r.refresh_token_hash = some (sha256_hex refresh_token)
    with
  | none => exact .done fun _ _ _ hanswer => by cases hanswer
  | some row =>
    obtain ⟨hrow, hhash⟩ := Table.mem_of_find hfind
    replace hhash : row.refresh_token_hash = some (sha256_hex refresh_token) := by
      simpa using hhash
    dsimp only
    split
    · refine (revoke_family_meets (Q := fun _ _ => True) (fun _ _ _ _ _ => trivial) _ trivial).bind
        (fun _ => .refl _) fun φ w answer _ => ?_
      cases answer with
      | error e => exact .done fun _ _ _ hanswer => by cases hanswer
      | ok _ => exact .done fun _ _ _ hanswer => by cases hanswer
    · unfold refresh_expired
      split
      · simp only [Task.pure_eq, Task.done_bind, Bool.false_eq_true, if_false]
        exact exchange_row_meets hhash ⟨row, hrow, .refl row⟩
      · simp only [utc_now, Task.read_bind, Task.pure_eq, Task.stmt_bind, Task.done_bind]
        refine .stmt (fun s _ _ => rfl) fun s' hs' _ => ?_
        split
        · exact .done fun _ _ _ hanswer => by cases hanswer
        · exact exchange_row_meets hhash (hs' row hrow)

theorem check_family_meets {Q : Phase → OauthDb → Prop}
    (hQ : ∀ φ s s', Keeps s.oauth_tokens s'.oauth_tokens → Q φ s → Q φ s') {φ : Phase}
    (rotated : Except StoreError (Option IssuedOauthToken)) {w : OauthDb} (hw : Q φ w) :
    (refresh.check_family rotated).Meets (rotateSpec fun φ s _ => Q φ s) φ w := by
  have hanswer : ∀ (w : OauthDb) (a : Except OAuthError TokenResponse), Q φ w →
      (Task.done a : OauthTask _).Meets (rotateSpec fun φ s _ => Q φ s) φ w :=
    fun w _ hw => .done fun s hs => hQ φ w s hs hw
  unfold refresh.check_family
  split
  · exact hanswer _ _ hw
  · exact hanswer _ _ hw
  rename_i issued
  have htail : ∀ (started : DateTime) (w : OauthDb), Q φ w →
      ∀ {told : Except StoreError Unit → OauthTask (Except OAuthError TokenResponse)}
        {answer : Except OAuthError TokenResponse}, (∀ revoked, ∃ a, told revoked = .done a) →
      (do
        let now ← utc_now
        if now - started > refresh.days refresh.ABSOLUTE_FAMILY_TTL_DAYS then
          revoke_family issued.family_id >>= told
        else .done answer : OauthTask (Except OAuthError TokenResponse)).Meets
        (rotateSpec fun φ s _ => Q φ s) φ w := by
    intro started w hw told answer htold
    simp only [utc_now, Task.read_bind]
    refine .stmt (fun s _ _ => rfl) fun s hs _ => ?_
    split
    · refine (revoke_family_meets hQ _ (hQ φ w s hs hw)).bind (fun _ => .refl _) ?_
      intro φ w revoked hw
      obtain ⟨a, ha⟩ := htold revoked
      rw [ha]
      exact .done fun s hs => hQ φ w s hs hw
    · exact hanswer _ _ (hQ φ w s hs hw)
  simp only [family_started_at, Task.read_bind]
  refine .stmt (fun s _ _ => rfl) fun s hs _ => ?_
  split
  · exact htail _ s (hQ φ w s hs hw) fun revoked => by cases revoked <;> exact ⟨_, rfl⟩
  · simp only [utc_now, Task.read_bind]
    refine .stmt (fun s _ _ => rfl) fun s' hs' _ => ?_
    exact htail _ s' (hQ φ s s' hs' (hQ φ w s hs hw)) fun revoked => by cases revoked <;> exact ⟨_, rfl⟩

end Meets

end api2mcp.server.oauth.rotation
