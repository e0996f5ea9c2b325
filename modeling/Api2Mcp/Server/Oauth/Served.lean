import Api2Mcp.Server.Oauth.Token
import Api2Mcp.Store.OauthSuccession

namespace api2mcp.server.oauth

open relational concurrent
open api2mcp.entity api2mcp.entity.oauth_tokens api2mcp.store

/-- The refusal of a family that has outlived its absolute lifetime. -/
def exceeded : OAuthError := .bad "invalid_grant" "refresh token family exceeded its absolute lifetime"

variable {sha256_hex : String → String} {s s' : OauthDb} {draws : Draws}

/-- A code that was redeemed was there, unused and in time; the tokens stay as
they are. -/
theorem consume_code_ok {code : String} {consumed : OauthCode}
    (h : (consume_code sha256_hex code).alone s = (.ok (some consumed), s')) :
    ∃ row ∈ s.oauth_codes.rows, row.code_hash = sha256_hex code ∧ row.used = false ∧ s.now < row.expires_at ∧
      consumed = ⟨row.client_id, row.user_id, row.redirect_uri, row.code_challenge, row.code_challenge_method,
        row.resource, row.scope⟩ ∧
      s' = { s with oauth_codes := markUsed row.code_hash s.oauth_codes } := by
  simp only [consume_code, find_code, utc_now, mark_used, Task.read_bind, Task.alone, id] at h
  split at h
  · cases h
  rename_i row hfind
  obtain ⟨hrow, hhash⟩ := Table.mem_of_find hfind
  split at h
  · cases h
  rename_i hunused
  simp only [Task.alone, id] at h
  split at h
  · cases h
  rename_i hunexpired
  simp only [Task.exec_bind, Task.alone] at h
  split at h
  · cases h
  cases h
  exact ⟨row, hrow, of_decide_eq_true hhash, by simpa using hunused, Int.not_le.mp hunexpired, rfl, rfl⟩

/-- A code exchange that returned tokens, run to its end: the code was there,
unused and in time, the request passed the checks against it, and a new family
starts with the row that was inserted. -/
theorem exchange_code_ok {s256 : String → String} {parse_uuid : String → Option Uuid} {req : TokenRequest}
    {consumed : Option (Except StoreError (Option OauthCode))} {response : TokenResponse}
    (h : (exchange_code sha256_hex s256 parse_uuid req draws).alone s = ((consumed, .ok response), s')) :
    ∃ code verifier, ∃ row ∈ s.oauth_codes.rows, req.code = some code ∧ row.code_hash = sha256_hex code ∧
      check_grant s256 parse_uuid req verifier
        ⟨row.client_id, row.user_id, row.redirect_uri, row.code_challenge, row.code_challenge_method,
          row.resource, row.scope⟩ = .ok () ∧
      response = token_response draws.access_token (some draws.refresh_token) ACCESS_TOKEN_TTL_SECS
        (some (row.scope.getD SCOPE_MCP)) ∧
      s.oauth_tokens.insert (issuedRow sha256_hex
        ⟨row.client_id, row.user_id, some (row.scope.getD SCOPE_MCP), row.resource⟩ draws.family_id
        (some draws.refresh_token) (s.now + from_secs ACCESS_TOKEN_TTL_SECS)
        (some (s.now + from_secs (60 * 60 * 24 * REFRESH_TOKEN_TTL_DAYS))) draws s.next_id s.db_now) =
          some s'.oauth_tokens ∧
      s'.now = s.now ∧ s'.db_now = s.db_now := by
  unfold exchange_code at h
  split at h
  · cases h
  rename_i code hcode
  split at h
  · cases h
  rename_i verifier hverifier
  rw [Task.alone_bind] at h
  cases hconsume : (consume_code sha256_hex code).alone s with
  | mk answer mid =>
    simp only [hconsume, Task.alone_bind, redeem] at h
    split at h
    · cases h
    · cases h
    rename_i grant
    split at h
    · cases h
    rename_i hcheck
    obtain ⟨row, hrow, hhash, _, _, rfl, rfl⟩ := consume_code_ok hconsume
    simp only [issue_token, Task.alone_bind] at h
    cases hissue : (issue_in_family sha256_hex
      ⟨row.client_id, row.user_id, some (row.scope.getD SCOPE_MCP), row.resource⟩ draws.family_id
      (from_secs ACCESS_TOKEN_TTL_SECS) (some (from_secs (60 * 60 * 24 * REFRESH_TOKEN_TTL_DAYS))) draws).alone
        { s with oauth_codes := markUsed row.code_hash s.oauth_codes } with
    | mk issued after =>
      simp only [hissue] at h
      cases issued with
      | error e => cases h
      | ok issued =>
        cases h
        obtain ⟨rfl, t, hinsert, rfl⟩ := issue_in_family_ok hissue
        exact ⟨code, verifier, row, hrow, hcode, hhash, hcheck, rfl, hinsert, rfl, rfl⟩

/-- The family of a pair just issued has an oldest member. -/
theorem family_started_at_alone {f : Uuid} {r : Model} (hr : r ∈ s.oauth_tokens.rows) (hfamily : r.family_id = f) :
    ∃ started : DateTime, (family_started_at f).alone s = (some started, s) ∧
      (∀ a ∈ s.oauth_tokens.rows, a.family_id = f → started ≤ a.created_at) ∧
      ∃ a ∈ s.oauth_tokens.rows, a.family_id = f ∧ a.created_at = started := by
  have hmem : r.created_at ∈ (s.oauth_tokens.select fun a => a.family_id = f).map (·.created_at) :=
    List.mem_map_of_mem (Table.mem_select.mpr ⟨hr, decide_eq_true hfamily⟩)
  cases hmin : ((s.oauth_tokens.select fun a => a.family_id = f).map (·.created_at)).min? with
  | none =>
    rw [List.min?_eq_none_iff] at hmin
    simp [hmin] at hmem
  | some started =>
    obtain ⟨hstarted, hleast⟩ := List.min?_eq_some_iff.mp hmin
    obtain ⟨a, ha, hcreated⟩ := List.mem_map.mp hstarted
    obtain ⟨ha, hf⟩ := Table.mem_select.mp ha
    refine ⟨started, by simp only [family_started_at, Task.read, Task.alone, hmin, id], fun b hb hbf => ?_,
      a, ha, of_decide_eq_true hf, hcreated⟩
    exact hleast _ (List.mem_map_of_mem (Table.mem_select.mpr ⟨hb, decide_eq_true hbf⟩))

variable (sha256_hex s draws) in
/-- A refresh grant run to its end: it issues nothing, or it exchanges the
token and the family is young enough, or it exchanges it and revokes the whole
family, the new pair with it. -/
theorem grant_cases (req : TokenRequest) {answer : Option (Except StoreError (Option IssuedOauthToken))}
    {response : Except OAuthError TokenResponse}
    (h : (refresh.grant sha256_hex req draws).alone s = ((answer, response), s')) :
    (Idle s s' ∧ (∀ r, response ≠ .ok r) ∧ response ≠ .error exceeded) ∨
      ∃ t row after, req.refresh_token = some t ∧ Rotates sha256_hex s t draws row after ∧
        ((response = .ok (token_response draws.access_token
              (row.refresh_expires_at.map fun _ => draws.refresh_token) ACCESS_TOKEN_TTL_SECS none) ∧
            s' = after ∧
            ∀ r ∈ after.oauth_tokens.rows, r.family_id = row.family_id →
              s.now - r.created_at ≤ refresh.days refresh.ABSOLUTE_FAMILY_TTL_DAYS) ∨
          (response = .error exceeded ∧
            s' = { after with oauth_tokens := revokeFamily row.family_id after.oauth_tokens } ∧
            ∃ r ∈ after.oauth_tokens.rows, r.family_id = row.family_id ∧
              refresh.days refresh.ABSOLUTE_FAMILY_TTL_DAYS < s.now - r.created_at)) := by
  unfold refresh.grant at h
  split at h
  · cases h
    exact .inl ⟨.refl s, nofun, by decide⟩
  rename_i t ht
  rw [Task.alone_bind] at h
  cases hrotate : (rotate_refresh_token sha256_hex t draws).alone s with
  | mk rotated after =>
    simp only [hrotate, Task.alone_bind] at h
    obtain ⟨hidle, hnone⟩ | ⟨row, hrotates, rfl⟩ := rotate_cases hrotate
    · left
      cases rotated with
      | error e =>
        cases h
        have hother : OAuthError.server_error "internal error" ≠ exceeded := by decide
        exact ⟨hidle, nofun, fun h => hother (Except.error.inj h)⟩
      | ok issued =>
        cases issued with
        | some issued => exact absurd rfl (hnone issued)
        | none =>
          cases h
          have hother : OAuthError.bad "invalid_grant" "unknown, reused, revoked, or expired refresh token" ≠
              exceeded := by decide
          exact ⟨hidle, nofun, fun h => hother (Except.error.inj h)⟩
    · right
      refine ⟨t, row, after, ht, hrotates, ?_⟩
      obtain ⟨started, hstarted, hleast, holdest⟩ :=
        family_started_at_alone (f := row.family_id) hrotates.mem rfl
      simp only [refresh.check_family, Task.alone_bind, hstarted, utc_now, Task.read, Task.alone, id,
        hrotates.now, Task.pure_eq] at h
      split at h
      · rename_i hold
        right
        rw [Task.alone_bind, revoke_family_alone] at h
        cases h
        obtain ⟨a, ha, hf, rfl⟩ := holdest
        exact ⟨rfl, rfl, a, ha, hf, hold⟩
      · rename_i hyoung
        left
        cases h
        refine ⟨rfl, rfl, fun r hr hf => ?_⟩
        exact Int.le_trans (Int.sub_le_sub_left (hleast r hr hf) s.now) (Int.not_lt.mp hyoung)

end api2mcp.server.oauth
