import Api2Mcp.Concurrent.Faults
import Api2Mcp.Server.Oauth.Reuse
import Api2Mcp.Store.OauthSuccession

namespace api2mcp.server.oauth.rotation

open relational concurrent
open api2mcp.store
open api2mcp.entity.oauth_tokens

/-- The statements that go to the database, which may fail; the clock cannot. -/
def sent : OauthStmt → Bool
  | .now => false
  | .tick => false
  | _ => true

/-- A call of which a statement failed returns that error: every statement of
`rotate_refresh_token` stands before a `?`. -/
def returned (run : Option (Except StoreError (Option IssuedOauthToken)) × Nat × OauthDb) :
    Except StoreError (Option IssuedOauthToken) × OauthDb :=
  (run.1.getD (.error .Db), run.2.2)

section

variable (sha256_hex : String → String)

/-- `rotate_refresh_token` on a database that deals these fates to its
statements in turn. -/
def rotateFaced (fates : Nat → Fate) (refresh_token : String) (draws : Draws) (s : OauthDb) :
    Except StoreError (Option IssuedOauthToken) × OauthDb :=
  returned ((rotate_refresh_token sha256_hex refresh_token draws).faced sent fates 0 s)

/-- After a rotation that failed, the tokens are as before and whoever presents
the refresh token again is answered as if it had not been presented. -/
structure Harmless (refresh_token : String) (s s' : OauthDb) : Prop where
  tokens : s'.oauth_tokens = s.oauth_tokens
  retry : ∀ draws, ((rotate_refresh_token sha256_hex refresh_token draws).alone s').1 =
    ((rotate_refresh_token sha256_hex refresh_token draws).alone s).1

/-- The row `rotate_refresh_token` finds for a presented token. -/
def presented (refresh_token : String) (s : OauthDb) : Option Model :=
  s.oauth_tokens.find fun r => r.refresh_token_hash = some (sha256_hex refresh_token)

/-- The members of the family a reuse has still to revoke. -/
def pending (rows : List Model) : List Model := rows.filter fun r => !r.revoked

/-- The successor of `row` can be stored: its lifetimes are in range, and no
stored row has its id or one of its hashes. -/
def Issuable (row : Model) (draws : Draws) (access_ttl : Duration) (refresh_ttl : Option Duration)
    (s : OauthDb) : Prop :=
  (chrono.from_std access_ttl).isOk ∧ (transpose (refresh_ttl.map chrono.from_std)).isOk ∧
    (s.oauth_tokens.insert (successor sha256_hex row draws s.next_id s.now s.db_now)).isSome

/-- One of the `n` statements from the `i`th on fails, and the first of them is
not the one that is refused. -/
def CutShort (fates : Nat → Fate) (i n : Nat) : Prop :=
  fates i ≠ .refused ∧ ∃ k < n, fates (i + k) ≠ .answered

/-- Between the updates of the family of `row`, if it was revoked, or between
its own update and the insert of its successor, a statement fails. -/
def CutAt (fates : Nat → Fate) (row : Model) (draws : Draws) (s : OauthDb) : Prop :=
  (row.revoked = true ∧ fates 1 = .answered ∧
      CutShort fates 2 (pending (s.oauth_tokens.select fun r => r.family_id = row.family_id)).length) ∨
    (row.revoked = false ∧ (∀ exp, row.refresh_expires_at = some exp → s.now < exp) ∧
      ∃ access_ttl refresh_ttl, ttls row = .ok (access_ttl, refresh_ttl) ∧
        (CutShort fates 1 2 ∨
          (fates 1 ≠ .refused ∧ ¬ Issuable sha256_hex row draws access_ttl refresh_ttl s)))

/-- The database fails the rotation once tokens were written. -/
def CutAfterWrite (fates : Nat → Fate) (refresh_token : String) (draws : Draws) (s : OauthDb) : Prop :=
  fates 0 = .answered ∧ ∃ row, presented sha256_hex refresh_token s = some row ∧
    CutAt sha256_hex fates row draws s

end

/-- A row that was revoked under way makes a difference to the tokens. -/
theorem changed_of_keeps {t t' : Tokens} {r : Model} (hr : r ∈ t.rows) (hlive : r.revoked = false)
    (hkeeps : Keeps (revokeId r.id t) t') : t' ≠ t := by
  rintro rfl
  have hmem : r.revoke ∈ (revokeId r.id t').rows := by
    have hrow := mem_revokeId r.id hr
    rwa [if_pos rfl] at hrow
  obtain ⟨a, ha, haged⟩ := hkeeps r.revoke hmem
  have hsame : a = r := eq_of_id ha hr haged.id_eq
  have hrevoked := haged.2 rfl
  rw [hsame, hlive] at hrevoked
  cases hrevoked

/-- An insert depends on no column that an update of `revoked` changes. -/
theorem insert_revokeId_isSome (id : Int) (t : Tokens) (row : Model) :
    ((revokeId id t).insert row).isSome = (t.insert row).isSome := by
  have hclash : ((revokeId id t).rows.all fun a => !indexes.clash a row) =
      t.rows.all fun a => !indexes.clash a row := by
    have hsame : ∀ a : Model, indexes.clash (if a.id = id then a.revoke else a) row = indexes.clash a row := by
      intro a
      split
      · rfl
      · rfl
    simp only [revokeId, Table.update, List.all_map, Function.comp_def, decide_eq_true_eq, hsame]
  unfold Table.insert
  split
  · rename_i hall
    rw [hclash] at hall
    rw [dif_pos hall]
    rfl
  · rename_i hall
    rw [hclash] at hall
    rw [dif_neg hall]

section

variable {sha256_hex : String → String} {fates : Nat → Fate} {draws : Draws}

variable (fates) in
/-- The updates of a family: none of them goes wrong, or one of them does and
the family is as before only if that was the first, and refused. -/
theorem revoke_rows_faced (rows : List Model) {s : OauthDb} (n : Nat)
    (hrows : ∀ row ∈ rows, ∃ r ∈ s.oauth_tokens.rows, Aged row r) :
    ∃ answer n' s', (revoke_rows rows).faced sent fates n s = (answer, n', s') ∧
      ((answer = some (.ok ()) ∧ ∀ k < (pending rows).length, fates (n + k) = .answered) ∨
        (answer = none ∧ (∃ k < (pending rows).length, fates (n + k) ≠ .answered) ∧
          (fates n = .refused → s' = s) ∧
          (fates n ≠ .refused → ∃ row ∈ rows, row.revoked = false ∧
            Keeps (revokeId row.id s.oauth_tokens) s'.oauth_tokens))) := by
  induction rows generalizing s n with
  | nil => exact ⟨_, _, _, rfl, .inl ⟨rfl, fun k hk => absurd hk (Nat.not_lt_zero k)⟩⟩
  | cons row rows ih =>
    obtain ⟨r, hr, haged⟩ := hrows row List.mem_cons_self
    have hrest : ∀ row' ∈ rows, ∃ r' ∈ s.oauth_tokens.rows, Aged row' r' := fun row' hrow' =>
      hrows row' (List.mem_cons_of_mem row hrow')
    unfold revoke_rows
    split
    · rename_i hrevoked
      have hpending : pending (row :: rows) = pending rows := by
        simp [pending, hrevoked]
      rw [hpending]
      obtain ⟨answer, n', s', hfaced, hcases⟩ := ih n hrest
      refine ⟨answer, n', s', hfaced, ?_⟩
      obtain hall | ⟨hnone, hfails, hsame, hkeeps⟩ := hcases
      · exact .inl hall
      · refine .inr ⟨hnone, hfails, hsame, fun hfate => ?_⟩
        obtain ⟨row', hrow', hlive, hkeeps'⟩ := hkeeps hfate
        exact ⟨row', List.mem_cons_of_mem row hrow', hlive, hkeeps'⟩
    · rename_i hlive
      have hpending : pending (row :: rows) = row :: pending rows := by
        simp [pending, hlive]
      have hlive : row.revoked = false := by simpa using hlive
      rw [hpending, List.length_cons, set_revoked, Task.exec_bind]
      cases hfate : fates n with
      | refused =>
        rw [Task.faced_refused rfl hfate]
        exact ⟨_, _, _, rfl, .inr ⟨rfl, ⟨0, by omega, by simp [hfate]⟩, fun _ => rfl, fun h => absurd rfl h⟩⟩
      | lost =>
        rw [Task.faced_lost rfl hfate]
        refine ⟨_, _, _, rfl, .inr ⟨rfl, ⟨0, by omega, by simp [hfate]⟩, by rintro ⟨⟩, fun _ => ?_⟩⟩
        exact ⟨row, List.mem_cons_self, hlive, .refl _⟩
      | answered =>
        have hfind : (s.oauth_tokens.find fun a => a.id = row.id) = some r := by
          rw [← haged.id_eq]
          exact find_id hr
        rw [Task.faced_answered rfl hfate]
        simp only [hfind]
        have hafter : ∀ row' ∈ rows, ∃ r' ∈ (revokeId row.id s.oauth_tokens).rows, Aged row' r' := by
          intro row' hrow'
          obtain ⟨a, ha, haged'⟩ := hrest row' hrow'
          obtain ⟨a', ha', haged''⟩ := keeps_revokeId row.id s.oauth_tokens a ha
          exact ⟨a', ha', haged'.trans haged''⟩
        obtain ⟨answer, n', s', hfaced, hcases⟩ :=
          ih (s := { s with oauth_tokens := revokeId row.id s.oauth_tokens }) (n + 1) hafter
        refine ⟨answer, n', s', hfaced, ?_⟩
        obtain ⟨hok, hall⟩ | ⟨hnone, ⟨k, hk, hfails⟩, hsame, hkeeps⟩ := hcases
        · refine .inl ⟨hok, fun k hk => ?_⟩
          cases k with
          | zero => exact hfate
          | succ k =>
            rw [← Nat.add_assoc, Nat.add_right_comm]
            exact hall k (by omega)
        · refine .inr ⟨hnone, ⟨k + 1, by omega, ?_⟩, by rintro ⟨⟩, fun _ => ⟨row, List.mem_cons_self, hlive, ?_⟩⟩
          · rwa [← Nat.add_assoc, Nat.add_right_comm]
          · by_cases hnext : fates (n + 1) = .refused
            · rw [hsame hnext]
              exact .refl _
            · obtain ⟨row', _, _, hkeeps'⟩ := hkeeps hnext
              exact (keeps_revokeId row'.id _).trans hkeeps'

variable (sha256_hex fates draws) in
/-- An issue: the rows before it stay, and it succeeds exactly when the row can
be stored and the insert is answered. -/
theorem issue_in_family_faced (grant : TokenGrant) (f : Uuid) (access_ttl : Duration)
    (refresh_ttl : Option Duration) (n : Nat) (s : OauthDb) :
    ∃ answer n' s', (issue_in_family sha256_hex grant f access_ttl refresh_ttl draws).faced sent fates n s =
        (answer, n', s') ∧
      Keeps s.oauth_tokens s'.oauth_tokens ∧
      ((∃ issued, answer = some (.ok issued)) ↔
        fates n = .answered ∧ (chrono.from_std access_ttl).isOk ∧
          (transpose (refresh_ttl.map chrono.from_std)).isOk ∧
          (s.oauth_tokens.insert (issuedRow sha256_hex grant f (refresh_ttl.map fun _ => draws.refresh_token)
            (s.now + access_ttl) (refresh_ttl.map fun ttl : Duration => s.now + (ttl : Int)) draws s.next_id
            s.db_now)).isSome) := by
  simp only [issue_in_family, utc_now, Task.read_bind]
  rw [Task.faced_unsent rfl]
  simp only [id]
  split
  · rename_i e haccess
    refine ⟨_, _, _, rfl, .refl _, ?_⟩
    simp [haccess, Except.isOk, Except.toBool]
  rename_i access_span haccess
  split
  · rename_i e hrefresh
    refine ⟨_, _, _, rfl, .refl _, ?_⟩
    simp [hrefresh, Except.isOk, Except.toBool]
  rename_i refresh_span hrefresh
  have hspans : (chrono.from_std access_ttl).isOk ∧ (transpose (refresh_ttl.map chrono.from_std)).isOk := by
    rw [haccess, hrefresh]
    exact ⟨rfl, rfl⟩
  obtain rfl := from_std_ok haccess
  obtain rfl := transpose_from_std_ok hrefresh
  simp only [hspans, true_and, Task.exec_bind, Option.map_map, Function.comp_def]
  cases hfate : fates n with
  | refused =>
    rw [Task.faced_refused rfl hfate]
    exact ⟨_, _, _, rfl, .refl _, by simp⟩
  | lost =>
    rw [Task.faced_lost rfl hfate]
    refine ⟨_, _, _, rfl, ?_, by simp⟩
    simp only [insertToken]
    split
    · exact .refl _
    · rename_i hinsert
      exact keeps_insert hinsert
  | answered =>
    rw [Task.faced_answered rfl hfate]
    cases hinsert : s.oauth_tokens.insert (issuedRow sha256_hex grant f
      (refresh_ttl.map fun _ => draws.refresh_token) (s.now + access_ttl)
      (refresh_ttl.map fun ttl : Duration => s.now + (ttl : Int)) draws s.next_id s.db_now) with
    | none =>
      simp only [insertToken, hinsert]
      exact ⟨_, _, _, rfl, .refl _, by simp⟩
    | some t =>
      simp only [insertToken, hinsert]
      exact ⟨_, _, _, rfl, keeps_insert hinsert, by simp⟩

/-- How a call ended: without an error, with one that left the store alone, or
with one after the tokens had changed; the last is what `cut` describes. -/
inductive Ending (cut : Prop) (s : OauthDb) : Except StoreError (Option IssuedOauthToken) × OauthDb → Prop
  | ok (answer : Option IssuedOauthToken) (s' : OauthDb) : ¬ cut → Ending cut s (.ok answer, s')
  | harmless (e : StoreError) : ¬ cut → Ending cut s (.error e, s)
  | harmful {e : StoreError} {s' : OauthDb} : cut → s'.oauth_tokens ≠ s.oauth_tokens →
    Ending cut s (.error e, s')

theorem Ending.of_iff {cut cut' : Prop} (h : cut ↔ cut') {s : OauthDb}
    {run : Except StoreError (Option IssuedOauthToken) × OauthDb} (hending : Ending cut s run) : Ending cut' s run := by
  rw [propext h] at hending
  exact hending

theorem refresh_expired_faced (row : Model) (n : Nat) (s : OauthDb) :
    (refresh_expired row).faced sent fates n s =
      (some (row.refresh_expires_at.any fun exp => exp ≤ s.now), n, s) := by
  unfold refresh_expired
  split
  · rename_i hexp
    simp [hexp]
  · rename_i exp hexp
    rw [utc_now, Task.read_bind, Task.faced_unsent rfl]
    simp [hexp]

/-- The answer to a reuse. -/
theorem revoke_family_faced (f : Uuid) (s : OauthDb) :
    Ending (fates 1 = .answered ∧ CutShort fates 2 (pending (s.oauth_tokens.select fun r => r.family_id = f)).length)
      s (returned ((do
        match ← revoke_family f with
        | .error e => return .error e
        | .ok () => return .ok none : OauthTask (Except StoreError (Option IssuedOauthToken))).faced sent fates 1 s)) := by
  rw [revoke_family, bind_assoc, list_family, Task.read_bind]
  by_cases hfate : fates 1 = .answered
  · rw [Task.faced_answered rfl hfate, Task.faced_bind]
    have hlisted : ∀ row ∈ s.oauth_tokens.select fun r => r.family_id = f,
        ∃ r ∈ s.oauth_tokens.rows, Aged row r := fun row hrow =>
      ⟨row, (Table.mem_select.mp hrow).1, .refl row⟩
    obtain ⟨answer, n', s', hfaced, hcases⟩ := revoke_rows_faced fates _ 2 hlisted
    rw [id, hfaced]
    obtain ⟨rfl, hall⟩ | ⟨rfl, hfails, hsame, hkeeps⟩ := hcases
    · refine .ok none s' ?_
      rintro ⟨_, _, k, hk, hfails⟩
      exact hfails (hall k hk)
    · by_cases hrefused : fates 2 = .refused
      · rw [hsame hrefused]
        exact .harmless .Db fun hcut => hcut.2.1 hrefused
      · obtain ⟨row, hrow, hlive, hkeeps'⟩ := hkeeps hrefused
        exact .harmful ⟨hfate, hrefused, hfails⟩ (changed_of_keeps (Table.mem_select.mp hrow).1 hlive hkeeps')
  · rw [Task.faced_read_unanswered rfl hfate]
    exact .harmless .Db fun hcut => hfate hcut.1

/-- The exchange of a live row. -/
theorem exchange_row_faced {row : Model} {s : OauthDb} (hrow : row ∈ s.oauth_tokens.rows)
    (hlive : row.revoked = false) :
    Ending (∃ access_ttl refresh_ttl, ttls row = .ok (access_ttl, refresh_ttl) ∧
        (CutShort fates 1 2 ∨ (fates 1 ≠ .refused ∧ ¬ Issuable sha256_hex row draws access_ttl refresh_ttl s)))
      s (returned ((exchange_row sha256_hex row draws).faced sent fates 1 s)) := by
  unfold exchange_row
  split
  · rename_i e httls
    refine .harmless e ?_
    rintro ⟨_, _, hok, _⟩
    rw [httls] at hok
    cases hok
  rename_i access_ttl refresh_ttl httls
  have hcut : (∃ access refresh, ttls row = .ok (access, refresh) ∧
      (CutShort fates 1 2 ∨ (fates 1 ≠ .refused ∧ ¬ Issuable sha256_hex row draws access refresh s))) ↔
      fates 1 ≠ .refused ∧ ((∃ k < 2, fates (1 + k) ≠ .answered) ∨
        ¬ Issuable sha256_hex row draws access_ttl refresh_ttl s) := by
    rw [httls]
    constructor
    · rintro ⟨_, _, hok, hcut | hcut⟩
      · exact ⟨hcut.1, .inl hcut.2⟩
      · cases hok
        exact ⟨hcut.1, .inr hcut.2⟩
    · rintro ⟨hfate, hfails | hissuable⟩
      · exact ⟨_, _, rfl, .inl ⟨hfate, hfails⟩⟩
      · exact ⟨_, _, rfl, .inr ⟨hfate, hissuable⟩⟩
  refine Ending.of_iff hcut.symm ?_
  rw [set_revoked, Task.exec_bind]
  cases hfate : fates 1 with
  | refused =>
    rw [Task.faced_refused rfl hfate]
    exact .harmless .Db fun hcut => hcut.1 rfl
  | lost =>
    rw [Task.faced_lost rfl hfate]
    refine .harmful ⟨by rintro ⟨⟩, .inl ⟨0, by omega, by simp [hfate]⟩⟩ (changed_of_keeps hrow hlive (.refl _))
  | answered =>
    rw [Task.faced_answered rfl hfate]
    simp only [find_id hrow]
    rw [Task.faced_bind]
    obtain ⟨answer, n', s', hfaced, hkeeps, hissued⟩ :=
      issue_in_family_faced sha256_hex fates draws ⟨row.client_id, row.user_id, row.scope, row.resource⟩
        row.family_id access_ttl refresh_ttl 2
        { s with oauth_tokens := revokeId row.id s.oauth_tokens }
    rw [hfaced]
    have hissuable : (∃ issued, answer = some (.ok issued)) ↔
        fates 2 = .answered ∧ Issuable sha256_hex row draws access_ttl refresh_ttl s := by
      rw [hissued, issuedRow_eq_successor httls, insert_revokeId_isSome, Issuable]
    have hchanged : s'.oauth_tokens ≠ s.oauth_tokens := changed_of_keeps hrow hlive hkeeps
    have hfails : (∃ k < 2, fates (1 + k) ≠ .answered) ↔ fates 2 ≠ .answered := by
      constructor
      · rintro ⟨k, hk, hfails⟩
        obtain rfl | rfl : k = 0 ∨ k = 1 := by omega
        · exact absurd hfate hfails
        · exact hfails
      · exact fun hfails => ⟨1, by omega, hfails⟩
    have hcut : (¬ ∃ issued, answer = some (.ok issued)) →
        (∃ k < 2, fates (1 + k) ≠ .answered) ∨ ¬ Issuable sha256_hex row draws access_ttl refresh_ttl s := by
      intro hnone
      rw [hissuable, not_and_or] at hnone
      rwa [hfails]
    obtain _ | e | issued := answer
    · exact .harmful ⟨by rintro ⟨⟩, hcut (by rintro ⟨_, ⟨⟩⟩)⟩ hchanged
    · exact .harmful ⟨by rintro ⟨⟩, hcut (by rintro ⟨_, ⟨⟩⟩)⟩ hchanged
    · obtain ⟨hanswered, hstored⟩ := hissuable.mp ⟨issued, rfl⟩
      refine .ok (some issued) s' fun hcut => ?_
      obtain hlost | hunstored := hcut.2
      · exact hfails.mp hlost hanswered
      · exact hunstored hstored

variable (sha256_hex) in
/-- How `rotate_refresh_token` ends on a database that may fail it. -/
theorem rotate_faced (fates : Nat → Fate) (refresh_token : String) (draws : Draws) (s : OauthDb) :
    Ending (CutAfterWrite sha256_hex fates refresh_token draws s) s
      (rotateFaced sha256_hex fates refresh_token draws s) := by
  unfold rotateFaced
  rw [rotate_refresh_token, find_by_refresh_hash, Task.read_bind]
  by_cases hfate : fates 0 = .answered
  swap
  · rw [Task.faced_read_unanswered rfl hfate]
    exact .harmless .Db fun hcut => hfate hcut.1
  rw [Task.faced_answered rfl hfate, id]
  cases hfind : s.oauth_tokens.find fun r => r.refresh_token_hash = some (sha256_hex refresh_token) with
  | none =>
    refine .ok none s ?_
    rintro ⟨_, row, hrow, _⟩
    rw [presented, hfind] at hrow
    cases hrow
  | some row =>
    obtain ⟨hrow, _⟩ := Table.mem_of_find hfind
    have hcut : CutAfterWrite sha256_hex fates refresh_token draws s ↔ CutAt sha256_hex fates row draws s := by
      rw [CutAfterWrite, presented, hfind]
      simp only [Option.some.injEq, exists_eq_left', hfate, true_and]
    refine Ending.of_iff hcut.symm ?_
    cases hrevoked : row.revoked with
    | true =>
      simp only [CutAt, hrevoked, if_true, true_and, Bool.true_eq_false, false_and, or_false]
      exact revoke_family_faced row.family_id s
    | false =>
      simp only [CutAt, hrevoked, Bool.false_eq_true, if_false, true_and, false_and, false_or]
      rw [Task.faced_bind, refresh_expired_faced]
      simp only
      cases hexpired : row.refresh_expires_at.any fun exp => exp ≤ s.now with
      | true =>
        refine .ok none s fun hcut => ?_
        obtain ⟨exp, hexp, hpast⟩ := Option.any_eq_true _ _ |>.mp hexpired
        exact absurd (hcut.1 exp hexp) (Int.not_lt.mpr (of_decide_eq_true hpast))
      | false =>
        have hunexpired : ∀ exp, row.refresh_expires_at = some exp → s.now < exp := by
          intro exp hexp
          simpa [hexp] using hexpired
        refine Ending.of_iff (and_iff_right hunexpired).symm ?_
        exact exchange_row_faced hrow hrevoked

end

/-- A rotation that fails is harmless exactly when the database did not fail it
between two of its writes. -/
theorem failed_rotation_harmless_iff (sha256_hex : String → String) (fates : Nat → Fate) (refresh_token : String)
    (draws : Draws) (s : OauthDb) :
    (∀ e s', rotateFaced sha256_hex fates refresh_token draws s = (.error e, s') →
        Harmless sha256_hex refresh_token s s') ↔
      ¬ CutAfterWrite sha256_hex fates refresh_token draws s := by
  generalize hrun : rotateFaced sha256_hex fates refresh_token draws s = run
  have hending := rotate_faced sha256_hex fates refresh_token draws s
  rw [hrun] at hending
  cases hending with
  | ok answer s' hcut => exact iff_of_true (fun e s'' h => by cases h) hcut
  | harmless e hcut =>
    refine iff_of_true (fun e' s' h => ?_) hcut
    cases h
    exact ⟨rfl, fun _ => rfl⟩
  | harmful hcut hchanged =>
    refine iff_of_false (fun hharmless => ?_) (not_not.mpr hcut)
    exact hchanged (hharmless _ _ rfl).tokens

/-- The insert of the successor is refused: the pair is gone, and the retry is
taken for a reuse. -/
theorem refused_insert_spends_token :
    ∃ s' : OauthDb,
      rotateFaced sampleSha (fun n => if n = 2 then .refused else .answered)
          "w8ZbTq3LxYk6RnPv1MdHs5GcJfUo9EaI2iKrCw0NVz7" firstDraws issuedDb = (.error .Db, s') ∧
        s'.oauth_tokens.rows = [firstRow.revoke] ∧
        ((rotate_refresh_token sampleSha "w8ZbTq3LxYk6RnPv1MdHs5GcJfUo9EaI2iKrCw0NVz7" secondDraws).alone s').1 =
          .ok none ∧
        ¬ ∀ e s', rotateFaced sampleSha (fun n => if n = 2 then .refused else .answered)
            "w8ZbTq3LxYk6RnPv1MdHs5GcJfUo9EaI2iKrCw0NVz7" firstDraws issuedDb = (.error e, s') →
          Harmless sampleSha "w8ZbTq3LxYk6RnPv1MdHs5GcJfUo9EaI2iKrCw0NVz7" issuedDb s' := by
  refine ⟨_, rfl, rfl, by decide, fun hharmless => ?_⟩
  have htokens := congrArg Table.rows (hharmless _ _ rfl).tokens
  revert htokens
  decide

end api2mcp.server.oauth.rotation
