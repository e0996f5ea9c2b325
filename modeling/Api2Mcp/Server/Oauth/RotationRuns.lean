import Api2Mcp.Server.Oauth.Rotation

namespace api2mcp.server.oauth.rotation

open relational concurrent
open api2mcp.entity api2mcp.entity.oauth_tokens api2mcp.store

/-- The calls under way: `rotate_refresh_token`, the refresh grant around it,
`revoke_family`, and the passing of time. -/
inductive Call where
  | rotate (refresh_token : String) (draws : Draws)
  | grant (req : TokenRequest) (draws : Draws)
  | revoke_family (family_id : Uuid)
  | tick (app db : Int)

inductive Reply where
  | rotated (answer : Except StoreError (Option IssuedOauthToken))
  | granted (answer : Option (Except StoreError (Option IssuedOauthToken)))
      (response : Except OAuthError TokenResponse)
  | revoked (answer : Except StoreError Unit)
  | ticked

/-- The refresh token a call presents. -/
def Call.presented : Call → Option String
  | .rotate refresh_token _ => some refresh_token
  | .grant req _ => req.refresh_token
  | .revoke_family _ | .tick .. => none

/-- `rotate_refresh_token` returned a new pair. -/
def exchanged : Except StoreError (Option IssuedOauthToken) → Bool
  | .ok (some _) => true
  | _ => false

def Reply.exchanged : Reply → Bool
  | .rotated answer => rotation.exchanged answer
  | .granted answer _ => answer.any rotation.exchanged
  | .revoked _ | .ticked => false

section

variable (sha256_hex : String → String)

def Call.task : Call → OauthTask Reply
  | .rotate refresh_token draws => do
    let answer ← rotate_refresh_token sha256_hex refresh_token draws
    return .rotated answer
  | .grant req draws => do
    let (answer, response) ← refresh.grant sha256_hex req draws
    return .granted answer response
  | .revoke_family f => do
    let answer ← store.revoke_family f
    return .revoked answer
  | .tick app db => do
    store.tick app db
    return .ticked

/-- Any number of calls, all of them about to start. -/
def start {ι : Type} (s : OauthDb) (calls : ι → Call) : Pool ι OauthStmt OauthDb Reply where
  store := s
  task i := (calls i).task sha256_hex

end

/-- The row a rotation's update revokes was not revoked yet: no other call got
there between this call's find and its update. -/
def updateFindsLive {ι : Type} (_ : ι) (s : OauthDb) : OauthStmt → Prop
  | .revoke_rotated _ id =>
    (s.oauth_tokens.find fun r => r.id = id).any (fun r => !r.revoked) = true
  | _ => True

instance {ι : Type} (i : ι) (s : OauthDb) : ∀ l, Decidable (updateFindsLive i s l)
  | .revoke_rotated _ id =>
    inferInstanceAs
      (Decidable ((s.oauth_tokens.find fun r => r.id = id).any (fun r => !r.revoked) = true))
  | .now | .find_code _ | .mark_used _ | .find_by_refresh_hash _ | .list_family _
  | .revoke_member _ _ | .family_started_at _ | .issue_in_family _ | .tick => isTrue trivial

section Meets

variable {sha256_hex : String → String}

def taskPost (sha256_hex : String → String) (call : Call) (φ : Phase) (s : OauthDb) (a : Reply) :
    Prop :=
  a.exchanged = true → ∃ t, call.presented = some t ∧ Exchanged (sha256_hex t) φ s

theorem exchanged_of_post {h : String} {φ : Phase} {s : OauthDb}
    {answer : Except StoreError (Option IssuedOauthToken)} (hpost : rotatePost h φ s answer)
    (hex : exchanged answer = true) : Exchanged h φ s := by
  unfold exchanged at hex
  split at hex
  · exact hpost _ rfl
  · cases hex

theorem task_meets (call : Call) (w : OauthDb) :
    (call.task sha256_hex).Meets (rotateSpec (taskPost sha256_hex call)) .idle w := by
  cases call with
  | rotate refresh_token draws =>
    refine (rotate_refresh_token_meets refresh_token draws w).bind (fun _ => .refl _) ?_
    intro φ w answer hanswer
    refine .done fun s hs hex => ⟨refresh_token, rfl, ?_⟩
    exact (exchanged_of_post hanswer hex).mono hs
  | grant req draws =>
    simp only [Call.task, refresh.grant]
    split
    · exact .done fun _ _ h => by cases h
    rename_i refresh_token htoken
    rw [Task.bind_assoc]
    refine (rotate_refresh_token_meets refresh_token draws w).bind (fun _ => .refl _) ?_
    intro φ w answer hanswer
    rw [Task.bind_assoc]
    -- the rest of the request only revokes, so what was exchanged stays exchanged
    let Q : Phase → OauthDb → Prop := fun φ s =>
      exchanged answer = true → Exchanged (sha256_hex refresh_token) φ s
    have hQ : ∀ φ s s', Keeps s.oauth_tokens s'.oauth_tokens → Q φ s → Q φ s' :=
      fun _ _ _ hkeeps hex ha => (hex ha).mono hkeeps
    refine (check_family_meets hQ answer (exchanged_of_post hanswer)).bind (fun _ => .refl _) ?_
    intro φ w response hw
    exact .done fun s hs hex => ⟨refresh_token, htoken, hQ φ w s hs hw (by simpa [Reply.exchanged] using hex)⟩
  | revoke_family f =>
    refine (revoke_family_meets (Q := fun _ _ => True) (fun _ _ _ _ _ => trivial) f trivial).bind
      (fun _ => .refl _) fun φ w answer _ => ?_
    exact .done fun _ _ h => by cases h
  | tick app db =>
    simp only [Call.task, store.tick, Task.exec_bind, Task.pure_eq]
    exact .stmt (fun s _ _ => rfl) fun s _ _ => .done fun _ _ h => by cases h

end Meets

section Invariant

variable {ι : Type} [DecidableEq ι] {φ : ι → Phase} {s s' : OauthDb} {i : ι} {l : OauthStmt}
  {f : Uuid}

/-- No row was rotated by two calls, and a rotated row is revoked. -/
structure Spent (φ : ι → Phase) (s : OauthDb) : Prop where
  one : ∀ i j id, (φ i).spent = some id → (φ j).spent = some id → i = j
  revoked : ∀ i id, (φ i).spent = some id →
    ∃ r ∈ s.oauth_tokens.rows, r.id = id ∧ r.revoked = true

/-- The family has one live token at most, none while a call is between its
update and its insert, and at most one call is there. -/
structure OneLive (f : Uuid) (φ : ι → Phase) (s : OauthDb) : Prop where
  live : ∀ r r', Live f s.oauth_tokens r → Live f s.oauth_tokens r' → r = r'
  moving : ∀ i id, φ i = .rotating f id → ∀ r, ¬ Live f s.oauth_tokens r
  mover : ∀ i j id id', φ i = .rotating f id → φ j = .rotating f id' → i = j

omit [DecidableEq ι] in
theorem exists_live {id : Int} (hcond : updateFindsLive i s (.revoke_rotated f id))
    (hfamily : ∃ r ∈ s.oauth_tokens.rows, r.id = id ∧ r.family_id = f) :
    ∃ r, Live f s.oauth_tokens r ∧ r.id = id := by
  obtain ⟨r, hfind, hlive⟩ := (Option.any_eq_true _ _).mp hcond
  obtain ⟨hr, hid⟩ := Table.mem_of_find hfind
  replace hid : r.id = id := by simpa using hid
  obtain ⟨r', hr', hid', hf⟩ := hfamily
  obtain rfl : r = r' := eq_of_id hr hr' (hid.trans hid'.symm)
  exact ⟨r, ⟨hr, hf, by simpa using hlive⟩, hid⟩

theorem Phase.spent_advance {φ : Phase} (hl : ∀ f id, l ≠ .revoke_rotated f id) :
    (φ.advance l).spent = φ.spent := by
  cases l with
  | revoke_rotated f id => exact absurd rfl (hl f id)
  | issue_in_family f => cases φ <;> rfl
  | now | find_code _ | mark_used _ | find_by_refresh_hash _ | list_family _
  | revoke_member _ _ | family_started_at _ | tick => cases φ <;> rfl

theorem Spent.step (hinv : Spent φ s) (hcond : updateFindsLive i s l)
    (hguar : rotateGuar (φ i) l s s') : Spent (Function.update φ i ((φ i).advance l)) s' := by
  have hkept : ∀ id, (∃ r ∈ s.oauth_tokens.rows, r.id = id ∧ r.revoked = true) →
      ∃ r ∈ s'.oauth_tokens.rows, r.id = id ∧ r.revoked = true := by
    rintro id ⟨r, hr, hid, hrevoked⟩
    obtain ⟨r', hr', haged⟩ := hguar.keeps r hr
    exact ⟨r', hr', haged.id_eq.trans hid, haged.2 hrevoked⟩
  by_cases hl : ∃ f id, l = .revoke_rotated f id
  · obtain ⟨f, id, rfl⟩ := hl
    obtain ⟨hidle, hfamily, htokens⟩ := hguar
    obtain ⟨r, ⟨hr, _, hunrevoked⟩, hid⟩ := exists_live hcond hfamily
    -- nobody else rotated this row, or the update would have found it revoked
    have hfresh : ∀ j, (φ j).spent ≠ some id := by
      intro j hj
      obtain ⟨r', hr', hid', hrevoked⟩ := hinv.revoked j id hj
      obtain rfl : r = r' := eq_of_id hr hr' (hid.trans hid'.symm)
      simp [hunrevoked] at hrevoked
    have hspent : ∀ j id', (Function.update φ i ((φ i).advance (.revoke_rotated f id)) j).spent =
        some id' → (j = i ∧ id' = id) ∨ (j ≠ i ∧ (φ j).spent = some id') := by
      intro j id' hj
      by_cases hji : j = i
      · subst hji
        rw [Function.update_self, hidle] at hj
        exact .inl ⟨rfl, (Option.some.inj hj).symm⟩
      · rw [Function.update_of_ne hji] at hj
        exact .inr ⟨hji, hj⟩
    refine ⟨fun j k id' hj hk => ?_, fun j id' hj => ?_⟩
    · obtain ⟨hji, hid'⟩ | ⟨_, hold⟩ := hspent j id' hj
      · obtain ⟨hki, _⟩ | ⟨_, hold'⟩ := hspent k id' hk
        · exact hji.trans hki.symm
        · exact absurd (hid' ▸ hold') (hfresh k)
      · obtain ⟨_, hid'⟩ | ⟨_, hold'⟩ := hspent k id' hk
        · exact absurd (hid' ▸ hold) (hfresh j)
        · exact hinv.one j k id' hold hold'
    · obtain ⟨_, rfl⟩ | ⟨_, hold⟩ := hspent j id' hj
      · obtain ⟨r', hr', haged⟩ := keeps_revokeId id' s.oauth_tokens r hr
        have hid' := haged.id_eq.trans hid
        obtain ⟨_, _, _, hset⟩ := of_mem_revokeId hr'
        exact ⟨r', htokens ▸ hr', hid', hset hid'⟩
      · exact hkept id' (hinv.revoked j id' hold)
  · have hspent : ∀ j, (Function.update φ i ((φ i).advance l) j).spent = (φ j).spent := by
      intro j
      by_cases hji : j = i
      · subst hji
        rw [Function.update_self]
        exact Phase.spent_advance fun f id h => hl ⟨f, id, h⟩
      · rw [Function.update_of_ne hji]
    refine ⟨fun j k id hj hk => ?_, fun j id hj => ?_⟩
    · rw [hspent] at hj hk
      exact hinv.one j k id hj hk
    · rw [hspent] at hj
      exact hkept id (hinv.revoked j id hj)

omit [DecidableEq ι] in
/-- A statement that issues nothing into the family, and moves no call there. -/
theorem OneLive.of_noneIssued {φ' : ι → Phase} (hinv : OneLive f φ s)
    (hnone : NoneIssued f s.oauth_tokens s'.oauth_tokens)
    (hphase : ∀ j id, φ' j = .rotating f id → φ j = .rotating f id) : OneLive f φ' s' := by
  refine ⟨fun r r' hr hr' => ?_, fun j id hj r hr => ?_, fun j k id id' hj hk => ?_⟩
  · obtain ⟨a, ha, haged⟩ := hnone.live hr
    obtain ⟨a', ha', haged'⟩ := hnone.live hr'
    have hid : r.id = r'.id := by
      rw [haged.id_eq, haged'.id_eq, hinv.live a a' ha ha']
    exact eq_of_id hr.1 hr'.1 hid
  · obtain ⟨a, ha, _⟩ := hnone.live hr
    exact hinv.moving j id (hphase j id hj) a ha
  · exact hinv.mover j k id id' (hphase j id hj) (hphase k id' hk)

theorem OneLive.step (hinv : OneLive f φ s) (hcond : updateFindsLive i s l)
    (hguar : rotateGuar (φ i) l s s') : OneLive f (Function.update φ i ((φ i).advance l)) s' := by
  have hother : ∀ j id, (∀ id, (φ i).advance l = .rotating f id → φ i = .rotating f id) →
      Function.update φ i ((φ i).advance l) j = .rotating f id → φ j = .rotating f id := by
    intro j id hi hj
    by_cases hji : j = i
    · subst hji
      rw [Function.update_self] at hj
      exact hi id hj
    · rwa [Function.update_of_ne hji] at hj
  cases l with
  | revoke_rotated f' id =>
    obtain ⟨_, hfamily, htokens⟩ := hguar
    have hnone : NoneIssued f s.oauth_tokens s'.oauth_tokens := by
      rw [htokens]
      exact noneIssued_revokeId f id _
    by_cases hf : f' = f
    · subst hf
      obtain ⟨r₀, hlive, hid⟩ := exists_live hcond hfamily
      -- the live token is the one this update revokes
      have hgone : ∀ r, ¬ Live f' s'.oauth_tokens r := by
        intro r hr
        rw [htokens] at hr
        obtain ⟨hold, hne⟩ := live_of_revokeId hr
        exact hne (by rw [hinv.live r r₀ hold hlive, hid])
      have hmover : ∀ j id', Function.update φ i ((φ i).advance (.revoke_rotated f' id)) j =
          .rotating f' id' → j = i := by
        intro j id' hj
        by_contra hji
        rw [Function.update_of_ne hji] at hj
        exact hinv.moving j id' hj r₀ hlive
      exact ⟨fun r _ hr => absurd hr (hgone r), fun _ _ _ r => hgone r,
        fun j k id' id'' hj hk => (hmover j id' hj).trans (hmover k id'' hk).symm⟩
    · refine hinv.of_noneIssued hnone fun j id' => hother j id' fun id'' h => ?_
      cases h
      exact absurd rfl hf
  | issue_in_family f' =>
    obtain ⟨⟨id, hi⟩, htokens⟩ := hguar
    rw [hi] at hother ⊢
    have hphase : ∀ j id', Function.update φ i (.rotated f' id) j = .rotating f id' →
        φ j = .rotating f id' := by
      intro j id' hj
      by_cases hji : j = i
      · subst hji
        rw [Function.update_self] at hj
        cases hj
      · rwa [Function.update_of_ne hji] at hj
    obtain heq | ⟨row, hfamily, hinsert⟩ := htokens
    · refine hinv.of_noneIssued ?_ hphase
      rw [heq]
      exact .refl f _
    by_cases hf : f' = f
    · subst hf
      -- nothing is live in the family while this call holds its insert
      have hrow : ∀ r, Live f' s'.oauth_tokens r → r = row := by
        rintro r ⟨hr, hrf, hlive⟩
        obtain hold | rfl := (Table.mem_of_insert hinsert).mp hr
        · exact absurd ⟨hold, hrf, hlive⟩ (hinv.moving i id hi r)
        · rfl
      have hnobody : ∀ j id', Function.update φ i (.rotated f' id) j ≠ .rotating f' id' := by
        intro j id' hj
        obtain rfl := hinv.mover j i id' id (hphase j id' hj) hi
        rw [Function.update_self] at hj
        cases hj
      exact ⟨fun r r' hr hr' => (hrow r hr).trans (hrow r' hr').symm,
        fun j id' hj => absurd hj (hnobody j id'), fun j _ id' _ hj => absurd hj (hnobody j id')⟩
    · exact hinv.of_noneIssued (noneIssued_insert hinsert fun h => hf (hfamily.symm.trans h)) hphase
  | now | find_code _ | mark_used _ | find_by_refresh_hash _ | list_family _
  | revoke_member _ _ | family_started_at _ | tick =>
    refine hinv.of_noneIssued (hguar.noneIssued (by simp)) fun j id => hother j id fun id' h => ?_
    cases hφ : φ i <;> simp_all [Phase.advance]

end Invariant

end api2mcp.server.oauth.rotation
