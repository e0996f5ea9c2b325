import Api2Mcp.Concurrent.RelyGuarantee
import Api2Mcp.Server.Oauth.Authorize
import Api2Mcp.Server.Oauth.Redemption

namespace api2mcp.server.oauth.consent

open relational concurrent
open api2mcp.entity api2mcp.store

/-- The calls under way: consent submissions, each by its caller, and the
passing of time. -/
inductive Call where
  | submit (form : ConsentForm) (caller : Option Uuid) (drawn : authorize.Drawn)
  | tick (app db : Nat)

inductive Reply where
  | answered (answer : Except OAuthError String)
  | ticked

/-- The submission was answered with a redirect to the client: it took effect. -/
def Reply.redirected : Reply → Bool
  | .answered (.ok _) => true
  | .answered (.error _) | .ticked => false

/-- A submission names this request. -/
def Call.names (parse_uuid : String → Option Uuid) (id : Uuid) : Call → Prop
  | .submit form _ _ => parse_uuid form.request_id = some id
  | .tick .. => True

section

variable (sha256_hex : String → String) (parse_uuid : String → Option Uuid)

def Call.task : Call → AuthTask Reply
  | .submit form caller drawn => do
    let answer ← post_consent sha256_hex parse_uuid form caller drawn
    return .answered answer
  | .tick app db => do
    auth.tick app db
    return .ticked

/-- Any number of calls, all of them about to start. -/
def start {ι : Type} (s : AuthDb) (calls : ι → Call) : Pool ι AuthStmt AuthDb Reply where
  store := s
  task i := (calls i).task sha256_hex parse_uuid

end

/-- No submission gets in between: the request a submission consumes is still
there, and what comes out of one comes before the request expires. -/
def undisturbed {ι : Type} (request : ConsentRequest) (_ : ι) (s : AuthDb) : AuthStmt → Prop
  | .consume_request id => (s.oauth_consent_requests.find fun r => r.id = id).isSome = true
  | .grant_consent _ _ | .create_code _ => s.oauth.now < request.expires_at
  | _ => True

instance {ι : Type} (request : ConsentRequest) (i : ι) (s : AuthDb) :
    ∀ l, Decidable (undisturbed request i s l)
  | .consume_request id =>
    inferInstanceAs (Decidable ((s.oauth_consent_requests.find fun r => r.id = id).isSome = true))
  | .grant_consent _ _ | .create_code _ => inferInstanceAs (Decidable (s.oauth.now < request.expires_at))
  | .now | .tick | .register_client _ | .get_client _ | .has_consent _ _ | .create_consent_request _
  | .get_consent_request _ | .drop_expired _ => isTrue trivial

/-- The codes and the consents are what they were. -/
def SameGrants (s s' : AuthDb) : Prop :=
  s'.oauth.oauth_codes = s.oauth.oauth_codes ∧ s'.oauth_consents = s.oauth_consents

/-- One submission at most took effect in the run, one code and one consent at
most came out of it, none after a submission was answered, a denial among
them, and none once the request had expired. -/
structure UsedOnce {ι : Type} [DecidableEq ι] (request : ConsentRequest)
    (p : Pool ι AuthStmt AuthDb Reply) (sched : List ι) : Prop where
  submission : ∀ i j a b, ((p.run sched).task i).result? = some a → ((p.run sched).task j).result? = some b →
    a.redirected = true → b.redirected = true → i = j
  code : ∀ c c', c ∈ (p.run sched).store.oauth.oauth_codes.rows → c' ∈ (p.run sched).store.oauth.oauth_codes.rows →
    c ∉ p.store.oauth.oauth_codes.rows → c' ∉ p.store.oauth.oauth_codes.rows → c = c'
  grant : ∀ c c', c ∈ (p.run sched).store.oauth_consents.rows → c' ∈ (p.run sched).store.oauth_consents.rows →
    c ∉ p.store.oauth_consents.rows → c' ∉ p.store.oauth_consents.rows → c = c'
  answered : ∀ before after, sched = before ++ after →
    (∃ i a, ((p.run before).task i).result? = some a ∧ a.redirected = true) →
    SameGrants (p.run before).store (p.run sched).store
  expired : ∀ before after, sched = before ++ after → request.expires_at ≤ (p.run before).store.oauth.now →
    SameGrants (p.run before).store (p.run sched).store

section Spec

/-- How far a submission got: its deletion of the request ran, then its insert
of a consent, then its insert of a code. -/
inductive Phase where
  | idle
  | consumed
  | consented
  | coded
  deriving DecidableEq

def Phase.advance (φ : Phase) : AuthStmt → Phase
  | .consume_request _ => .consumed
  | .grant_consent _ _ => .consented
  | .create_code _ => .coded
  | _ => φ

/-- What a statement of a submission naming the request does to it, to the
codes and to the consents: it deletes the request once, inserts a consent after
that, and a code after that. -/
def consentEffect (request_id : Uuid) (φ : Phase) (l : AuthStmt) (s s' : AuthDb) : Prop :=
  match l with
  | .consume_request id =>
    id = request_id ∧ φ = .idle ∧ (∀ r ∈ s'.oauth_consent_requests.rows, r.id ≠ request_id) ∧ SameGrants s s'
  | .grant_consent _ _ =>
    φ = .consumed ∧ s'.oauth.oauth_codes = s.oauth.oauth_codes ∧
      (s'.oauth_consents = s.oauth_consents ∨
        ∃ row, s.oauth_consents.insert row = some s'.oauth_consents)
  | .create_code _ =>
    (φ = .consumed ∨ φ = .consented) ∧ s'.oauth_consents = s.oauth_consents ∧
      (s'.oauth.oauth_codes = s.oauth.oauth_codes ∨
        ∃ row, s.oauth.oauth_codes.insert row = some s'.oauth.oauth_codes)
  | _ => SameGrants s s'

/-- No statement of a submission sets the clock back or files a request. -/
structure ConsentGuar (request_id : Uuid) (φ : Phase) (l : AuthStmt) (s s' : AuthDb) : Prop where
  clock : s.oauth.now ≤ s'.oauth.now
  requests : ∀ r ∈ s'.oauth_consent_requests.rows, r ∈ s.oauth_consent_requests.rows
  effect : consentEffect request_id φ l s s'

/-- Nothing is asked of the others. -/
def consentSpec {α : Type} (id : Uuid) (post : Phase → α → Prop) : Spec AuthStmt AuthDb α Phase where
  rely _ _ := True
  advance := Phase.advance
  guar := ConsentGuar id
  post φ _ a := post φ a

variable {sha256_hex : String → String} {parse_uuid : String → Option Uuid} {request_id : Uuid} {φ : Phase}

/-- A submission answered with a redirect has consumed the request. -/
def consumedIfOk (φ : Phase) (a : Except OAuthError String) : Prop := ∀ t, a = .ok t → φ ≠ .idle

theorem code_guar (hφ : φ = .consumed ∨ φ = .consented) {h : String} {row : oauth_codes.Model} (s : AuthDb) :
    ConsentGuar request_id φ (.create_code h) s
      (match s.oauth.oauth_codes.insert row with
        | none => ((.error .Db : Except StoreError Unit), s)
        | some t => (.ok (), { s with oauth := { s.oauth with oauth_codes := t } })).2 := by
  cases hinsert : s.oauth.oauth_codes.insert row with
  | none => exact ⟨Int.le_refl _, fun _ h => h, hφ, rfl, .inl rfl⟩
  | some t => exact ⟨Int.le_refl _, fun _ h => h, hφ, rfl, .inr ⟨row, hinsert⟩⟩

theorem grant_guar {user_id client_id : Uuid} {row : oauth_consents.Model} (s : AuthDb) :
    ConsentGuar request_id .consumed (.grant_consent user_id client_id) s
      (match s.oauth_consents.insert row with
        | none => ((.error .Db : Except StoreError Unit), s)
        | some t => (.ok (), { s with oauth_consents := t })).2 := by
  cases hinsert : s.oauth_consents.insert row with
  | none => exact ⟨Int.le_refl _, fun _ h => h, rfl, rfl, .inl rfl⟩
  | some t => exact ⟨Int.le_refl _, fun _ h => h, rfl, rfl, .inr ⟨row, hinsert⟩⟩

theorem issue_code_meets (hφ : φ = .consumed ∨ φ = .consented) (client_id user_id : Uuid)
    (redirect_uri code_challenge method scope : String) (resource oauth_state : Option String)
    (plaintext : String) (w : AuthDb) :
    (authorize.issue_code_and_redirect sha256_hex client_id user_id redirect_uri code_challenge method scope
      resource oauth_state plaintext).Meets (consentSpec request_id consumedIfOk) φ w := by
  simp only [authorize.issue_code_and_redirect, auth.utc_now, create_code, Task.read_bind]
  refine .stmt (fun s _ _ => ⟨Int.le_refl _, fun _ h => h, rfl, rfl⟩) fun s _ _ => ?_
  simp only [Task.exec_bind, Task.stmt_bind, Task.pure_eq]
  refine .stmt (fun s _ _ => ?_) fun s _ _ => ?_
  · exact code_guar hφ s
  · split
    · exact .done fun _ _ _ _ => nofun
    · exact .done fun _ _ _ _ => nofun

theorem decide_request_meets (req : ConsentRequest) (decision : String) (caller : Uuid)
    (drawn : authorize.Drawn) (w : AuthDb) :
    (decide_request sha256_hex req decision caller drawn).Meets (consentSpec request_id consumedIfOk)
      .consumed w := by
  unfold decide_request
  split
  · exact .done fun _ _ _ _ => nofun
  simp only [grant_consent, has_consent, Task.read_bind, Task.stmt_bind]
  refine .stmt (fun s _ _ => ⟨Int.le_refl _, fun _ h => h, rfl, rfl⟩) fun s _ _ => ?_
  split
  · exact issue_code_meets (.inl rfl) _ _ _ _ _ _ _ _ _ s
  simp only [Task.exec_bind]
  refine .stmt (fun s _ _ => ?_) fun s _ _ => ?_
  · exact grant_guar s
  · split
    · exact .done fun _ _ _ _ => nofun
    · exact issue_code_meets (.inr rfl) _ _ _ _ _ _ _ _ _ _

/-- A deletion keeps no request that was not there, and none of its id. -/
theorem delete_guar (s : AuthDb) {r : ConsentRequest}
    (hr : r ∈ (s.oauth_consent_requests.delete fun r => r.id = request_id).rows) :
    r ∈ s.oauth_consent_requests.rows ∧ r.id ≠ request_id := by
  obtain ⟨hmem, hne⟩ := Table.mem_delete.mp hr
  exact ⟨hmem, of_decide_eq_false hne⟩

theorem post_consent_meets {form : ConsentForm} (hform : parse_uuid form.request_id = some request_id)
    (caller : Option Uuid) (drawn : authorize.Drawn) (w : AuthDb) :
    (post_consent sha256_hex parse_uuid form caller drawn).Meets
      (consentSpec request_id consumedIfOk) .idle w := by
  have hparse : parse_request_id parse_uuid (some form.request_id) = .ok request_id := by
    simp only [parse_request_id, Option.bind_some, hform]
    rfl
  unfold post_consent
  rw [hparse]
  dsimp only
  split
  · exact .done fun _ _ _ h => by cases h
  rename_i caller
  simp only [load_live_request, get_consent_request, auth.utc_now, delete_consent_request, Task.read_bind,
    Task.stmt_bind]
  refine .stmt (fun s _ _ => ⟨Int.le_refl _, fun _ h => h, rfl, rfl⟩) fun s _ _ => ?_
  split
  · exact .done fun _ _ _ h => by cases h
  rename_i req hfind
  simp only [Task.stmt_bind]
  refine .stmt (fun s _ _ => ⟨Int.le_refl _, fun _ h => h, rfl, rfl⟩) fun s _ _ => ?_
  split
  · simp only [Task.exec_bind, Task.stmt_bind, Task.pure_eq, Task.done_bind]
    refine .stmt (fun s _ _ => ⟨Int.le_refl _, fun r hr => (delete_guar s hr).1, rfl, rfl⟩) fun s _ _ => ?_
    exact .done fun _ _ _ h => by cases h
  · simp only [Task.pure_eq, Task.done_bind, Task.exec_bind]
    refine .stmt (fun s _ _ => ⟨Int.le_refl _, fun r hr => (delete_guar s hr).1, rfl, rfl,
      fun r hr => (delete_guar s hr).2, rfl, rfl⟩) fun s _ _ => ?_
    exact decide_request_meets req form.decision caller drawn _

theorem task_meets {call : Call} (hcall : call.names parse_uuid request_id) (w : AuthDb) :
    (call.task sha256_hex parse_uuid).Meets
      (consentSpec request_id fun φ a => a.redirected = true → φ ≠ .idle) .idle w := by
  cases call with
  | submit form caller drawn =>
    refine (post_consent_meets hcall caller drawn w).bind (fun _ => trivial) fun φ w answer hanswer => ?_
    refine .done fun _ _ hredirected => ?_
    cases answer with
    | error e => cases hredirected
    | ok t => exact hanswer t rfl
  | tick app db =>
    simp only [Call.task, auth.tick, Task.exec_bind, Task.pure_eq]
    refine .stmt (fun s _ _ => ⟨?_, fun _ h => h, rfl, rfl⟩) fun s _ _ => .done fun _ _ h => by cases h
    exact Int.le_add_of_nonneg_right (Int.natCast_nonneg app)

end Spec

section Invariant

/-- One submission at most has consumed the request, which then is gone, and a
new code or consent is its own. -/
structure Used {ι : Type} (request_id : Uuid) (s₀ : AuthDb) (φ : ι → Phase) (s : AuthDb) : Prop where
  one : ∀ i j, φ i ≠ .idle → φ j ≠ .idle → i = j
  gone : ∀ i, φ i ≠ .idle → ∀ r ∈ s.oauth_consent_requests.rows, r.id ≠ request_id
  uncoded : (∀ i, φ i ≠ .coded) → s.oauth.oauth_codes = s₀.oauth.oauth_codes
  code : ∀ c c', c ∈ s.oauth.oauth_codes.rows → c' ∈ s.oauth.oauth_codes.rows →
    c ∉ s₀.oauth.oauth_codes.rows → c' ∉ s₀.oauth.oauth_codes.rows → c = c'
  ungranted : (∀ i, φ i ≠ .consented ∧ φ i ≠ .coded) → s.oauth_consents = s₀.oauth_consents
  grant : ∀ c c', c ∈ s.oauth_consents.rows → c' ∈ s.oauth_consents.rows →
    c ∉ s₀.oauth_consents.rows → c' ∉ s₀.oauth_consents.rows → c = c'

/-- One row that was inserted is all that is new. -/
theorem new_of_insert {ρ : Type} {u : Indexes ρ} {t t' : Table u} {row c c' : ρ} (h : t.insert row = some t')
    (hc : c ∈ t'.rows) (hc' : c' ∈ t'.rows) (hnew : c ∉ t.rows) (hnew' : c' ∉ t.rows) : c = c' := by
  obtain hold | rfl := (Table.mem_of_insert h).mp hc
  · exact absurd hold hnew
  obtain hold | rfl := (Table.mem_of_insert h).mp hc'
  · exact absurd hold hnew'
  rfl

variable {ι : Type} [DecidableEq ι] {request : ConsentRequest} {s₀ s s' : AuthDb} {φ : ι → Phase} {i : ι}
  {l : AuthStmt}

/-- A statement that changes neither the phase nor the grants. -/
theorem Used.of_same (hinv : Used request.id s₀ φ s)
    (hrequests : ∀ r ∈ s'.oauth_consent_requests.rows, r ∈ s.oauth_consent_requests.rows)
    (hsame : SameGrants s s') : Used request.id s₀ φ s' := by
  obtain ⟨hcodes, hconsents⟩ := hsame
  refine ⟨hinv.one, fun j hj r hr => hinv.gone j hj r (hrequests r hr), ?_, ?_, ?_, ?_⟩
  · rw [hcodes]
    exact hinv.uncoded
  · rw [hcodes]
    exact hinv.code
  · rw [hconsents]
    exact hinv.ungranted
  · rw [hconsents]
    exact hinv.grant

/-- The step lemma: a deletion that finds the request is the first one, and
only the submission that ran it goes on to insert. -/
theorem Used.step (hinv : Used request.id s₀ φ s) (hcond : undisturbed request i s l)
    (hguar : ConsentGuar request.id (φ i) l s s') :
    Used request.id s₀ (Function.update φ i ((φ i).advance l)) s' := by
  have hgone : φ i ≠ .idle → ∀ r ∈ s'.oauth_consent_requests.rows, r.id ≠ request.id :=
    fun hi r hr => hinv.gone i hi r (hguar.requests r hr)
  have hothers : φ i ≠ .idle → ∀ j, j ≠ i → φ j = .idle := by
    intro hi j hne
    by_contra hj
    exact hne (hinv.one j i hj hi)
  have honly : ∀ ψ : Phase, (∀ j, j ≠ i → φ j = .idle) → ∀ j, Function.update φ i ψ j ≠ .idle → j = i := by
    intro ψ hidle j hj
    by_contra hne
    rw [Function.update_of_ne hne] at hj
    exact hj (hidle j hne)
  have heffect := hguar.effect
  cases l with
  | consume_request id =>
    obtain ⟨rfl, hidle, hdeleted, hcodes, hconsents⟩ := heffect
    -- the request is still there, so nobody has consumed it
    have hnone : ∀ j, φ j = .idle := by
      intro j
      by_contra hj
      obtain ⟨r, hfind⟩ := Option.isSome_iff_exists.mp hcond
      obtain ⟨hr, hid⟩ := Table.mem_of_find hfind
      exact hinv.gone j hj r hr (of_decide_eq_true hid)
    have hmover := honly .consumed fun j _ => hnone j
    have hcodes := hcodes.trans (hinv.uncoded fun j => by rw [hnone j]; decide)
    have hconsents := hconsents.trans (hinv.ungranted fun j => by rw [hnone j]; decide)
    refine ⟨fun j k hj hk => (hmover j hj).trans (hmover k hk).symm, fun _ _ => hdeleted, fun _ => hcodes, ?_,
      fun _ => hconsents, ?_⟩
    · intro c c' hc _ hnew _
      rw [hcodes] at hc
      exact absurd hc hnew
    · intro c c' hc _ hnew _
      rw [hconsents] at hc
      exact absurd hc hnew
  | grant_consent user_id client_id =>
    obtain ⟨hi, hcodes, hinsert⟩ := heffect
    have hmoving : φ i ≠ .idle := by rw [hi]; decide
    have hearly : ∀ j, φ j ≠ .consented ∧ φ j ≠ .coded := by
      intro j
      by_cases hji : j = i
      · rw [hji, hi]
        decide
      · rw [hothers hmoving j hji]
        decide
    have hmover := honly .consented (hothers hmoving)
    refine ⟨fun j k hj hk => (hmover j hj).trans (hmover k hk).symm, fun _ _ => hgone hmoving,
      fun _ => hcodes.trans (hinv.uncoded fun j => (hearly j).2), ?_, fun hnone => ?_, ?_⟩
    · rw [hcodes]
      exact hinv.code
    · exact absurd (Function.update_self i _ φ) (hnone i).1
    · have hbefore := hinv.ungranted hearly
      obtain hsame | ⟨row, hinsert⟩ := hinsert
      · rw [hsame]
        exact hinv.grant
      · rw [hbefore] at hinsert
        exact fun c c' hc hc' => new_of_insert hinsert hc hc'
  | create_code h =>
    obtain ⟨hi, hconsents, hinsert⟩ := heffect
    have hmoving : φ i ≠ .idle := by
      obtain hi | hi := hi <;> rw [hi] <;> decide
    have hearly : ∀ j, φ j ≠ .coded := by
      intro j
      by_cases hji : j = i
      · subst hji
        obtain hi | hi := hi <;> rw [hi] <;> decide
      · rw [hothers hmoving j hji]
        decide
    have hmover := honly .coded (hothers hmoving)
    refine ⟨fun j k hj hk => (hmover j hj).trans (hmover k hk).symm, fun _ _ => hgone hmoving, fun hnone => ?_, ?_,
      fun hnone => ?_, ?_⟩
    · exact absurd (Function.update_self i _ φ) (hnone i)
    · have hbefore := hinv.uncoded hearly
      obtain hsame | ⟨row, hinsert⟩ := hinsert
      · rw [hsame]
        exact hinv.code
      · rw [hbefore] at hinsert
        exact fun c c' hc hc' => new_of_insert hinsert hc hc'
    · exact absurd (Function.update_self i _ φ) (hnone i).2
    · rw [hconsents]
      exact hinv.grant
  | now | tick | register_client _ | get_client _ | has_consent _ _ | create_consent_request _
  | get_consent_request _ | drop_expired _ =>
    have hphase : Function.update φ i (φ i) = φ := Function.update_eq_self i φ
    simp only [Phase.advance, hphase]
    exact hinv.of_same hguar.requests heffect

/-- A statement leaves the grants as they are when its submission has not
consumed the request, and when the request has expired. -/
theorem sameGrants_of_guar (hguar : ConsentGuar request.id (φ i) l s s')
    (hidle : φ i = .idle ∨ (undisturbed request i s l ∧ request.expires_at ≤ s.oauth.now)) : SameGrants s s' := by
  have heffect := hguar.effect
  cases l with
  | consume_request id => exact heffect.2.2.2
  | grant_consent user_id client_id =>
    obtain hidle | ⟨hcond, hexpired⟩ := hidle
    · exact absurd (hidle.symm.trans heffect.1) (by decide)
    · exact absurd hcond (Int.not_lt.mpr hexpired)
  | create_code h =>
    obtain hidle | ⟨hcond, hexpired⟩ := hidle
    · rw [hidle] at heffect
      exact absurd heffect.1 (by decide)
    · exact absurd hcond (Int.not_lt.mpr hexpired)
  | now | tick | register_client _ | get_client _ | has_consent _ _ | create_consent_request _
  | get_consent_request _ | drop_expired _ => exact heffect

end Invariant

theorem SameGrants.trans {s s' s'' : AuthDb} (h : SameGrants s s') (h' : SameGrants s' s'') : SameGrants s s'' :=
  ⟨h'.1.trans h.1, h'.2.trans h.2⟩

section Runs

variable {ι : Type} [DecidableEq ι] {request : ConsentRequest} {s₀ : AuthDb}

/-- Every submission is within its specification. -/
abbrev Orderly (request : ConsentRequest) (s₀ : AuthDb) (p : Pool ι AuthStmt AuthDb Reply) : Prop :=
  p.Sound (fun _ => consentSpec request.id fun φ a => a.redirected = true → φ ≠ .idle) (Used request.id s₀)

theorem Orderly.step {p : Pool ι AuthStmt AuthDb Reply} (h : Orderly request s₀ p) {i : ι}
    (hcond : p.Respects (undisturbed request) i) : Orderly request s₀ (p.step i) :=
  Pool.Sound.step (fun _ _ => trivial) (fun _ _ _ _ _ _ => trivial) (fun _ _ _ _ _ _ _ => trivial)
    (fun _ _ _ _ _ hj hcond hguar => hj.step hcond hguar) h hcond

theorem Orderly.run {p : Pool ι AuthStmt AuthDb Reply} (h : Orderly request s₀ p) {sched : List ι}
    (hcond : p.Along (Pool.Respects (undisturbed request)) sched) : Orderly request s₀ (p.run sched) :=
  hcond.inv (fun _ _ hp hc => hp.step hc) h

/-- Once a submission was answered with a redirect, no grant comes out of any. -/
theorem Orderly.answered {p : Pool ι AuthStmt AuthDb Reply} (h : Orderly request s₀ p) {sched : List ι}
    (hcond : p.Along (Pool.Respects (undisturbed request)) sched) {i : ι} {a : Reply}
    (ha : (p.task i).result? = some a) (hredirected : a.redirected = true) :
    SameGrants p.store (p.run sched).store := by
  let Kept : Pool ι AuthStmt AuthDb Reply → Prop := fun q =>
    Orderly request s₀ q ∧ (q.task i).result? = some a ∧ SameGrants p.store q.store
  have hstep : ∀ q j, Kept q → q.Respects (undisturbed request) j → Kept (q.step j) := by
    rintro q j ⟨horder, hdone, hsame⟩ hc
    refine ⟨horder.step hc, Pool.result?_step hdone, ?_⟩
    obtain heq | ⟨φ, l, hused, _, hrunning, hpost, hguar⟩ :=
      Pool.Sound.turn (fun _ _ => trivial) horder j
    · rwa [heq]
    refine hsame.trans (sameGrants_of_guar hguar (.inl ?_))
    by_contra hmoving
    obtain rfl := hused.one i j (hpost i a hdone hredirected) hmoving
    rw [hdone] at hrunning
    cases hrunning
  have hrun : Kept (p.run sched) := hcond.inv hstep ⟨h, ha, rfl, rfl⟩
  exact hrun.2.2

/-- Once the request has expired, no grant comes out of any submission. -/
theorem Orderly.expired {p : Pool ι AuthStmt AuthDb Reply} (h : Orderly request s₀ p) {sched : List ι}
    (hcond : p.Along (Pool.Respects (undisturbed request)) sched)
    (hexpired : request.expires_at ≤ p.store.oauth.now) : SameGrants p.store (p.run sched).store := by
  let Kept : Pool ι AuthStmt AuthDb Reply → Prop := fun q =>
    Orderly request s₀ q ∧ request.expires_at ≤ q.store.oauth.now ∧ SameGrants p.store q.store
  have hstep : ∀ q j, Kept q → q.Respects (undisturbed request) j → Kept (q.step j) := by
    rintro q j ⟨horder, hexpired, hsame⟩ hc
    refine ⟨horder.step hc, ?_⟩
    obtain heq | ⟨φ, l, _, hlabel, _, _, hguar⟩ := Pool.Sound.turn (fun _ _ => trivial) horder j
    · rw [heq]
      exact ⟨hexpired, hsame⟩
    · exact ⟨Int.le_trans hexpired hguar.clock,
        hsame.trans (sameGrants_of_guar hguar (.inr ⟨hc l hlabel, hexpired⟩))⟩
  have hrun : Kept (p.run sched) := hcond.inv hstep ⟨h, hexpired, rfl, rfl⟩
  exact hrun.2.2

end Runs

/-- A consent request is used once in every run in which each submission that
consumes it finds it there and inserts in time. -/
theorem consent_request_used_once {ι : Type} [DecidableEq ι] (sha256_hex : String → String)
    (parse_uuid : String → Option Uuid) (request : ConsentRequest) (s : AuthDb) (calls : ι → Call)
    (hcalls : ∀ i, (calls i).names parse_uuid request.id) (sched : List ι)
    (hundisturbed : (start sha256_hex parse_uuid s calls).Along (Pool.Respects (undisturbed request)) sched) :
    UsedOnce request (start sha256_hex parse_uuid s calls) sched := by
  have hstart : Orderly request s (start sha256_hex parse_uuid s calls) := by
    refine ⟨fun _ => .idle, fun i => task_meets (hcalls i) s, ?_⟩
    refine ⟨fun _ _ h => absurd rfl h, fun _ h => absurd rfl h, fun _ => rfl, ?_, fun _ => rfl, ?_⟩
    · exact fun c _ hc _ hnew => absurd hc hnew
    · exact fun c _ hc _ hnew => absurd hc hnew
  have hsplit : ∀ before after, sched = before ++ after →
      Orderly request s ((start sha256_hex parse_uuid s calls).run before) ∧
        ((start sha256_hex parse_uuid s calls).run before).Along (Pool.Respects (undisturbed request)) after := by
    rintro before after rfl
    obtain ⟨hbefore, hafter⟩ := (Pool.along_append _ _ _ _).mp hundisturbed
    exact ⟨hstart.run hbefore, hafter⟩
  obtain ⟨φ, hused, hpost⟩ := (hstart.run hundisturbed).post fun _ _ => trivial
  refine ⟨fun i j a b hi hj ha hb => hused.one i j (hpost i a hi ha) (hpost j b hj hb), hused.code, hused.grant,
    fun before after heq ⟨i, a, hdone, hredirected⟩ => ?_, fun before after heq hexpired => ?_⟩
  · obtain ⟨horder, hafter⟩ := hsplit before after heq
    rw [heq, Pool.run_append]
    exact horder.answered hafter hdone hredirected
  · obtain ⟨horder, hafter⟩ := hsplit before after heq
    rw [heq, Pool.run_append]
    exact horder.expired hafter hexpired

section Samples

open redemption

def samplePending : ConsentRequest where
  id := 5
  client_id := 7
  redirect_uri := "http://localhost:9999/callback"
  scope := some "mcp"
  resource := none
  code_challenge := "E9Melhoa2OwvFrEMTJguCHaoeK1t8URWbuGJSstw-cM"
  code_challenge_method := "S256"
  state := none
  expires_at := 600000000

/-- One pending request, and no code or consent yet. -/
def samplePendingDb : AuthDb where
  oauth_clients := .single {
    id := 7
    client_secret_hash := none
    client_name := "mcp-client"
    redirect_uris := ["http://localhost:9999/callback"]
    grant_types := ["authorization_code", "refresh_token"]
    token_endpoint_auth_method := "none"
    scope := none
    created_at := 0 }
  oauth_consents := .empty
  oauth_consent_requests := .single samplePending
  oauth := { sampleDb with oauth_codes := .empty }

def sampleParse (s : String) : Option Uuid :=
  if s = "00000000-0000-4000-8000-000000000005" then some 5 else none

/-- Two users approve the same request. -/
def sampleSubmissions : Fin 2 → Call
  | 0 => .submit ⟨"00000000-0000-4000-8000-000000000005", "approve"⟩ (some 8)
      ⟨"qLPTI3zVOKAeDGn1rGXiVK1xyQV8j6mlJk6T1rTtwMY", 100, 0⟩
  | 1 => .submit ⟨"00000000-0000-4000-8000-000000000005", "approve"⟩ (some 9)
      ⟨"mG0kXt8pWv2aYc5dR7eLhBzN1qUsFjKoI4xPwQ3CbTE", 200, 0⟩

def sampleSubmitting : Pool (Fin 2) AuthStmt AuthDb Reply :=
  start sampleSha sampleParse samplePendingDb sampleSubmissions

/-- One submission after the other: the first one takes effect. -/
theorem consent_request_used_in_turn :
    sampleSubmitting.Along (Pool.Respects (undisturbed samplePending)) [0, 0, 0, 0, 0, 0, 0, 1, 1] ∧
      ((sampleSubmitting.run [0, 0, 0, 0, 0, 0, 0, 1, 1]).store.oauth.oauth_codes.rows.map (·.user_id)) = [8] ∧
      UsedOnce samplePending sampleSubmitting [0, 0, 0, 0, 0, 0, 0, 1, 1] := by
  have hcalls : ∀ i, (sampleSubmissions i).names sampleParse samplePending.id := by
    intro i
    match i with
    | 0 | 1 => rfl
  have hundisturbed : sampleSubmitting.Along (Pool.Respects (undisturbed samplePending))
      [0, 0, 0, 0, 0, 0, 0, 1, 1] := by decide
  exact ⟨hundisturbed, by decide, consent_request_used_once sampleSha sampleParse samplePending samplePendingDb
    sampleSubmissions hcalls _ hundisturbed⟩

/-- Both submissions find the request before either deletes it: two users are
recorded as having consented, and two codes are issued. -/
theorem consent_request_used_twice :
    let final := (sampleSubmitting.run [0, 1, 0, 1, 0, 1, 0, 0, 0, 0, 1, 1, 1, 1]).store
    final.oauth.oauth_codes.rows.map (·.user_id) = [8, 9] ∧
      final.oauth_consents.rows.map (·.user_id) = [8, 9] ∧
      ¬ UsedOnce samplePending sampleSubmitting [0, 1, 0, 1, 0, 1, 0, 0, 0, 0, 1, 1, 1, 1] := by
  refine ⟨rfl, rfl, fun h => ?_⟩
  obtain ⟨a, b, hrows⟩ : ∃ a b, (sampleSubmitting.run
      [0, 1, 0, 1, 0, 1, 0, 0, 0, 0, 1, 1, 1, 1]).store.oauth.oauth_codes.rows = [a, b] ∧ a.user_id ≠ b.user_id :=
    ⟨_, _, rfl, by decide⟩
  have ha := hrows.1 ▸ List.mem_cons_self (a := a) (l := [b])
  have hb := hrows.1 ▸ List.mem_cons_of_mem a (List.mem_singleton.mpr (rfl : b = b))
  have hsame : a = b := h.code a b ha hb nofun nofun
  exact hrows.2 (congrArg (·.user_id) hsame)

end Samples

end api2mcp.server.oauth.consent
