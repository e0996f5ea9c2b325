import Mathlib.Data.Fintype.Basic
import Api2Mcp.Server.Oauth.RotationRuns

namespace api2mcp.server.oauth.rotation

open relational concurrent
open api2mcp.entity api2mcp.entity.oauth_tokens api2mcp.store

/-- The statement revokes a row of the family from a list read before. -/
def sweeping (f : Uuid) : Option OauthStmt → Bool
  | some (.revoke_member f' _) => f' = f
  | _ => false

section Sweep

variable {f : Uuid} {k : Except StoreError Unit → OauthTask Reply} {s s' : OauthDb}
  {t : OauthTask Reply}

/-- The list still names every live token of the family. -/
structure Covers (f : Uuid) (rows : List Model) (s : OauthDb) : Prop where
  listed : ∀ row ∈ rows, row.family_id = f ∧ ∃ r ∈ s.oauth_tokens.rows, r.id = row.id
  live : ∀ r, Live f s.oauth_tokens r → ∃ row ∈ rows, row.id = r.id ∧ row.revoked = false

/-- The rest of a call that revokes the family and then answers by `k`: the
list is about to be read, or the next row of it is about to be revoked. -/
inductive Sweep (f : Uuid) (k : Except StoreError Unit → OauthTask Reply) (s : OauthDb) :
    OauthTask Reply → Prop
  | list : Sweep f k s (store.revoke_family f >>= k)
  | rows (row : Model) (rest : List Model) : row.revoked = false → Covers f (row :: rest) s →
      Sweep f k s (revoke_rows (row :: rest) >>= k)

/-- Rows that are revoked already are skipped, so a covered list either is
done with nothing live left, or stops at a row to revoke. -/
theorem revoke_rows_cases (rows : List Model) (hcovers : Covers f rows s) :
    (revoke_rows rows = .done (.ok ()) ∧ ∀ r, ¬ Live f s.oauth_tokens r) ∨
    ∃ row rest, row.revoked = false ∧ revoke_rows rows = revoke_rows (row :: rest) ∧
      Covers f (row :: rest) s := by
  induction rows with
  | nil =>
    refine .inl ⟨rfl, fun r hr => ?_⟩
    obtain ⟨row, hrow, _⟩ := hcovers.live r hr
    cases hrow
  | cons row rest ih =>
    cases hrevoked : row.revoked with
    | false => exact .inr ⟨row, rest, hrevoked, rfl, hcovers⟩
    | true =>
      have hskip : revoke_rows (row :: rest) = revoke_rows rest := by
        rw [revoke_rows, if_pos hrevoked]
      rw [hskip]
      refine ih ⟨fun r hr => hcovers.listed r (List.mem_cons_of_mem _ hr), fun r hr => ?_⟩
      obtain ⟨row', hrow', hid, hlive⟩ := hcovers.live r hr
      obtain rfl | hrest := List.mem_cons.mp hrow'
      · simp [hrevoked] at hlive
      · exact ⟨row', hrest, hid, hlive⟩

theorem Sweep.of_rows (hk : ∀ a, (k a).result?.isSome = true) (rows : List Model)
    (hcovers : Covers f rows s) :
    ((revoke_rows rows >>= k).result?.isSome = true ∧ ∀ r, ¬ Live f s.oauth_tokens r) ∨
    ((revoke_rows rows >>= k).result? = none ∧ Sweep f k s (revoke_rows rows >>= k)) := by
  obtain ⟨hdone, hnone⟩ | ⟨row, rest, hlive, heq, hcovers'⟩ := revoke_rows_cases rows hcovers
  · refine .inl ⟨?_, hnone⟩
    rw [hdone]
    exact hk _
  · rw [heq]
    refine .inr ⟨?_, .rows row rest hlive hcovers'⟩
    simp [revoke_rows, hlive, set_revoked]

/-- A turn of the call itself: it completes with nothing live in the family,
or goes on sweeping. -/
theorem Sweep.own (hk : ∀ a, (k a).result?.isSome = true) {l : OauthStmt} {ready : OauthDb → Bool}
    {write : OauthDb → OauthDb} {next : OauthDb → OauthTask Reply}
    (h : Sweep f k s t) (ht : t = .stmt l ready write next) :
    ((next s).result?.isSome = true ∧ ∀ r, ¬ Live f (write s).oauth_tokens r) ∨
    ((next s).result? = none ∧ Sweep f k (write s) (next s)) := by
  cases h with
  | list =>
    simp only [store.revoke_family, list_family, Task.read_bind, Task.stmt_bind] at ht
    cases ht
    refine Sweep.of_rows hk _ ⟨fun row hrow => ?_, fun r hr => ?_⟩
    · obtain ⟨hmem, hfamily⟩ := Table.mem_select.mp hrow
      exact ⟨by simpa using hfamily, row, hmem, rfl⟩
    · exact ⟨r, Table.mem_select.mpr ⟨hr.1, by simpa using hr.2.1⟩, rfl, hr.2.2⟩
  | rows row rest hunrevoked hcovers =>
    simp only [revoke_rows, hunrevoked, Bool.false_eq_true, if_false, set_revoked, Task.exec_bind,
      Task.stmt_bind] at ht
    cases ht
    obtain ⟨r, hr, hid⟩ := (hcovers.listed row List.mem_cons_self).2
    have hfind : (s.oauth_tokens.find fun r => r.id = row.id) = some r :=
      Table.find_of_mem hr (by simpa using hid) fun a _ ha => by
        simp only [decide_eq_true_eq] at ha
        simp [indexes, ha, hid]
    simp only [hfind]
    have hrest : Covers f rest { s with oauth_tokens := revokeId row.id s.oauth_tokens } := by
      refine ⟨fun row' hrow' => ?_, fun r' hr' => ?_⟩
      · obtain ⟨hfamily, a, ha, hida⟩ := hcovers.listed row' (List.mem_cons_of_mem _ hrow')
        obtain ⟨a', ha', haged⟩ := keeps_revokeId row.id s.oauth_tokens a ha
        exact ⟨hfamily, a', ha', haged.id_eq.trans hida⟩
      · obtain ⟨hold, hne⟩ := live_of_revokeId hr'
        obtain ⟨row', hrow', hid', hlive'⟩ := hcovers.live r' hold
        obtain rfl | hmem := List.mem_cons.mp hrow'
        · exact absurd hid'.symm hne
        · exact ⟨row', hmem, hid', hlive'⟩
    exact Sweep.of_rows hk rest hrest

/-- A turn of another call, if it does not issue into the family behind the
list's back. -/
theorem Sweep.other (h : Sweep f k s t) (hkeeps : Keeps s.oauth_tokens s'.oauth_tokens)
    (hnone : sweeping f t.label? = true → NoneIssued f s.oauth_tokens s'.oauth_tokens) :
    Sweep f k s' t := by
  cases h with
  | list => exact .list
  | rows row rest hunrevoked hcovers =>
    have hfamily : row.family_id = f := (hcovers.listed row List.mem_cons_self).1
    have hnone := hnone (by simp [revoke_rows, hunrevoked, set_revoked, sweeping, hfamily])
    refine .rows row rest hunrevoked ⟨fun row' hrow' => ?_, fun r' hr' => ?_⟩
    · obtain ⟨hf, r, hr, hid⟩ := hcovers.listed row' hrow'
      obtain ⟨r', hr', haged⟩ := hkeeps r hr
      exact ⟨hf, r', hr', haged.id_eq.trans hid⟩
    · obtain ⟨r, hr, haged⟩ := hnone.live hr'
      obtain ⟨row', hrow', hid, hlive⟩ := hcovers.live r hr
      exact ⟨row', hrow', hid.trans haged.id_eq.symm, hlive⟩

end Sweep

section Runs

variable {ι : Type} [DecidableEq ι]

/-- No pair is issued into a family while another call is part-way through
revoking it, its list already read. -/
def NotOvertaken (p : Pool ι OauthStmt OauthDb Reply) (i : ι) : Prop :=
  match (p.task i).label? with
  | some (.issue_in_family f) => ∀ j, sweeping f (p.task j).label? = false
  | _ => True

instance [Fintype ι] (p : Pool ι OauthStmt OauthDb Reply) (i : ι) : Decidable (NotOvertaken p i) := by
  unfold NotOvertaken
  split <;> infer_instance

/-- Every call that had a turn has answered. -/
def Quiescent (sha256_hex : String → String) (calls : ι → Call)
    (p : Pool ι OauthStmt OauthDb Reply) : Prop :=
  ∀ i, (p.task i).result?.isSome = true ∨ p.task i = (calls i).task sha256_hex

/-- The call presents a refresh token whose row is revoked already. -/
def PresentsRevoked (sha256_hex : String → String) (f : Uuid) (call : Call) (s : OauthDb) : Prop :=
  ∃ t, call.presented = some t ∧ ∃ r ∈ s.oauth_tokens.rows,
    r.refresh_token_hash = some (sha256_hex t) ∧ r.revoked = true ∧ r.family_id = f

/-- What rotation and reuse detection promise of a schedule. In `reuse` the
first turn of call `i` is the look-up, and its turn after `mid` is the one it
completes with. -/
structure RotationSafe (sha256_hex : String → String) (s : OauthDb) (calls : ι → Call)
    (sched : List ι) : Prop where
  exchanged_once : ∀ i j t a b, (calls i).presented = some t → (calls j).presented = some t →
    (((start sha256_hex s calls).run sched).task i).result? = some a →
    (((start sha256_hex s calls).run sched).task j).result? = some b →
    a.exchanged = true → b.exchanged = true → i = j
  one_live : ∀ f, (∀ r r', Live f s.oauth_tokens r → Live f s.oauth_tokens r' → r = r') →
    Quiescent sha256_hex calls ((start sha256_hex s calls).run sched) →
    ∀ r r', Live f ((start sha256_hex s calls).run sched).store.oauth_tokens r →
      Live f ((start sha256_hex s calls).run sched).store.oauth_tokens r' → r = r'
  reuse : ∀ before mid after i f, sched = before ++ i :: (mid ++ i :: after) → i ∉ before →
    PresentsRevoked sha256_hex f (calls i) ((start sha256_hex s calls).run before).store →
    (((start sha256_hex s calls).run (before ++ i :: mid)).task i).result? = none →
    (((start sha256_hex s calls).run (before ++ i :: (mid ++ [i]))).task i).result?.isSome = true →
    ∀ r ∈ ((start sha256_hex s calls).run (before ++ i :: (mid ++ [i]))).store.oauth_tokens.rows,
      r.family_id = f →
      ∀ r' ∈ ((start sha256_hex s calls).run sched).store.oauth_tokens.rows, r'.id = r.id →
        r'.revoked = true

/-- The auxiliary invariant: what was rotated is spent, and every family that
began with one live token keeps to one. -/
def Rotating (s₀ : OauthDb) (φ : ι → Phase) (s : OauthDb) : Prop :=
  Spent φ s ∧ ∀ f, (∀ r r', Live f s₀.oauth_tokens r → Live f s₀.oauth_tokens r' → r = r') →
    OneLive f φ s

/-- Every call is within its specification. -/
def InOrder (sha256_hex : String → String) (s₀ : OauthDb) (calls : ι → Call)
    (p : Pool ι OauthStmt OauthDb Reply) : Prop :=
  p.Sound (fun i => rotateSpec (taskPost sha256_hex (calls i))) (Rotating s₀)

variable {sha256_hex : String → String} {s₀ : OauthDb} {calls : ι → Call}

omit [DecidableEq ι] in
theorem start_inOrder : InOrder sha256_hex s₀ calls (start sha256_hex s₀ calls) := by
  refine ⟨fun _ => .idle, fun i => task_meets (calls i) s₀, ⟨?_, ?_⟩, fun f hone => ⟨hone, ?_, ?_⟩⟩
  · intro _ _ _ h
    cases h
  · intro _ _ h
    cases h
  · intro _ _ h
    cases h
  · intro _ _ _ _ h
    cases h

theorem InOrder.step {p : Pool ι OauthStmt OauthDb Reply} (h : InOrder sha256_hex s₀ calls p)
    {i : ι} (hlive : p.Respects updateFindsLive i) : InOrder sha256_hex s₀ calls (p.step i) :=
  Pool.Sound.step (fun _ _ => Keeps.refl _) (fun _ _ _ _ => Keeps.trans)
    (fun _ _ _ _ _ _ => rotateGuar.keeps)
    (fun _ _ _ _ _ hj hcond hguar =>
      ⟨hj.1.step hcond hguar, fun f hone => (hj.2 f hone).step hcond hguar⟩) h hlive

theorem InOrder.run {p : Pool ι OauthStmt OauthDb Reply} (h : InOrder sha256_hex s₀ calls p)
    {sched : List ι} (hlive : p.Along (Pool.Respects updateFindsLive) sched) :
    InOrder sha256_hex s₀ calls (p.run sched) :=
  hlive.inv (fun _ _ hp hc => hp.step hc) h

/-- A call that presents a revoked token turns to revoking the family. -/
theorem reuse_begins {i : ι} {f : Uuid} {p : Pool ι OauthStmt OauthDb Reply}
    (htask : p.task i = (calls i).task sha256_hex)
    (hrevoked : PresentsRevoked sha256_hex f (calls i) p.store) :
    ∃ k : Except StoreError Unit → OauthTask Reply, (∀ a, (k a).result?.isSome = true) ∧
      (p.step i).task i = store.revoke_family f >>= k := by
  obtain ⟨t, hpresented, r, hr, hhash, hrev, rfl⟩ := hrevoked
  have hfind : (p.store.oauth_tokens.find fun r => r.refresh_token_hash = some (sha256_hex t)) =
      some r :=
    Table.find_of_mem hr (by simpa using hhash) fun a _ ha => by
      simp only [decide_eq_true_eq] at ha
      simp [indexes, ha, hhash, sameHash]
  cases hcall : calls i with
  | rotate refresh_token draws =>
    rw [hcall] at hpresented htask
    cases hpresented
    simp only [Call.task, rotate_refresh_token, find_by_refresh_hash, Task.read_bind,
      Task.stmt_bind] at htask
    refine ⟨fun a => .done (.rotated (a.map fun _ => none)), fun a => by cases a <;> rfl, ?_⟩
    rw [Pool.step_task_of_ready htask rfl]
    simp only [hfind, hrev, if_true, Task.bind_assoc, Task.pure_eq]
    congr 1
    funext a
    cases a <;> rfl
  | grant req draws =>
    rw [hcall] at hpresented htask
    replace hpresented : req.refresh_token = some t := hpresented
    simp only [Call.task, refresh.grant, hpresented, rotate_refresh_token, find_by_refresh_hash,
      Task.read_bind, Task.stmt_bind] at htask
    refine ⟨fun a => .done (.granted (some (a.map fun _ => none))
      ((a.mapError .from_store).bind fun _ => .error (.bad "invalid_grant"
        "unknown, reused, revoked, or expired refresh token"))), fun a => by cases a <;> rfl, ?_⟩
    rw [Pool.step_task_of_ready htask rfl]
    simp only [hfind, hrev, if_true, Task.bind_assoc, Task.pure_eq]
    congr 1
    funext a
    cases a <;> rfl
  | revoke_family f =>
    rw [hcall] at hpresented
    cases hpresented
  | tick app db =>
    rw [hcall] at hpresented
    cases hpresented

/-- The step lemma of a sweep: until it completes, no turn of anyone makes its
list miss a live token. -/
theorem sweep_step {i j : ι} {f : Uuid} {k : Except StoreError Unit → OauthTask Reply}
    (hk : ∀ a, (k a).result?.isSome = true) {p : Pool ι OauthStmt OauthDb Reply}
    (horder : InOrder sha256_hex s₀ calls p) (hover : NotOvertaken p j)
    (hsweep : Sweep f k p.store (p.task i)) :
    ((p.step j).task i).result?.isSome = true ∨
      Sweep f k (p.step j).store ((p.step j).task i) := by
  obtain ⟨hstep, _⟩ | ⟨_, _, _, _, _, _, hstep⟩ | ⟨l, ready, write, next, htask, hready, hstep⟩ :=
    p.step_cases j
  · rw [hstep]
    exact .inr hsweep
  · rw [hstep]
    exact .inr hsweep
  rw [hstep]
  dsimp only
  by_cases hij : i = j
  · subst hij
    rw [Function.update_self]
    obtain ⟨hdone, _⟩ | ⟨_, hrest⟩ := hsweep.own hk htask
    · exact .inl hdone
    · exact .inr hrest
  · rw [Function.update_of_ne hij]
    obtain ⟨φ, hguar⟩ := Pool.Sound.guar (fun _ _ => Keeps.refl _) horder htask hready
    refine .inr (hsweep.other hguar.keeps fun hsweeping => hguar.noneIssued fun hl => ?_)
    simp only [NotOvertaken, htask, Task.label?_stmt, hl] at hover
    simp [hover i] at hsweeping

/-- The condition on a schedule: every rotation's update finds its row still
live, and no pair is issued behind a family revocation. -/
def InTurn (p : Pool ι OauthStmt OauthDb Reply) (i : ι) : Prop :=
  p.Respects updateFindsLive i ∧ NotOvertaken p i

instance [Fintype ι] (p : Pool ι OauthStmt OauthDb Reply) (i : ι) : Decidable (InTurn p i) :=
  inferInstanceAs (Decidable (_ ∧ _))

theorem sweep_run {i : ι} {f : Uuid} {k : Except StoreError Unit → OauthTask Reply}
    (hk : ∀ a, (k a).result?.isSome = true) {p : Pool ι OauthStmt OauthDb Reply}
    (horder : InOrder sha256_hex s₀ calls p) {sched : List ι} (hturn : p.Along InTurn sched)
    (hsweep : Sweep f k p.store (p.task i)) :
    ((p.run sched).task i).result?.isSome = true ∨
      Sweep f k (p.run sched).store ((p.run sched).task i) := by
  induction sched generalizing p with
  | nil => exact .inr hsweep
  | cons j sched ih =>
    obtain ⟨⟨hlive, hover⟩, hrest⟩ := hturn
    obtain hdone | hsweep' := sweep_step hk horder hover hsweep
    · obtain ⟨a, ha⟩ := Option.isSome_iff_exists.mp hdone
      rw [Pool.run_cons, Pool.result?_run ha]
      exact .inl rfl
    · exact ih (horder.step hlive) hrest hsweep'

/-- The turn a sweep completes with leaves nothing live in the family. -/
theorem sweep_completes {i : ι} {f : Uuid} {k : Except StoreError Unit → OauthTask Reply}
    (hk : ∀ a, (k a).result?.isSome = true) {p : Pool ι OauthStmt OauthDb Reply}
    (hsweep : Sweep f k p.store (p.task i)) (hunfinished : (p.task i).result? = none)
    (hfinished : ((p.step i).task i).result?.isSome = true) :
    ∀ r, ¬ Live f (p.step i).store.oauth_tokens r := by
  obtain ⟨hstep, a, hdone⟩ | ⟨_, _, _, _, _, _, hstep⟩ |
    ⟨l, ready, write, next, htask, hready, hstep⟩ := p.step_cases i
  · simp [hdone] at hunfinished
  · rw [hstep, hunfinished] at hfinished
    cases hfinished
  · rw [Pool.step_task_of_ready htask hready] at hfinished
    rw [hstep]
    obtain ⟨_, hnone⟩ | ⟨hnot, _⟩ := hsweep.own hk htask
    · exact hnone
    · simp [hnot] at hfinished

theorem InOrder.keeps_step {p : Pool ι OauthStmt OauthDb Reply}
    (horder : InOrder sha256_hex s₀ calls p) (i : ι) :
    Keeps p.store.oauth_tokens (p.step i).store.oauth_tokens := by
  obtain ⟨hstep, _⟩ | ⟨_, _, _, _, _, _, hstep⟩ | ⟨l, ready, write, next, htask, hready, hstep⟩ :=
    p.step_cases i
  · rw [hstep]
    exact .refl _
  · rw [hstep]
    exact .refl _
  · rw [hstep]
    obtain ⟨φ, hguar⟩ := Pool.Sound.guar (fun _ _ => Keeps.refl _) horder htask hready
    exact hguar.keeps

theorem InOrder.keeps_run {p : Pool ι OauthStmt OauthDb Reply}
    (horder : InOrder sha256_hex s₀ calls p) {sched : List ι}
    (hlive : p.Along (Pool.Respects updateFindsLive) sched) :
    Keeps p.store.oauth_tokens (p.run sched).store.oauth_tokens := by
  induction sched generalizing p with
  | nil => exact .refl _
  | cons i sched ih =>
    exact (horder.keeps_step i).trans (ih (horder.step hlive.1) hlive.2)

/-- Rotation and reuse detection keep their promises along every run whose
turns meet the condition. -/
theorem rotation_safe (sha256_hex : String → String) (s : OauthDb) (calls : ι → Call)
    (sched : List ι) (hturn : (start sha256_hex s calls).Along InTurn sched) :
    RotationSafe sha256_hex s calls sched := by
  have hstart : InOrder sha256_hex s calls (start sha256_hex s calls) := start_inOrder
  have hlive := hturn.mono fun _ _ h => h.1
  obtain ⟨φ, ⟨hspent, hone⟩, hpost⟩ := (hstart.run hlive).post fun _ _ => Keeps.refl _
  refine ⟨?_, ?_, ?_⟩
  · intro i j t a b hi hj ha hb hexa hexb
    obtain ⟨t', ht', f, id, hφi, r, hr, hid, hhash⟩ := hpost i a ha hexa
    obtain ⟨t'', ht'', f', id', hφj, r', hr', hid', hhash'⟩ := hpost j b hb hexb
    obtain rfl : t' = t := Option.some.inj (ht'.symm.trans hi)
    obtain rfl : t'' = t' := Option.some.inj (ht''.symm.trans hj)
    obtain rfl : r = r' := eq_of_refresh_hash hr hr' hhash hhash'
    refine hspent.one i j r.id ?_ ?_
    · simp [hφi, Phase.spent, hid]
    · simp [hφj, Phase.spent, hid']
  · intro f hf _ r r' hr hr'
    exact (hone f hf).live r r' hr hr'
  · intro before mid after i f hsched hnotyet hrevoked hunfinished hfinished r hr hfamily r' hr' hid
    subst hsched
    rw [Pool.along_append] at hturn hlive
    obtain ⟨hbefore, hi, hrest⟩ := hturn
    have htask : ((start sha256_hex s calls).run before).task i = (calls i).task sha256_hex :=
      Pool.run_task_of_notMem _ hnotyet
    have horder := hstart.run (hbefore.mono fun _ _ h => h.1)
    obtain ⟨k, hk, hbegun⟩ := reuse_begins htask hrevoked
    rw [Pool.along_append] at hrest
    obtain ⟨hmid, hlast, hafter⟩ := hrest
    have hnext := horder.step hi.1
    simp only [Pool.run_append, Pool.run_cons, Pool.run_nil] at hunfinished hfinished hr hr'
    have hsweep : Sweep f k (((start sha256_hex s calls).run before).step i).store
        ((((start sha256_hex s calls).run before).step i).task i) := by
      rw [hbegun]
      exact .list
    obtain hdone | hsweeping := sweep_run hk hnext hmid hsweep
    · simp [hunfinished] at hdone
    have hnone := sweep_completes hk hsweeping hunfinished hfinished
    have hrevokedAt : r.revoked = true := by
      cases hrev : r.revoked with
      | true => rfl
      | false => exact absurd ⟨hr, hfamily, hrev⟩ (hnone r)
    have hend := (hnext.run (hmid.mono fun _ _ h => h.1)).step hlast.1
    exact (hend.keeps_run (hafter.mono fun _ _ h => h.1)).revoked hr hr' hid hrevokedAt

end Runs

section Samples

/-- SHA-256 of the plaintexts below. -/
def sampleDigests : List (String × String) :=
  [("kP2sVx9RqTn4WcLz7HbYf1JmEoUg6DaSi0KrNw8XvC3",
    "4aa7f683e2a03b608c6e48490e19bad8fbd5437d8eca16ad350daa31ebbc17da"),
   ("w8ZbTq3LxYk6RnPv1MdHs5GcJfUo9EaI2iKrCw0NVz7",
    "d46b3d752941db891c6d488aea63f60311c80db080b8754fdb5e402c85beded3"),
   ("h3XpLk8BvQm2TzRy6WcDn9SfGjUo5EaI1iKsCw4NZx0",
    "d0059273eaeae7784e1f6b331dd7c0dccadef9328717578b6d26b273230380c9"),
   ("c7MnVq5HxTk1LbPz4RdYs8GwJfUo2EaI6iKtCv9NXr3",
    "b6dc31d4cacc5e8d7ab6f4c145edaa071125b73f472bfcb5d12f9d8ee3c9735d"),
   ("e9RtKp4ZvWm7XcLy1BqDn3SfHjUo8EaI5iGsCw2NTx6",
    "776e9fb277ff6fc190179e3b36fc9c298e55074fd790ac23cd59f3b71222f982"),
   ("y5JqWk2PxVm9RbTz8LdNs4GcHfUo3EaI7iKrCv6NXt1",
    "3bb0287d7b1337de9f7416b589fe1207c5fac985dae43064cb6346ed606529bb")]

def sampleSha (s : String) : String := (sampleDigests.lookup s).getD ""

/-- The first pair of family 5, issued at time 0. -/
def firstRow : Model where
  id := 1
  access_token_hash := sampleSha "kP2sVx9RqTn4WcLz7HbYf1JmEoUg6DaSi0KrNw8XvC3"
  refresh_token_hash := some (sampleSha "w8ZbTq3LxYk6RnPv1MdHs5GcJfUo9EaI2iKrCw0NVz7")
  client_id := 7
  user_id := 8
  family_id := 5
  scope := some "mcp"
  resource := none
  revoked := false
  access_expires_at := 3600000000
  refresh_expires_at := some 2592000000000
  created_at := 0

/-- The pair that replaced it. -/
def secondRow : Model :=
  { firstRow with
    id := 2
    access_token_hash := sampleSha "h3XpLk8BvQm2TzRy6WcDn9SfGjUo5EaI1iKsCw4NZx0"
    refresh_token_hash := some (sampleSha "c7MnVq5HxTk1LbPz4RdYs8GwJfUo2EaI6iKtCv9NXr3") }

def sampleDb (rows : Tokens) : OauthDb where
  oauth_codes := .empty
  oauth_tokens := rows
  next_id := rows.rows.length + 1
  now := 1000000
  db_now := 1000000

/-- A family with its first pair only. -/
def issuedDb : OauthDb := sampleDb (.single firstRow)

/-- A family that rotated once. -/
def rotatedDb : OauthDb := sampleDb ⟨[firstRow.revoke, secondRow], by decide⟩

def firstDraws : Draws :=
  ⟨"h3XpLk8BvQm2TzRy6WcDn9SfGjUo5EaI1iKsCw4NZx0", "c7MnVq5HxTk1LbPz4RdYs8GwJfUo2EaI6iKtCv9NXr3", 0⟩

def secondDraws : Draws :=
  ⟨"e9RtKp4ZvWm7XcLy1BqDn3SfHjUo8EaI5iGsCw2NTx6", "y5JqWk2PxVm9RbTz8LdNs4GcHfUo3EaI7iKrCv6NXt1", 0⟩

/-- The same refresh token presented twice. -/
def replayed : Fin 2 → Call
  | 0 => .rotate "w8ZbTq3LxYk6RnPv1MdHs5GcJfUo9EaI2iKrCw0NVz7" firstDraws
  | 1 => .rotate "w8ZbTq3LxYk6RnPv1MdHs5GcJfUo9EaI2iKrCw0NVz7" secondDraws

/-- The current refresh token, and the one it replaced. -/
def overtaking : Fin 2 → Call
  | 0 => .rotate "c7MnVq5HxTk1LbPz4RdYs8GwJfUo2EaI6iKtCv9NXr3" secondDraws
  | 1 => .rotate "w8ZbTq3LxYk6RnPv1MdHs5GcJfUo9EaI2iKrCw0NVz7" firstDraws

/-- A rotation, and afterwards a replay of the token it spent: the replay
revokes the pair that was issued. -/
theorem rotation_safe_replay :
    (start sampleSha issuedDb replayed).Along InTurn [0, 0, 0, 0, 0, 1, 1, 1] ∧
      ((start sampleSha issuedDb replayed).run [0, 0, 0, 0, 0, 1, 1, 1]).store.oauth_tokens.rows.map
        (·.revoked) = [true, true] ∧
      RotationSafe sampleSha issuedDb replayed [0, 0, 0, 0, 0, 1, 1, 1] := by
  have hturn : (start sampleSha issuedDb replayed).Along InTurn [0, 0, 0, 0, 0, 1, 1, 1] := by decide
  exact ⟨hturn, by decide, rotation_safe sampleSha issuedDb replayed _ hturn⟩

/-- Two rotations that both find the token live exchange it twice; and a pair
issued between a family revocation's list and its updates survives it. -/
theorem rotation_unsafe_when_interleaved :
    ¬ RotationSafe sampleSha issuedDb replayed [0, 1, 0, 1, 0, 1, 0, 0, 1, 1] ∧
      ¬ RotationSafe sampleSha rotatedDb overtaking [0, 0, 1, 1, 0, 0, 0, 1] := by
  constructor
  · intro h
    have hsame : (0 : Fin 2) = 1 := h.exchanged_once 0 1
      "w8ZbTq3LxYk6RnPv1MdHs5GcJfUo9EaI2iKrCw0NVz7" _ _ rfl rfl rfl rfl rfl rfl
    cases hsame
  · intro h
    have hrevoked := h.reuse [0, 0] [1, 0, 0, 0] [] 1 5 rfl (by decide)
      ⟨"w8ZbTq3LxYk6RnPv1MdHs5GcJfUo9EaI2iKrCw0NVz7", rfl, firstRow.revoke, by decide, rfl, rfl, rfl⟩
      rfl rfl
    revert hrevoked
    decide

end Samples

end api2mcp.server.oauth.rotation
