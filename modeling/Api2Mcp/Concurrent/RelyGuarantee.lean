import Api2Mcp.Concurrent.Pool

namespace concurrent

/-- What is asked of one task among others. `rely` bounds what the others do
to the store, `guar` what the task's own statements do, and `post` its answer.
The phase `Φ` is auxiliary: it records which statements the task already ran. -/
structure Spec (L σ α Φ : Type) where
  rely : σ → σ → Prop
  advance : Φ → L → Φ
  guar : Φ → L → σ → σ → Prop
  post : Φ → σ → α → Prop

/-- The task meets the specification from any store the others may turn `w`
into, and so on after each of its statements. -/
inductive Task.Meets {L σ α Φ : Type} (S : Spec L σ α Φ) : Φ → σ → Task L σ α → Prop
  | done {φ : Φ} {w : σ} {a : α} : (∀ s, S.rely w s → S.post φ s a) → Meets S φ w (.done a)
  | stmt {φ : Φ} {w : σ} {l : L} {ready : σ → Bool} {write : σ → σ} {next : σ → Task L σ α} :
      (∀ s, S.rely w s → ready s = true → S.guar φ l s (write s)) →
      (∀ s, S.rely w s → ready s = true → Meets S (S.advance φ l) (write s) (next s)) →
      Meets S φ w (.stmt l ready write next)

namespace Task

variable {L σ α β Φ : Type}

/-- What holds whatever the others do from `w` holds from any store they make of it. -/
theorem Meets.mono {S : Spec L σ α Φ} (htrans : ∀ {a b c}, S.rely a b → S.rely b c → S.rely a c)
    {φ : Φ} {w w' : σ} {t : Task L σ α} (h : Meets S φ w t) (hrely : S.rely w w') :
    Meets S φ w' t := by
  cases h with
  | done hpost => exact .done fun s hs => hpost s (htrans hrely hs)
  | stmt hguar hnext =>
    exact .stmt (fun s hs => hguar s (htrans hrely hs)) fun s hs => hnext s (htrans hrely hs)

/-- A task of which every statement keeps to the guarantee, whatever it finds. -/
theorem Meets.of_all {S : Spec L σ α Φ} (hpost : ∀ φ s a, S.post φ s a) {P : L → (σ → σ) → Prop}
    (hguar : ∀ φ l write, P l write → ∀ s, S.guar φ l s (write s)) {φ : Φ} {w : σ} {t : Task L σ α}
    (ht : t.All P) : Meets S φ w t := by
  induction ht generalizing φ w with
  | done a => exact .done fun s _ => hpost φ s a
  | stmt hp _ ih => exact .stmt (fun s _ _ => hguar _ _ _ hp s) fun s _ _ => ih s

theorem Meets.post {S : Spec L σ α Φ} (hrefl : ∀ s, S.rely s s) {φ : Φ} {w : σ} {a : α}
    (h : Meets S φ w (.done a)) : S.post φ w a := by
  cases h with
  | done hpost => exact hpost w (hrefl w)

/-- Sequencing: what the first part answers is what the second part starts from. -/
theorem Meets.bind {rely : σ → σ → Prop} {advance : Φ → L → Φ} {guar : Φ → L → σ → σ → Prop}
    {mid : Φ → σ → α → Prop} {post : Φ → σ → β → Prop} (hrefl : ∀ s, rely s s)
    {φ : Φ} {w : σ} {t : Task L σ α} {f : α → Task L σ β}
    (ht : Meets ⟨rely, advance, guar, mid⟩ φ w t)
    (hf : ∀ φ w a, mid φ w a → Meets ⟨rely, advance, guar, post⟩ φ w (f a)) :
    Meets ⟨rely, advance, guar, post⟩ φ w (t >>= f) := by
  induction ht with
  | done hpost => exact hf _ _ _ (hpost _ (hrefl _))
  | stmt hguar _ ih => exact .stmt hguar fun s hs hready => ih s hs hready

end Task

namespace Pool

variable {ι L σ α Φ : Type} [DecidableEq ι]

/-- A condition on the statement whose turn it is, the store it finds and
whose statement it is. -/
def Respects (cond : ι → σ → L → Prop) (p : Pool ι L σ α) (i : ι) : Prop :=
  ∀ l, (p.task i).label? = some l → cond i p.store l

instance (cond : ι → σ → L → Prop) [∀ i s l, Decidable (cond i s l)] (p : Pool ι L σ α) (i : ι) :
    Decidable (p.Respects cond i) :=
  match hlabel : (p.task i).label? with
  | none => isTrue fun l h => by simp [hlabel] at h
  | some l => decidable_of_iff (cond i p.store l) (by simp [Respects, hlabel])

/-- Every task meets its specification in the phase it is in, and the phases
and the store satisfy the auxiliary invariant. -/
def Sound (S : ι → Spec L σ α Φ) (J : (ι → Φ) → σ → Prop) (p : Pool ι L σ α) : Prop :=
  ∃ φ : ι → Φ, (∀ i, (p.task i).Meets (S i) (φ i) p.store) ∧ J φ p.store

section Rule

variable {S : ι → Spec L σ α Φ} {J : (ι → Φ) → σ → Prop} {cond : ι → σ → L → Prop}
  (hrefl : ∀ i s, (S i).rely s s)
  (htrans : ∀ i {a b c}, (S i).rely a b → (S i).rely b c → (S i).rely a c)
  (hguar : ∀ i j φ l s s', (S i).guar φ l s s' → (S j).rely s s')
  (hJ : ∀ φ s i l s', J φ s → cond i s l → (S i).guar (φ i) l s s' →
    J (Function.update φ i ((S i).advance (φ i) l)) s')
include hrefl htrans hguar hJ

/-- The step lemma: the statement that runs moves its own task to the next
phase, and is a store change every other task relies on. -/
theorem Sound.step {p : Pool ι L σ α} (hsound : p.Sound S J) {i : ι} (hcond : p.Respects cond i) :
    (p.step i).Sound S J := by
  refine step_inv hsound fun l ready write next htask hready => ?_
  obtain ⟨φ, hmeets, hj⟩ := hsound
  have hi := hmeets i
  rw [htask] at hi
  cases hi with
  | stmt hg hn =>
    have hown := hg p.store (hrefl i _) hready
    have hnext := hn p.store (hrefl i _) hready
    refine ⟨Function.update φ i ((S i).advance (φ i) l), fun j => ?_, ?_⟩
    · by_cases hij : j = i
      · subst hij
        simpa using hnext
      · simpa [hij] using (hmeets j).mono (htrans j) (hguar i j _ _ _ _ hown)
    · exact hJ φ p.store i l _ hj (hcond l (by simp [htask])) hown

/-- The run lemma: a schedule whose turns all meet the condition keeps every
task within its specification. -/
theorem Sound.run {p : Pool ι L σ α} (hsound : p.Sound S J) {sched : List ι}
    (hcond : p.Along (Respects cond) sched) : (p.run sched).Sound S J :=
  hcond.inv (fun _ _ hs hc => hs.step hrefl htrans hguar hJ hc) hsound

end Rule

omit [DecidableEq ι] in
/-- The statement whose turn it is does what its specification guarantees. -/
theorem Sound.guar {S : ι → Spec L σ α Φ} {J : (ι → Φ) → σ → Prop} (hrefl : ∀ i s, (S i).rely s s)
    {p : Pool ι L σ α} (hsound : p.Sound S J) {i : ι} {l : L} {ready : σ → Bool} {write : σ → σ}
    {next : σ → Task L σ α} (htask : p.task i = .stmt l ready write next)
    (hready : ready p.store = true) : ∃ φ, (S i).guar φ l p.store (write p.store) := by
  obtain ⟨φ, hmeets, _⟩ := hsound
  have hi := hmeets i
  rw [htask] at hi
  cases hi with
  | stmt hg _ => exact ⟨φ i, hg p.store (hrefl i _) hready⟩

/-- A turn changes nothing, or it runs a statement that does what its task's
specification guarantees in the phase the task is in. -/
theorem Sound.turn {S : ι → Spec L σ α Φ} {J : (ι → Φ) → σ → Prop} (hrefl : ∀ i s, (S i).rely s s)
    {p : Pool ι L σ α} (hsound : p.Sound S J) (i : ι) :
    (p.step i).store = p.store ∨
      ∃ φ l, J φ p.store ∧ (p.task i).label? = some l ∧ (p.task i).result? = none ∧
        (∀ j a, (p.task j).result? = some a → (S j).post (φ j) p.store a) ∧
        (S i).guar (φ i) l p.store (p.step i).store := by
  obtain ⟨hstep, _⟩ | ⟨_, _, _, _, _, _, hstep⟩ | ⟨l, ready, write, next, htask, hready, hstep⟩ :=
    p.step_cases i
  · exact .inl (by rw [hstep])
  · exact .inl (by rw [hstep])
  obtain ⟨φ, hmeets, hj⟩ := hsound
  have hi := hmeets i
  rw [htask] at hi
  cases hi with
  | stmt hguar _ =>
    refine .inr ⟨φ, l, hj, by rw [htask, Task.label?_stmt], by rw [htask, Task.result?_stmt],
      fun j a hdone => ?_, ?_⟩
    · have hmeets := hmeets j
      rw [Task.result?_eq_some.mp hdone] at hmeets
      exact hmeets.post (hrefl j)
    · rw [hstep]
      exact hguar p.store (hrefl i _) hready

omit [DecidableEq ι] in
/-- A task that answered did so in a phase and a store its specification allows. -/
theorem Sound.post {S : ι → Spec L σ α Φ} {J : (ι → Φ) → σ → Prop} (hrefl : ∀ i s, (S i).rely s s)
    {p : Pool ι L σ α} (hsound : p.Sound S J) :
    ∃ φ, J φ p.store ∧ ∀ i a, (p.task i).result? = some a → (S i).post (φ i) p.store a := by
  obtain ⟨φ, hmeets, hj⟩ := hsound
  refine ⟨φ, hj, fun i a hdone => ?_⟩
  have hi := hmeets i
  cases htask : p.task i with
  | done b =>
    rw [htask] at hdone hi
    obtain rfl : b = a := by simpa using hdone
    exact hi.post (hrefl i)
  | stmt l ready write next => simp [htask] at hdone

end Pool

end concurrent
