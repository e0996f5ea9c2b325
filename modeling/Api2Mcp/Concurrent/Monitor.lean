import Api2Mcp.Concurrent.Pool

namespace concurrent

namespace Task

variable {L σ τ α β Φ : Type}

/-- The task goes through phases: in phase `φ` a statement may do what `P` says,
which also says the phase it leads to, and it may only end where `post` holds. -/
def Phased (P : Φ → L → σ → σ → Φ → Prop) (post : Φ → α → Prop) : Task L σ α → Φ → Prop
  | done a, φ => post φ a
  | stmt l ready write next, φ =>
    ∀ s, ready s = true → ∃ φ', P φ l s (write s) φ' ∧ (next s).Phased P post φ'

variable {P : Φ → L → σ → σ → Φ → Prop}

/-- Sequencing: the second part starts in the phase the first one ends in. -/
theorem Phased.bind {mid : Φ → α → Prop} {post : Φ → β → Prop} {φ : Φ} {t : Task L σ α}
    {f : α → Task L σ β} (ht : t.Phased P mid φ) (hf : ∀ φ a, mid φ a → (f a).Phased P post φ) :
    (t >>= f).Phased P post φ := by
  induction t generalizing φ with
  | done a => exact hf φ a ht
  | stmt l ready write next ih =>
    intro s hready
    obtain ⟨φ', hp, hnext⟩ := ht s hready
    exact ⟨φ', hp, ih s hnext⟩

/-- A task on a part of the store goes through the same phases. -/
theorem Phased.zoom {P' : Φ → L → τ → τ → Φ → Prop} {post : Φ → α → Prop} {get : τ → σ}
    {set : τ → σ → τ} (hP : ∀ φ l t s φ', P φ l (get t) s φ' → P' φ l t (set t s) φ') {φ : Φ}
    {t : Task L σ α} (ht : t.Phased P post φ) : (t.zoom get set).Phased P' post φ := by
  induction t generalizing φ with
  | done a => exact ht
  | stmt l ready write next ih =>
    intro s hready
    obtain ⟨φ', hp, hnext⟩ := ht (get s) hready
    exact ⟨φ', hP _ _ _ _ _ hp, ih (get s) hnext⟩

/-- A task all of whose statements leave the phase as it is. -/
theorem All.phased {post : Φ → α → Prop} {Q : L → (σ → σ) → Prop} {φ : Φ}
    (hQ : ∀ l write, Q l write → ∀ s, P φ l s (write s) φ) (hpost : ∀ a, post φ a) {t : Task L σ α}
    (ht : t.All Q) : t.Phased P post φ := by
  induction ht with
  | done a => exact hpost a
  | stmt hq _ ih => exact fun s _ => ⟨φ, hQ _ _ hq s, ih s⟩

end Task

namespace Pool

variable {ι L σ α Φ : Type} [DecidableEq ι]

/-- Every task is in a phase of its own, and the phases agree with the store. -/
def InPhases (P : Φ → L → σ → σ → Φ → Prop) (J : (ι → Φ) → σ → Prop) (p : Pool ι L σ α) : Prop :=
  ∃ φ : ι → Φ, (∀ i, (p.task i).Phased P (fun _ _ => True) (φ i)) ∧ J φ p.store

/-- The step lemma: a turn moves its own task to the next phase. -/
theorem InPhases.step {P : Φ → L → σ → σ → Φ → Prop} {J : (ι → Φ) → σ → Prop} (R : σ → σ → Prop)
    {p : Pool ι L σ α} {i : ι} (h : p.InPhases P J) (hrefl : ∀ s, R s s)
    (hJ : ∀ φ l s' φ', J φ p.store → p.turn i = some l → P (φ i) l p.store s' φ' →
      J (Function.update φ i φ') s' ∧ R p.store s') :
    (p.step i).InPhases P J ∧ R p.store (p.step i).store := by
  obtain ⟨hstep, _⟩ | ⟨l, ready, write, next, htask, hready, hstep⟩ |
    ⟨l, ready, write, next, htask, hready, hstep⟩ := p.step_cases i
  · rw [hstep]
    exact ⟨h, hrefl _⟩
  · rw [hstep]
    exact ⟨h, hrefl _⟩
  · obtain ⟨φ, hphased, hj⟩ := h
    have hi := hphased i
    rw [htask] at hi
    obtain ⟨φ', hp, hnext⟩ := hi p.store hready
    obtain ⟨hj', hr⟩ := hJ φ l _ φ' hj (by simp [turn, htask, hready]) hp
    rw [hstep]
    refine ⟨⟨Function.update φ i φ', fun j => ?_, hj'⟩, hr⟩
    by_cases hij : j = i
    · subst hij
      simpa using hnext
    · simpa [hij] using hphased j

end Pool

end concurrent

namespace concurrent.Pool

variable {ι L σ α γ : Type} [DecidableEq ι] (observe : γ → Pool ι L σ α → ι → γ)

/-- What someone who watches the run has noted at its end, having noted `g`
before it; `observe` is what a turn adds. The run does not depend on it. -/
def watch (g : γ) (p : Pool ι L σ α) : List ι → γ
  | [] => g
  | i :: sched => watch (observe g p i) (p.step i) sched

/-- Every turn meets `ok`, a condition that may also read what was noted. -/
def AlongWatching (ok : γ → Pool ι L σ α → ι → Prop) : γ → Pool ι L σ α → List ι → Prop
  | _, _, [] => True
  | g, p, i :: sched => ok g p i ∧ AlongWatching ok (observe g p i) (p.step i) sched

variable {observe}

@[simp] theorem watch_nil (g : γ) (p : Pool ι L σ α) : p.watch observe g [] = g := rfl

@[simp] theorem watch_cons (g : γ) (p : Pool ι L σ α) (i : ι) (sched : List ι) :
    p.watch observe g (i :: sched) = (p.step i).watch observe (observe g p i) sched := rfl

theorem watch_append (g : γ) (p : Pool ι L σ α) (before after : List ι) :
    p.watch observe g (before ++ after) = (p.run before).watch observe (p.watch observe g before) after := by
  induction before generalizing g p with
  | nil => rfl
  | cons i before ih => exact ih (observe g p i) (p.step i)

/-- What one more turn adds. -/
theorem watch_take_succ (g : γ) (p : Pool ι L σ α) {sched : List ι} {n : Nat} (hn : n < sched.length) :
    p.watch observe g (sched.take (n + 1)) =
      observe (p.watch observe g (sched.take n)) (p.run (sched.take n)) sched[n] := by
  rw [List.take_succ_eq_append_getElem hn, watch_append]
  rfl

/-- The condition on a run is the condition on its parts. -/
theorem alongWatching_append {ok : γ → Pool ι L σ α → ι → Prop} {g : γ} {p : Pool ι L σ α}
    {before after : List ι} : AlongWatching observe ok g p (before ++ after) ↔
      AlongWatching observe ok g p before ∧
        AlongWatching observe ok (p.watch observe g before) (p.run before) after := by
  induction before generalizing g p with
  | nil => simp [AlongWatching]
  | cons i before ih => simp [AlongWatching, ih, and_assoc]

/-- A condition that a check on each turn, without what was noted, is enough for. -/
theorem alongWatching_of_check {ok : γ → Pool ι L σ α → ι → Prop} {check : Pool ι L σ α → ι → Bool}
    (hcheck : ∀ g p i, check p i = true → ok g p i) {p : Pool ι L σ α} {sched : List ι} (g : γ)
    (h : p.Along (fun p i => check p i = true) sched) : AlongWatching observe ok g p sched := by
  induction sched generalizing g p with
  | nil => trivial
  | cons i sched ih => exact ⟨hcheck g p i h.1, ih _ h.2⟩

/-- What every turn keeps, of the pool and of what was noted, the run keeps. -/
theorem AlongWatching.inv {ok : γ → Pool ι L σ α → ι → Prop} {Inv : γ → Pool ι L σ α → Prop}
    (hstep : ∀ g p i, Inv g p → ok g p i → Inv (observe g p i) (p.step i)) {g : γ}
    {p : Pool ι L σ α} {sched : List ι} (halong : AlongWatching observe ok g p sched)
    (hinv : Inv g p) : Inv (p.watch observe g sched) (p.run sched) := by
  induction sched generalizing g p with
  | nil => exact hinv
  | cons i sched ih => exact ih halong.2 (hstep g p i hinv halong.1)

end concurrent.Pool
