import Api2Mcp.Concurrent.Pool
import Api2Mcp.Concurrent.Query

namespace concurrent

/-- What a task does against the stores a run goes through: `st n` is the store
after `n` turns. From time `n` to time `m` the task goes from the first to the
second, each of its statements at a turn of its own and every other turn
someone else's. -/
inductive Task.Ran {L σ α : Type} (st : Nat → σ) : Nat → Task L σ α → Nat → Task L σ α → Prop
  | idle {n m : Nat} {t : Task L σ α} : n ≤ m → Ran st n t m t
  | stmt {n k m : Nat} {l : L} {ready : σ → Bool} {write : σ → σ} {next : σ → Task L σ α}
      {t : Task L σ α} : n ≤ k → k < m → ready (st k) = true → st (k + 1) = write (st k) →
      Ran st (k + 1) (next (st k)) m t → Ran st n (.stmt l ready write next) m t

/-- What holds at a time and did not hold at first came about at a time since
when it has held. -/
theorem exists_onset {P : Nat → Prop} (hfirst : ¬ P 0) {n : Nat} (hn : P n) :
    ∃ k < n, ¬ P k ∧ ∀ i, k < i → i ≤ n → P i := by
  induction n with
  | zero => exact absurd hn hfirst
  | succ n ih =>
    by_cases hbefore : P n
    · obtain ⟨k, hk, hnot, hsince⟩ := ih hbefore
      refine ⟨k, by omega, hnot, fun i hi hle => ?_⟩
      obtain rfl | hlt := Nat.eq_or_lt_of_le hle
      · exact hn
      · exact hsince i hi (by omega)
    · refine ⟨n, Nat.lt_succ_self n, hbefore, fun i hi hle => ?_⟩
      obtain rfl : i = n + 1 := by omega
      exact hn

namespace Task

variable {L σ τ α β : Type} {st : Nat → σ} {n m : Nat}

theorem Ran.le {t t' : Task L σ α} (hran : Ran st n t m t') : n ≤ m := by
  induction hran with
  | idle hle => exact hle
  | stmt hnk hkm _ _ _ _ => omega

theorem Ran.since {n' : Nat} {t t' : Task L σ α} (hran : Ran st n t m t') (hle : n' ≤ n) :
    Ran st n' t m t' := by
  cases hran with
  | idle hnm => exact .idle (by omega)
  | stmt hnk hkm hready hwrite hnext => exact .stmt (by omega) hkm hready hwrite hnext

theorem Ran.until {m' : Nat} {t t' : Task L σ α} (hran : Ran st n t m t') (hle : m ≤ m') :
    Ran st n t m' t' := by
  induction hran with
  | idle hnm => exact .idle (by omega)
  | stmt hnk hkm hready hwrite _ ih => exact .stmt hnk (by omega) hready hwrite (ih hle)

/-- The run a task is part of may have begun earlier, and go on later. -/
theorem Ran.shift {st' : Nat → σ} {d n' m' : Nat} {t t' : Task L σ α}
    (hran : Ran st' n t m t') (hst : ∀ k ≤ m, st' k = st (d + k)) (hn : n' = d + n)
    (hm : m' = d + m) : Ran st n' t m' t' := by
  induction hran generalizing n' with
  | idle hle => exact .idle (by omega)
  | stmt hnk hkm hready hwrite _ ih =>
    rw [hst _ (by omega)] at hready
    rw [hst _ (by omega), hst _ (by omega)] at hwrite
    refine .stmt (by omega) (by omega) hready hwrite ?_
    rw [← hst _ (by omega)]
    exact ih hst (by omega) hm

@[simp] theorem ran_done {a b : α} : Ran st n (.done a : Task L σ α) m (.done b) ↔ n ≤ m ∧ a = b := by
  constructor
  · intro hran
    cases hran with
    | idle hle => exact ⟨hle, rfl⟩
  · rintro ⟨hle, rfl⟩
    exact .idle hle

/-- A task that answered ran its statement at some turn. -/
theorem ran_stmt {l : L} {ready : σ → Bool} {write : σ → σ} {next : σ → Task L σ α} {b : α} :
    Ran st n (.stmt l ready write next) m (.done b) ↔
      ∃ k, n ≤ k ∧ k < m ∧ ready (st k) = true ∧ st (k + 1) = write (st k) ∧
        Ran st (k + 1) (next (st k)) m (.done b) := by
  constructor
  · intro hran
    cases hran with
    | stmt hnk hkm hready hwrite hnext => exact ⟨_, hnk, hkm, hready, hwrite, hnext⟩
  · rintro ⟨k, hnk, hkm, hready, hwrite, hnext⟩
    exact .stmt hnk hkm hready hwrite hnext

theorem ran_read_bind {l : L} {f : σ → α} {k : α → Task L σ β} {b : β} :
    Ran st n (Task.read l f >>= k) m (.done b) ↔
      ∃ i, n ≤ i ∧ i < m ∧ st (i + 1) = st i ∧ Ran st (i + 1) (k (f (st i))) m (.done b) := by
  rw [read_bind, ran_stmt]
  simp

theorem ran_exec_bind {l : L} {f : σ → α × σ} {k : α → Task L σ β} {b : β} :
    Ran st n (exec l f >>= k) m (.done b) ↔
      ∃ i, n ≤ i ∧ i < m ∧ st (i + 1) = (f (st i)).2 ∧
        Ran st (i + 1) (k (f (st i)).1) m (.done b) := by
  rw [exec_bind, ran_stmt]
  simp

theorem ran_exec {l : L} {f : σ → α × σ} {b : α} :
    Ran st n (exec l f) m (.done b) ↔
      ∃ i, n ≤ i ∧ i < m ∧ st (i + 1) = (f (st i)).2 ∧ (f (st i)).1 = b := by
  rw [← bind_done (exec l f), ran_exec_bind]
  simp only [ran_done]
  constructor
  · rintro ⟨i, hni, him, hwrite, _, hb⟩
    exact ⟨i, hni, him, hwrite, hb⟩
  · rintro ⟨i, hni, him, hwrite, hb⟩
    exact ⟨i, hni, him, hwrite, him, hb⟩

/-- The first part of a sequence answered before the second began. -/
theorem Ran.bind {t : Task L σ α} {f : α → Task L σ β} {b : β}
    (hran : Ran st n (t >>= f) m (.done b)) :
    ∃ k a, Ran st n t k (.done a) ∧ Ran st k (f a) m (.done b) := by
  induction t generalizing n with
  | done a => exact ⟨n, a, .idle (Nat.le_refl n), hran⟩
  | stmt l ready write next ih =>
    obtain ⟨k, hnk, hkm, hready, hwrite, hnext⟩ := ran_stmt.mp hran
    obtain ⟨k', a, hfirst, hsecond⟩ := ih _ hnext
    have hle := hfirst.le
    exact ⟨k', a, .stmt hnk (by omega) hready hwrite hfirst, hsecond⟩

/-- What is left of a task has no other statements than the task. -/
theorem All.ran {P : L → (σ → σ) → Prop} {t t' : Task L σ α} (ht : t.All P)
    (hran : Ran st n t m t') : t'.All P := by
  induction hran with
  | idle _ => exact ht
  | stmt _ _ _ _ _ ih =>
    cases ht with
    | stmt _ hnext => exact ih (hnext _)

/-- A task that stands before a later statement ran its first one. -/
theorem Ran.stmt_to {l l' : L} {ready ready' : σ → Bool} {write write' : σ → σ}
    {next next' : σ → Task L σ α} (hne : l' ≠ l)
    (hran : Ran st n (.stmt l' ready' write' next') m (.stmt l ready write next)) :
    ∃ k, n ≤ k ∧ k < m ∧ st (k + 1) = write' (st k) ∧
      Ran st (k + 1) (next' (st k)) m (.stmt l ready write next) := by
  cases hran with
  | idle _ => exact absurd rfl hne
  | stmt hnk hkm _ hwrite hnext => exact ⟨_, hnk, hkm, hwrite, hnext⟩

/-- A sequence that stands before a statement the first part does not have is
past that part. -/
theorem Ran.bind_to {t : Task L σ α} {f : α → Task L σ β} {l : L} {ready : σ → Bool}
    {write : σ → σ} {next : σ → Task L σ β} (hall : t.All fun l' _ => l' ≠ l)
    (hran : Ran st n (t >>= f) m (.stmt l ready write next)) :
    ∃ k a, Ran st n t k (.done a) ∧ Ran st k (f a) m (.stmt l ready write next) := by
  induction hall generalizing n with
  | done a => exact ⟨n, a, .idle (Nat.le_refl n), hran⟩
  | stmt hne _ ih =>
    cases hran with
    | idle _ => exact absurd rfl hne
    | stmt hnk hkm hready hwrite hnext =>
      obtain ⟨k', a, hfirst, hsecond⟩ := ih _ hnext
      have hle := hfirst.le
      exact ⟨k', a, .stmt hnk (by omega) hready hwrite hfirst, hsecond⟩

theorem Ran.of_relabel {L' : Type} {f : L → L'} {t : Task L σ α} {a : α}
    (hran : Ran st n (t.relabel f) m (.done a)) : Ran st n t m (.done a) := by
  induction t generalizing n with
  | done b => exact ran_done.mpr (ran_done.mp hran)
  | stmt l ready write next ih =>
    obtain ⟨k, hnk, hkm, hready, hwrite, hnext⟩ := ran_stmt.mp hran
    exact .stmt hnk hkm hready hwrite (ih _ hnext)

/-- A task on a part of the store ran against that part of it. -/
theorem Ran.of_zoom {get : σ → τ} {set : σ → τ → σ} (hget : ∀ s t, get (set s t) = t) {t : Task L τ α} {a : α}
    (hran : Ran st n (t.zoom get set) m (.done a)) : Ran (fun k => get (st k)) n t m (.done a) := by
  induction t generalizing n with
  | done b => exact ran_done.mpr (ran_done.mp hran)
  | stmt l ready write next ih =>
    obtain ⟨k, hnk, hkm, hready, hwrite, hnext⟩ := ran_stmt.mp hran
    refine .stmt hnk hkm hready ?_ (ih _ hnext)
    rw [hwrite, hget]

/-- A query saw the stores of the time it took. -/
theorem Ran.query {L : Type} {label : L} {view : σ → τ} {q : Query τ α} {a : α}
    (hran : Ran st n (q.task label view) m (.done a)) :
    q.Sees (fun s => ∃ k, n ≤ k ∧ k < m ∧ view (st k) = s) a := by
  induction q generalizing n with
  | done b =>
    obtain ⟨_, rfl⟩ := ran_done.mp hran
    exact .done b
  | read next ih =>
    obtain ⟨k, hnk, hkm, _, _, hnext⟩ := ran_stmt.mp hran
    refine .read ⟨k, hnk, hkm, rfl⟩ ((ih _ hnext).mono ?_)
    rintro s ⟨k', hk', hm', hview⟩
    exact ⟨k', by omega, hm', hview⟩

end Task

namespace Pool

variable {ι L σ α : Type} [DecidableEq ι]

/-- The store after the first `n` turns of a schedule. -/
def stores (p : Pool ι L σ α) (sched : List ι) (n : Nat) : σ := (p.run (sched.take n)).store

@[simp] theorem stores_zero (p : Pool ι L σ α) (sched : List ι) : p.stores sched 0 = p.store := rfl

theorem stores_succ (p : Pool ι L σ α) (i : ι) (sched : List ι) (n : Nat) :
    p.stores (i :: sched) (n + 1) = (p.step i).stores sched n := rfl

theorem stores_append (p : Pool ι L σ α) (before after : List ι) (n : Nat) :
    p.stores (before ++ after) (before.length + n) = (p.run before).stores after n := by
  rw [stores, stores, List.take_length_add_append, run_append]

theorem stores_run (p : Pool ι L σ α) (sched : List ι) :
    p.stores sched sched.length = (p.run sched).store := by
  rw [stores, List.take_length]

/-- Every call of a run ran against its stores. -/
theorem ran (p : Pool ι L σ α) (sched : List ι) (j : ι) :
    Task.Ran (p.stores sched) 0 (p.task j) sched.length ((p.run sched).task j) := by
  induction sched generalizing p with
  | nil => exact .idle (Nat.le_refl 0)
  | cons i sched ih =>
    have hrest : Task.Ran (p.stores (i :: sched)) 1 ((p.step i).task j) (sched.length + 1)
        ((p.run (i :: sched)).task j) := by
      refine (ih (p.step i)).shift (fun k _ => ?_) rfl (Nat.add_comm _ _)
      rw [Nat.add_comm, stores_succ]
    by_cases hij : j = i
    · subst hij
      obtain ⟨hstep, _⟩ | ⟨_, _, _, _, _, _, hstep⟩ | ⟨l, ready, write, next, htask, hready, hstep⟩ :=
        p.step_cases j
      · rw [hstep] at hrest
        exact hrest.since (Nat.zero_le 1)
      · rw [hstep] at hrest
        exact hrest.since (Nat.zero_le 1)
      · rw [htask]
        rw [step_task_of_ready htask hready] at hrest
        refine .stmt (Nat.le_refl 0) (Nat.succ_pos _) hready ?_ hrest
        rw [stores_succ, stores_zero, hstep]
        rfl
    · rw [p.step_task_of_ne hij] at hrest
      exact hrest.since (Nat.zero_le 1)

/-- Between any two times of a run. -/
theorem ran_between (p : Pool ι L σ α) (sched : List ι) (j : ι) {n m : Nat} (hnm : n ≤ m)
    (hm : m ≤ sched.length) :
    Task.Ran (p.stores sched) n ((p.run (sched.take n)).task j) m ((p.run (sched.take m)).task j) := by
  have hsplit : sched.take m = sched.take n ++ (sched.drop n).take (m - n) := by
    rw [← List.take_add, Nat.add_sub_cancel' hnm]
  have hran := (p.run (sched.take n)).ran ((sched.drop n).take (m - n)) j
  rw [← run_append, ← hsplit] at hran
  have hlen : ((sched.drop n).take (m - n)).length = m - n := by
    rw [List.length_take, List.length_drop]
    omega
  refine hran.shift (fun k hk => ?_) (Nat.add_zero n).symm (by omega)
  rw [stores, stores, List.take_take, ← run_append, ← List.take_add]
  congr 3
  omega

/-- A call that had no turn among the first `n` began after them. -/
theorem ran_since (p : Pool ι L σ α) (sched : List ι) {j : ι} {n : Nat} (hn : n ≤ sched.length)
    (hj : j ∉ sched.take n) :
    Task.Ran (p.stores sched) n (p.task j) sched.length ((p.run sched).task j) := by
  have hran := p.ran_between sched j hn (Nat.le_refl _)
  rwa [p.run_task_of_notMem hj, List.take_length] at hran

theorem stores_step (p : Pool ι L σ α) (sched : List ι) {n : Nat} (hn : n < sched.length) :
    p.stores sched (n + 1) = ((p.run (sched.take n)).step sched[n]).store := by
  rw [stores, List.take_succ_eq_append_getElem hn, run_append]
  rfl

/-- The store is another one only after a turn of a call that ran a statement. -/
theorem stores_turn (p : Pool ι L σ α) (sched : List ι) {n : Nat} (hn : n < sched.length) :
    p.stores sched (n + 1) = p.stores sched n ∨
      ∃ l ready write next, Task.Ran (p.stores sched) 0 (p.task sched[n]) n (.stmt l ready write next) ∧
        p.stores sched (n + 1) = write (p.stores sched n) := by
  have hran := p.ran_between sched sched[n] (Nat.zero_le n) (Nat.le_of_lt hn)
  rw [p.stores_step sched hn]
  obtain ⟨hstep, -⟩ | ⟨-, -, -, -, -, -, hstep⟩ | ⟨l, ready, write, next, htask, -, hstep⟩ :=
    (p.run (sched.take n)).step_cases sched[n]
  · exact .inl (by rw [hstep]; rfl)
  · exact .inl (by rw [hstep]; rfl)
  · rw [htask] at hran
    exact .inr ⟨l, ready, write, next, hran, by rw [hstep]; rfl⟩

/-- A turn of a call that has returned leaves the store as it is. -/
theorem stores_of_done (p : Pool ι L σ α) (sched : List ι) {i : ι} {a : α} {k n : Nat}
    (hdone : ((p.run (sched.take k)).task i).result? = some a) (hkn : k ≤ n) (hturn : sched[n]? = some i) :
    p.stores sched (n + 1) = p.stores sched n := by
  obtain ⟨hn, hgot⟩ := List.getElem?_eq_some_iff.mp hturn
  have hstill : ((p.run (sched.take n)).task i).result? = some a := by
    have hsplit : sched.take n = sched.take k ++ (sched.drop k).take (n - k) := by
      rw [← List.take_add, Nat.add_sub_cancel' hkn]
    rw [hsplit, run_append]
    exact result?_run hdone _
  rw [p.stores_step sched hn, hgot, step_of_done (Task.result?_eq_some.mp hstill)]
  rfl

/-- What every turn keeps, and what it does to the store given that, the run
keeps and does. -/
theorem Along.stores {ok : Pool ι L σ α → ι → Prop} {Inv : Pool ι L σ α → Prop} (R : σ → σ → Prop)
    (hrefl : ∀ s, R s s) (htrans : ∀ {a b c}, R a b → R b c → R a c)
    (hstep : ∀ p i, Inv p → ok p i → Inv (p.step i) ∧ R p.store (p.step i).store)
    {p : Pool ι L σ α} {sched : List ι} (halong : p.Along ok sched) (hinv : Inv p) {n m : Nat}
    (hle : n ≤ m) : R (p.stores sched n) (p.stores sched m) := by
  induction sched generalizing p n m with
  | nil =>
    rw [Pool.stores, Pool.stores, List.take_nil, List.take_nil]
    exact hrefl _
  | cons i sched ih =>
    obtain ⟨hinv', hfirst⟩ := hstep p i hinv halong.1
    cases m with
    | zero =>
      obtain rfl := Nat.le_zero.mp hle
      exact hrefl _
    | succ m =>
      cases n with
      | zero => exact htrans hfirst (ih halong.2 hinv' (Nat.zero_le m))
      | succ n => exact ih halong.2 hinv' (Nat.le_of_succ_le_succ hle)

/-- Each statement of each call keeps to `R`. -/
def Steps (R : σ → σ → Prop) (p : Pool ι L σ α) : Prop :=
  ∀ i, (p.task i).All fun _ write => ∀ s, R s (write s)

theorem Steps.step {R : σ → σ → Prop} (hrefl : ∀ s, R s s) {p : Pool ι L σ α} (hsteps : p.Steps R)
    (i : ι) : R p.store (p.step i).store ∧ (p.step i).Steps R := by
  obtain ⟨hstep, _⟩ | ⟨_, _, _, _, _, _, hstep⟩ | ⟨l, ready, write, next, htask, hready, hstep⟩ :=
    p.step_cases i
  · rw [hstep]
    exact ⟨hrefl _, hsteps⟩
  · rw [hstep]
    exact ⟨hrefl _, hsteps⟩
  · have hi := hsteps i
    rw [htask] at hi
    cases hi with
    | stmt hwrite hnext =>
      rw [hstep]
      refine ⟨hwrite _, fun j => ?_⟩
      by_cases hij : j = i
      · subst hij
        simpa using hnext p.store
      · simpa [hij] using hsteps j

/-- What every statement of every call keeps to, the run keeps to. -/
theorem Steps.stores {R : σ → σ → Prop} (hrefl : ∀ s, R s s)
    (htrans : ∀ {a b c}, R a b → R b c → R a c) {p : Pool ι L σ α} (hsteps : p.Steps R)
    (sched : List ι) {n m : Nat} (hle : n ≤ m) : R (p.stores sched n) (p.stores sched m) :=
  (p.along_true sched).stores R hrefl htrans (fun _ i h _ => (h.step hrefl i).symm) hsteps hle

end Pool

end concurrent
