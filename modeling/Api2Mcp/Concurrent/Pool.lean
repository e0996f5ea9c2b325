import Api2Mcp.Concurrent.Task

namespace concurrent

/-- Tasks under way at the same time on one store. Nothing bounds how many:
a task that was not scheduled yet is a call that did not arrive yet. -/
structure Pool (ι L σ α : Type) where
  store : σ
  task : ι → Task L σ α

namespace Pool

variable {ι L σ α : Type} [DecidableEq ι]

/-- One scheduling decision. A finished task and a statement the store is not
ready for leave everything as it is. -/
def step (p : Pool ι L σ α) (i : ι) : Pool ι L σ α :=
  match p.task i with
  | .done _ => p
  | .stmt _ ready write next =>
    if ready p.store then ⟨write p.store, Function.update p.task i (next p.store)⟩ else p

/-- The pool after a schedule, a list of whose turn it is. -/
def run (p : Pool ι L σ α) : List ι → Pool ι L σ α
  | [] => p
  | i :: sched => (p.step i).run sched

/-- The statement that runs at a turn, if one does. -/
def turn (p : Pool ι L σ α) (i : ι) : Option L :=
  match p.task i with
  | .done _ => none
  | .stmt l ready _ _ => if ready p.store then some l else none

/-- Every turn of the schedule meets `ok`, a condition on the pool before the
turn and on whose turn it is. -/
def Along (ok : Pool ι L σ α → ι → Prop) : Pool ι L σ α → List ι → Prop
  | _, [] => True
  | p, i :: sched => ok p i ∧ Along ok (p.step i) sched

@[simp] theorem run_nil (p : Pool ι L σ α) : p.run [] = p := rfl

@[simp] theorem run_cons (p : Pool ι L σ α) (i : ι) (sched : List ι) :
    p.run (i :: sched) = (p.step i).run sched := rfl

theorem run_append (p : Pool ι L σ α) (before after : List ι) :
    p.run (before ++ after) = (p.run before).run after := by
  induction before generalizing p with
  | nil => rfl
  | cons i before ih => exact ih (p.step i)

@[simp] theorem along_nil (ok : Pool ι L σ α → ι → Prop) (p : Pool ι L σ α) : p.Along ok [] :=
  trivial

@[simp] theorem along_cons (ok : Pool ι L σ α → ι → Prop) (p : Pool ι L σ α) (i : ι)
    (sched : List ι) : p.Along ok (i :: sched) ↔ ok p i ∧ (p.step i).Along ok sched := Iff.rfl

theorem along_append (ok : Pool ι L σ α → ι → Prop) (p : Pool ι L σ α) (before after : List ι) :
    p.Along ok (before ++ after) ↔ p.Along ok before ∧ (p.run before).Along ok after := by
  induction before generalizing p with
  | nil => simp
  | cons i before ih => simp [ih, and_assoc]

theorem along_true (p : Pool ι L σ α) (sched : List ι) : p.Along (fun _ _ => True) sched := by
  induction sched generalizing p with
  | nil => trivial
  | cons i sched ih => exact ⟨trivial, ih _⟩

instance decidableAlong (ok : Pool ι L σ α → ι → Prop) [∀ p i, Decidable (ok p i)]
    (p : Pool ι L σ α) : ∀ sched, Decidable (p.Along ok sched)
  | [] => isTrue trivial
  | i :: sched =>
    have := decidableAlong ok (p.step i) sched
    inferInstanceAs (Decidable (ok p i ∧ (p.step i).Along ok sched))

/-- What a turn does: the task was finished, the store was not ready for its
statement, or the statement ran. -/
theorem step_cases (p : Pool ι L σ α) (i : ι) :
    (p.step i = p ∧ ∃ a, p.task i = .done a) ∨
    (∃ l ready write next, p.task i = .stmt l ready write next ∧ ready p.store = false ∧
      p.step i = p) ∨
    (∃ l ready write next, p.task i = .stmt l ready write next ∧ ready p.store = true ∧
      p.step i = ⟨write p.store, Function.update p.task i (next p.store)⟩) := by
  cases htask : p.task i with
  | done a => exact .inl ⟨by simp [step, htask], a, rfl⟩
  | stmt l ready write next =>
    right
    cases hready : ready p.store with
    | false => exact .inl ⟨l, ready, write, next, rfl, hready, by simp [step, htask, hready]⟩
    | true => exact .inr ⟨l, ready, write, next, rfl, hready, by simp [step, htask, hready]⟩

/-- The same, by the statement that runs. -/
theorem turn_cases (p : Pool ι L σ α) (i : ι) :
    (p.turn i = none ∧ p.step i = p) ∨
    ∃ l ready write next, p.turn i = some l ∧ p.task i = .stmt l ready write next ∧
      p.step i = ⟨write p.store, Function.update p.task i (next p.store)⟩ := by
  obtain ⟨hstep, a, htask⟩ | ⟨l, ready, write, next, htask, hready, hstep⟩ |
    ⟨l, ready, write, next, htask, hready, hstep⟩ := p.step_cases i
  · exact .inl ⟨by simp [turn, htask], hstep⟩
  · exact .inl ⟨by simp [turn, htask, hready], hstep⟩
  · exact .inr ⟨l, ready, write, next, by simp [turn, htask, hready], htask, hstep⟩

theorem step_of_done {p : Pool ι L σ α} {i : ι} {a : α} (htask : p.task i = .done a) :
    p.step i = p := by
  simp [step, htask]

theorem step_of_ready {p : Pool ι L σ α} {i : ι} {l : L} {ready : σ → Bool} {write : σ → σ}
    {next : σ → Task L σ α} (htask : p.task i = .stmt l ready write next)
    (hready : ready p.store = true) :
    p.step i = ⟨write p.store, Function.update p.task i (next p.store)⟩ := by
  simp [step, htask, hready]

theorem step_task_of_ready {p : Pool ι L σ α} {i : ι} {l : L} {ready : σ → Bool} {write : σ → σ}
    {next : σ → Task L σ α} (htask : p.task i = .stmt l ready write next)
    (hready : ready p.store = true) : (p.step i).task i = next p.store := by
  rw [step_of_ready htask hready]
  exact Function.update_self ..

theorem step_task_of_ne (p : Pool ι L σ α) {i j : ι} (hne : j ≠ i) :
    (p.step i).task j = p.task j := by
  obtain ⟨hstep, _⟩ | ⟨_, _, _, _, _, _, hstep⟩ | ⟨_, _, _, _, _, _, hstep⟩ := p.step_cases i
  · rw [hstep]
  · rw [hstep]
  · rw [hstep]
    exact Function.update_of_ne hne _ _

/-- A call that had no turn is where it started. -/
theorem run_task_of_notMem (p : Pool ι L σ α) {j : ι} {sched : List ι} (hj : j ∉ sched) :
    (p.run sched).task j = p.task j := by
  induction sched generalizing p with
  | nil => rfl
  | cons i sched ih =>
    simp only [List.mem_cons, not_or] at hj
    obtain ⟨hne, hrest⟩ := hj
    rw [run_cons, ih _ hrest, p.step_task_of_ne hne]

theorem result?_step {p : Pool ι L σ α} {i j : ι} {a : α} (hdone : (p.task j).result? = some a) :
    ((p.step i).task j).result? = some a := by
  by_cases hij : j = i
  · subst hij
    cases htask : p.task j with
    | done b => rwa [step_of_done htask]
    | stmt l ready write next => simp [htask] at hdone
  · rwa [p.step_task_of_ne hij]

/-- A call that returned stays returned. -/
theorem result?_run {p : Pool ι L σ α} {j : ι} {a : α} (hdone : (p.task j).result? = some a)
    (sched : List ι) : ((p.run sched).task j).result? = some a := by
  induction sched generalizing p with
  | nil => exact hdone
  | cons i sched ih => exact ih (result?_step hdone)

/-- A property that every turn preserves, given what holds before each turn,
holds at the end of the run. -/
theorem Along.inv {ok : Pool ι L σ α → ι → Prop} {Inv : Pool ι L σ α → Prop}
    (hstep : ∀ p i, Inv p → ok p i → Inv (p.step i)) {p : Pool ι L σ α} {sched : List ι}
    (halong : p.Along ok sched) (hinv : Inv p) : Inv (p.run sched) := by
  induction sched generalizing p with
  | nil => exact hinv
  | cons i sched ih => exact ih halong.2 (hstep p i hinv halong.1)

theorem Along.mono {ok ok' : Pool ι L σ α → ι → Prop} (hok : ∀ p i, ok p i → ok' p i)
    {p : Pool ι L σ α} {sched : List ι} (halong : p.Along ok sched) : p.Along ok' sched := by
  induction sched generalizing p with
  | nil => trivial
  | cons i sched ih => exact ⟨hok p i halong.1, ih halong.2⟩

/-- What a turn preserves, from what the one statement it runs preserves: a
finished task and a store that is not ready change nothing. -/
theorem step_inv {motive : Pool ι L σ α → Prop} {p : Pool ι L σ α} {i : ι} (hinv : motive p)
    (hstmt : ∀ l ready write next, p.task i = .stmt l ready write next → ready p.store = true →
      motive ⟨write p.store, Function.update p.task i (next p.store)⟩) : motive (p.step i) := by
  obtain ⟨hstep, _⟩ | ⟨_, _, _, _, _, _, hstep⟩ | ⟨l, ready, write, next, htask, hready, hstep⟩ :=
    p.step_cases i
  · rwa [hstep]
  · rwa [hstep]
  · rw [hstep]
    exact hstmt l ready write next htask hready

/-- The invariant holds, and every task does what is said of it under it. -/
def Under (Inv : σ → Prop) (P : ι → L → σ → σ → Prop) (p : Pool ι L σ α) : Prop :=
  Inv p.store ∧ ∀ i, (p.task i).Under Inv (P i)

section

variable {Inv : σ → Prop} {P : ι → L → σ → σ → Prop} {p : Pool ι L σ α}

theorem Under.step (hkeep : ∀ i l s s', Inv s → P i l s s' → Inv s') (h : p.Under Inv P) (i : ι) :
    (p.step i).Under Inv P := by
  obtain ⟨hinv, htasks⟩ := h
  refine step_inv (motive := fun p => p.Under Inv P) ⟨hinv, htasks⟩ fun l ready write next htask _ => ?_
  have hi := htasks i
  rw [htask] at hi
  cases hi with
  | stmt hp hnext =>
    refine ⟨hkeep i l _ _ hinv (hp _ hinv), fun j => ?_⟩
    by_cases hij : j = i
    · subst hij
      simpa using hnext _ hinv
    · simpa [hij] using htasks j

theorem Under.run (hkeep : ∀ i l s s', Inv s → P i l s s' → Inv s') (h : p.Under Inv P) (sched : List ι) :
    (p.run sched).Under Inv P := by
  induction sched generalizing p with
  | nil => exact h
  | cons i sched ih => exact ih (h.step hkeep i)

/-- A turn changes nothing, or it does what is said of the task whose turn it is. -/
theorem Under.turn (h : p.Under Inv P) (i : ι) :
    (p.step i).store = p.store ∨ ∃ l, P i l p.store (p.step i).store := by
  obtain ⟨hinv, htasks⟩ := h
  obtain ⟨hstep, _⟩ | ⟨_, _, _, _, _, _, hstep⟩ | ⟨l, ready, write, next, htask, _, hstep⟩ := p.step_cases i
  · exact .inl (by rw [hstep])
  · exact .inl (by rw [hstep])
  · have hi := htasks i
    rw [htask] at hi
    cases hi with
    | stmt hp _ => exact .inr ⟨l, by rw [hstep]; exact hp _ hinv⟩

end

end Pool

end concurrent
