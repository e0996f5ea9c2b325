import Mathlib.Logic.Function.Basic

namespace concurrent

/-- A sequential program whose only contact with a shared store `σ` is a
sequence of labelled atomic statements. A statement waits until the store is
`ready` for it; it then sees the store as it is, leaves `write` of it behind
and continues with what it saw. -/
inductive Task (L σ α : Type) where
  | done (result : α)
  | stmt (label : L) (ready : σ → Bool) (write : σ → σ) (next : σ → Task L σ α)

namespace Task

variable {L σ α β γ : Type}

def bind : Task L σ α → (α → Task L σ β) → Task L σ β
  | done a, f => f a
  | stmt l ready write next, f => stmt l ready write fun s => (next s).bind f

instance : Monad (Task L σ) where
  pure := done
  bind := bind

@[simp] theorem pure_eq (a : α) : (pure a : Task L σ α) = done a := rfl

@[simp] theorem done_bind (a : α) (f : α → Task L σ β) : (done a >>= f) = f a := rfl

@[simp] theorem stmt_bind (l : L) (ready : σ → Bool) (write : σ → σ) (next : σ → Task L σ α)
    (f : α → Task L σ β) :
    (stmt l ready write next >>= f) = stmt l ready write fun s => next s >>= f := rfl

theorem bind_done (t : Task L σ α) : t >>= done = t := by
  induction t with
  | done a => rfl
  | stmt l ready write next ih => simp only [stmt_bind, ih]

theorem bind_assoc (t : Task L σ α) (f : α → Task L σ β) (g : β → Task L σ γ) :
    t >>= f >>= g = t >>= fun a => f a >>= g := by
  induction t with
  | done a => rfl
  | stmt l ready write next ih => simp only [stmt_bind, ih]

instance : LawfulMonad (Task L σ) :=
  LawfulMonad.mk' (Task L σ) bind_done (fun _ _ => rfl) bind_assoc

/-- A statement that is always ready, answers from the store and changes it. -/
def exec (label : L) (f : σ → α × σ) : Task L σ α :=
  stmt label (fun _ => true) (fun s => (f s).2) fun s => done (f s).1

/-- A statement that only reads. -/
def read (label : L) (f : σ → α) : Task L σ α :=
  stmt label (fun _ => true) id fun s => done (f s)

/-- A statement that blocks until the store is ready for it. -/
def await (label : L) (ready : σ → Bool) (f : σ → α × σ) : Task L σ α :=
  stmt label ready (fun s => (f s).2) fun s => done (f s).1

@[simp] theorem exec_bind (label : L) (f : σ → α × σ) (k : α → Task L σ β) :
    (exec label f >>= k) =
      stmt label (fun _ => true) (fun s => (f s).2) fun s => k (f s).1 := rfl

@[simp] theorem read_bind (label : L) (f : σ → α) (k : α → Task L σ β) :
    (read label f >>= k) = stmt label (fun _ => true) id fun s => k (f s) := rfl

@[simp] theorem await_bind (label : L) (ready : σ → Bool) (f : σ → α × σ) (k : α → Task L σ β) :
    (await label ready f >>= k) = stmt label ready (fun s => (f s).2) fun s => k (f s).1 := rfl

/-- The answer of a finished task. -/
def result? : Task L σ α → Option α
  | done a => some a
  | stmt .. => none

/-- The statement a task runs next. -/
def label? : Task L σ α → Option L
  | done _ => none
  | stmt l .. => some l

@[simp] theorem result?_done (a : α) : (done a : Task L σ α).result? = some a := rfl

@[simp] theorem result?_stmt (l : L) (ready : σ → Bool) (write : σ → σ) (next : σ → Task L σ α) :
    (stmt l ready write next).result? = none := rfl

@[simp] theorem result?_eq_some {t : Task L σ α} {a : α} : t.result? = some a ↔ t = .done a := by
  cases t <;> simp

@[simp] theorem label?_done (a : α) : (done a : Task L σ α).label? = none := rfl

@[simp] theorem label?_stmt (l : L) (ready : σ → Bool) (write : σ → σ) (next : σ → Task L σ α) :
    (stmt l ready write next).label? = some l := rfl

/-- The task run alone, every statement on the store the one before it left. -/
def alone : Task L σ α → σ → α × σ
  | done a, s => (a, s)
  | stmt _ _ write next, s => (next s).alone (write s)

theorem alone_bind (t : Task L σ α) (f : α → Task L σ β) (s : σ) :
    (t >>= f).alone s = (f (t.alone s).1).alone (t.alone s).2 := by
  induction t generalizing s with
  | done a => rfl
  | stmt l ready write next ih => simp only [stmt_bind, alone, ih]

/-- Every statement of the task satisfies `P`, whatever the store shows it. -/
inductive All (P : L → (σ → σ) → Prop) : Task L σ α → Prop
  | done (a : α) : All P (done a)
  | stmt {l : L} {ready : σ → Bool} {write : σ → σ} {next : σ → Task L σ α} :
      P l write → (∀ s, All P (next s)) → All P (stmt l ready write next)

theorem all_read {P : L → (σ → σ) → Prop} {l : L} (hp : P l id) (f : σ → α) :
    (read l f).All P :=
  .stmt hp fun _ => .done _

theorem all_exec {P : L → (σ → σ) → Prop} {l : L} {f : σ → α × σ} (hp : P l fun s => (f s).2) :
    (exec l f).All P :=
  .stmt hp fun _ => .done _

theorem All.mono {P P' : L → (σ → σ) → Prop} (hP : ∀ l write, P l write → P' l write)
    {t : Task L σ α} (ht : All P t) : All P' t := by
  induction ht with
  | done a => exact .done a
  | stmt hp _ ih => exact .stmt (hP _ _ hp) ih

theorem All.bind {P : L → (σ → σ) → Prop} {t : Task L σ α} {f : α → Task L σ β}
    (ht : All P t) (hf : ∀ a, All P (f a)) : All P (t >>= f) := by
  induction ht with
  | done a => exact hf a
  | stmt hp _ ih => exact .stmt hp ih

/-- Each statement of the task, at a store that satisfies `Inv`, does what `P`
says; the others are counted on to keep `Inv`. -/
inductive Under (Inv : σ → Prop) (P : L → σ → σ → Prop) : Task L σ α → Prop
  | done (a : α) : Under Inv P (done a)
  | stmt {l : L} {ready : σ → Bool} {write : σ → σ} {next : σ → Task L σ α} :
      (∀ s, Inv s → P l s (write s)) → (∀ s, Inv s → Under Inv P (next s)) → Under Inv P (stmt l ready write next)

theorem All.under {P : L → (σ → σ) → Prop} {Inv : σ → Prop} {P' : L → σ → σ → Prop}
    (hP : ∀ l write, P l write → ∀ s, Inv s → P' l s (write s)) {t : Task L σ α} (ht : All P t) : Under Inv P' t := by
  induction ht with
  | done a => exact .done a
  | stmt hp _ ih => exact .stmt (hP _ _ hp) fun s _ => ih s

section Zoom

variable {τ : Type}

/-- The task on a store that holds the one it works on as a part. -/
def zoom (get : τ → σ) (set : τ → σ → τ) : Task L σ α → Task L τ α
  | done a => done a
  | stmt l ready write next =>
    stmt l (fun t => ready (get t)) (fun t => set t (write (get t))) fun t =>
      (next (get t)).zoom get set

theorem All.zoom {P : L → (σ → σ) → Prop} {P' : L → (τ → τ) → Prop} {get : τ → σ} {set : τ → σ → τ}
    (hP : ∀ l write, P l write → P' l fun t => set t (write (get t))) {t : Task L σ α}
    (ht : All P t) : All P' (t.zoom get set) := by
  induction ht with
  | done a => exact .done a
  | stmt hp _ ih => exact .stmt (hP _ _ hp) fun t => ih (get t)

/-- The rest of the store is left alone. -/
theorem all_zoom {ρ : Type} {get : τ → σ} {set : τ → σ → τ} (rest : τ → ρ)
    (hrest : ∀ t s, rest (set t s) = rest t) (t : Task L σ α) :
    (t.zoom get set).All fun _ write => ∀ s, rest (write s) = rest s := by
  induction t with
  | done a => exact .done a
  | stmt l ready write next ih => exact .stmt (fun s => hrest s _) fun s => ih (get s)

end Zoom

section Relabel

variable {L' : Type}

/-- The task with other labels on its statements. -/
def relabel (f : L → L') : Task L σ α → Task L' σ α
  | done a => done a
  | stmt l ready write next => stmt (f l) ready write fun s => (next s).relabel f

theorem All.relabel {P : L → (σ → σ) → Prop} {P' : L' → (σ → σ) → Prop} {f : L → L'}
    (hP : ∀ l write, P l write → P' (f l) write) {t : Task L σ α} (ht : All P t) : All P' (t.relabel f) := by
  induction ht with
  | done a => exact .done a
  | stmt hp _ ih => exact .stmt (hP _ _ hp) ih

end Relabel

end Task

end concurrent
