import Api2Mcp.Concurrent.Task
import Mathlib.Data.List.Forall2

namespace concurrent

/-- A program that only reads: it sees a shared store `σ` one statement at a
time and cannot change it, so it needs no proof that it does not. -/
inductive Query (σ α : Type) where
  | done (result : α)
  | read (next : σ → Query σ α)

namespace Query

variable {L σ τ α β γ ε : Type}

def bind : Query σ α → (α → Query σ β) → Query σ β
  | done a, f => f a
  | read next, f => read fun s => (next s).bind f

instance : Monad (Query σ) where
  pure := done
  bind := bind

@[simp] theorem pure_eq (a : α) : (pure a : Query σ α) = done a := rfl

@[simp] theorem done_bind (a : α) (f : α → Query σ β) : (done a >>= f) = f a := rfl

@[simp] theorem read_bind (next : σ → Query σ α) (f : α → Query σ β) :
    (read next >>= f) = read fun s => next s >>= f := rfl

theorem bind_done (q : Query σ α) : q >>= done = q := by
  induction q with
  | done a => rfl
  | read next ih => simp only [read_bind, ih]

theorem bind_assoc (q : Query σ α) (f : α → Query σ β) (g : β → Query σ γ) :
    q >>= f >>= g = q >>= fun a => f a >>= g := by
  induction q with
  | done a => rfl
  | read next ih => simp only [read_bind, ih]

instance : LawfulMonad (Query σ) :=
  LawfulMonad.mk' (Query σ) bind_done (fun _ _ => rfl) bind_assoc

/-- One statement. -/
def select (f : σ → α) : Query σ α := read fun s => done (f s)

@[simp] theorem select_bind (f : σ → α) (g : α → Query σ β) :
    (select f >>= g) = read fun s => g (f s) := rfl

/-- The answer when nothing changes while the query runs. -/
def eval : Query σ α → σ → α
  | done a, _ => a
  | read next, s => (next s).eval s

@[simp] theorem eval_done (a : α) (s : σ) : (done a : Query σ α).eval s = a := rfl

@[simp] theorem eval_read (next : σ → Query σ α) (s : σ) :
    (read next).eval s = (next s).eval s := rfl

@[simp] theorem eval_bind (q : Query σ α) (f : α → Query σ β) (s : σ) :
    (q >>= f).eval s = (f (q.eval s)).eval s := by
  induction q with
  | done a => rfl
  | read next ih => exact ih s

/-- The query can answer `a` when each of its statements sees a store that
satisfies `P`, not necessarily the same one. -/
inductive Sees (P : σ → Prop) : Query σ α → α → Prop
  | done (a : α) : Sees P (done a) a
  | read {next : σ → Query σ α} {s : σ} {a : α} : P s → Sees P (next s) a → Sees P (read next) a

theorem Sees.mono {P P' : σ → Prop} (hP : ∀ s, P s → P' s) {q : Query σ α} {a : α}
    (hsees : Sees P q a) : Sees P' q a := by
  induction hsees with
  | done a => exact .done a
  | read hs _ ih => exact .read (hP _ hs) ih

/-- Seeing one store only is evaluating on it. -/
theorem Sees.eval_eq {q : Query σ α} {a : α} {s : σ} (hsees : Sees (· = s) q a) : q.eval s = a := by
  induction hsees with
  | done a => rfl
  | read hs _ ih =>
    rw [hs] at ih
    exact ih

theorem sees_eval (q : Query σ α) (s : σ) : Sees (· = s) q (q.eval s) := by
  induction q with
  | done a => exact .done a
  | read next ih => exact .read rfl (ih s)

/-- The query reads the same from either store, statement by statement. -/
def Alike (s s' : σ) : Query σ α → Prop
  | done _ => True
  | read next => next s' = next s ∧ (next s).Alike s s'

@[simp] theorem sees_done {P : σ → Prop} {a b : α} : Sees P (Query.done a) b ↔ a = b := by
  constructor
  · intro hsees
    cases hsees
    rfl
  · rintro rfl
    exact .done a

theorem sees_read {P : σ → Prop} {next : σ → Query σ α} {a : α} :
    Sees P (Query.read next) a ↔ ∃ s, P s ∧ Sees P (next s) a := by
  constructor
  · intro hsees
    cases hsees with
    | read hs hnext => exact ⟨_, hs, hnext⟩
  · rintro ⟨s, hs, hnext⟩
    exact .read hs hnext

/-- Both parts of a sequence see such stores. -/
theorem sees_bind {P : σ → Prop} {q : Query σ α} {f : α → Query σ β} {b : β} :
    Sees P (q >>= f) b ↔ ∃ a, Sees P q a ∧ Sees P (f a) b := by
  induction q with
  | done a => simp
  | read next ih =>
    simp only [read_bind, sees_read, ih]
    constructor
    · rintro ⟨s, hs, a, hnext, hf⟩
      exact ⟨a, ⟨s, hs, hnext⟩, hf⟩
    · rintro ⟨a, ⟨s, hs, hnext⟩, hf⟩
      exact ⟨s, hs, a, hnext, hf⟩

/-- The query as part of a task on a store it sees only `view` of. -/
def task (label : L) (view : τ → σ) : Query σ α → Task L τ α
  | done a => .done a
  | read next => .stmt label (fun _ => true) id fun s => (next (view s)).task label view

@[simp] theorem task_done (label : L) (view : τ → σ) (a : α) :
    (done a : Query σ α).task label view = .done a := rfl

@[simp] theorem task_read (label : L) (view : τ → σ) (next : σ → Query σ α) :
    (read next).task label view =
      .stmt label (fun _ => true) id fun s => (next (view s)).task label view := rfl

/-- A query changes nothing, and what comes after it starts from an answer it
can give. -/
theorem all_task_bind {P : L → (τ → τ) → Prop} {label : L} (hlabel : P label id) (view : τ → σ)
    {q : Query σ α} {f : α → Task L τ β} (hf : ∀ a, q.Sees (fun _ => True) a → (f a).All P) :
    (q.task label view >>= f).All P := by
  induction q with
  | done a => exact hf a (.done a)
  | read next ih =>
    exact .stmt hlabel fun s => ih (view s) fun a hsees => hf a (.read trivial hsees)

theorem all_task {P : L → (τ → τ) → Prop} {label : L} (hlabel : P label id) (view : τ → σ)
    (q : Query σ α) : (q.task label view).All P := by
  rw [← Task.bind_done (q.task label view)]
  exact all_task_bind hlabel view fun a _ => .done a

/-- What comes after a query starts from an answer that stores of the invariant
let it give. -/
theorem under_task_bind {Inv : τ → Prop} {P : L → τ → τ → Prop} {label : L} (hlabel : ∀ s, Inv s → P label s s)
    {view : τ → σ} {q : Query σ α} {f : α → Task L τ β}
    (hf : ∀ a, q.Sees (fun v => ∃ s, Inv s ∧ view s = v) a → (f a).Under Inv P) :
    (q.task label view >>= f).Under Inv P := by
  induction q with
  | done a => exact hf a (.done a)
  | read next ih =>
    exact .stmt hlabel fun s hs => ih (view s) fun a hsees => hf a (.read ⟨s, hs, rfl⟩ hsees)

/-- The query reads without failing. -/
def Yields (P : σ → Prop) (q : ExceptT ε (Query σ) α) (a : α) : Prop := Sees P q.run (.ok a)

section

variable {P : σ → Prop}

@[simp] theorem yields_pure {a b : α} :
    Yields P (pure a : ExceptT ε (Query σ) α) b ↔ a = b := by
  rw [Yields, ExceptT.run_pure, pure_eq, sees_done, Except.ok.injEq]

@[simp] theorem yields_throw {e : ε} {b : α} :
    ¬ Yields P (throw e : ExceptT ε (Query σ) α) b := by
  rw [Yields, ExceptT.run_throw, pure_eq, sees_done]
  exact nofun

theorem yields_select {f : σ → α} {a : α} :
    Yields P (ExceptT.lift (select f) : ExceptT ε (Query σ) α) a ↔ ∃ s, P s ∧ f s = a := by
  simp [Yields, ExceptT.run_lift, select, Functor.map, sees_read, Query.bind]

/-- A failure is told as another. -/
@[simp] theorem yields_adapt {ε' : Type} {f : ε → ε'} {q : ExceptT ε (Query σ) α} {a : α} :
    Yields P (ExceptT.adapt f q) a ↔ Yields P q a := by
  have hrun : (ExceptT.adapt f q).run = q.run >>= fun r => pure (r.mapError f) := rfl
  rw [Yields, hrun, sees_bind]
  constructor
  · rintro ⟨r, hq, hr⟩
    have hsame := sees_done.mp hr
    cases r with
    | ok b =>
      obtain rfl := Except.ok.inj hsame
      exact hq
    | error e => cases hsame
  · exact fun hq => ⟨.ok a, hq, .done _⟩

/-- A step that reads nothing. -/
@[simp] theorem yields_mk_pure {r : Except ε α} {a : α} :
    Yields P (ExceptT.mk (pure r) : ExceptT ε (Query σ) α) a ↔ r = .ok a := sees_done

theorem yields_bind {q : ExceptT ε (Query σ) α} {f : α → ExceptT ε (Query σ) β} {b : β} :
    Yields P (q >>= f) b ↔ ∃ a, Yields P q a ∧ Yields P (f a) b := by
  rw [Yields, ExceptT.run_bind, sees_bind]
  constructor
  · rintro ⟨r, hq, hf⟩
    cases r with
    | ok a => exact ⟨a, hq, hf⟩
    | error e => cases hf
  · rintro ⟨a, hq, hf⟩
    exact ⟨.ok a, hq, hf⟩

theorem yields_eval {q : ExceptT ε (Query σ) α} {s : σ} {a : α} :
    Yields (· = s) q a ↔ q.run.eval s = .ok a :=
  ⟨Sees.eval_eq, fun heval => by rw [Yields, ← heval]; exact sees_eval q.run s⟩

/-- One store has one answer. -/
theorem Yields.unique {q : ExceptT ε (Query σ) α} {s : σ} {a b : α} (ha : Yields (· = s) q a)
    (hb : Yields (· = s) q b) : a = b := by
  rw [yields_eval] at ha hb
  rw [ha] at hb
  exact Except.ok.inj hb

/-- Checking item by item. -/
theorem Yields.of_forM {f : α → ExceptT ε (Query σ) Unit} {xs : List α}
    (hyields : Yields P (xs.forM f) ()) {x : α} (hx : x ∈ xs) : Yields P (f x) () := by
  induction xs with
  | nil => cases hx
  | cons y xs ih =>
    rw [List.forM, yields_bind] at hyields
    obtain ⟨_, hy, hrest⟩ := hyields
    obtain rfl | hx := List.mem_cons.mp hx
    · exact hy
    · exact ih hrest hx

theorem Yields.forM {f : α → ExceptT ε (Query σ) Unit} {xs : List α} (h : ∀ x ∈ xs, Yields P (f x) ()) :
    Yields P (xs.forM f) () := by
  induction xs with
  | nil => exact yields_pure.mpr rfl
  | cons x xs ih =>
    rw [List.forM, yields_bind]
    exact ⟨(), h x (List.mem_cons_self ..), ih fun y hy => h y (List.mem_cons_of_mem x hy)⟩

/-- Reading item by item. -/
theorem yields_mapM {f : α → ExceptT ε (Query σ) β} {xs : List α} {ys : List β} :
    Yields P (xs.mapM f) ys ↔ List.Forall₂ (fun x y => Yields P (f x) y) xs ys := by
  induction xs generalizing ys with
  | nil => simp [eq_comm]
  | cons x xs ih =>
    simp only [List.mapM_cons, yields_bind, yields_pure, ih, List.forall₂_cons_left_iff]
    constructor
    · rintro ⟨y, hy, zs, hzs, rfl⟩
      exact ⟨y, zs, hy, hzs, rfl⟩
    · rintro ⟨y, zs, hy, hzs, rfl⟩
      exact ⟨y, hy, zs, hzs, rfl⟩

/-- Each answer was read for an item. -/
theorem Yields.mem_mapM {f : α → ExceptT ε (Query σ) β} {xs : List α} {ys : List β}
    (hyields : Yields P (xs.mapM f) ys) {y : β} (hy : y ∈ ys) : ∃ x ∈ xs, Yields P (f x) y := by
  rw [yields_mapM] at hyields
  induction hyields with
  | nil => cases hy
  | cons hx _ ih =>
    obtain rfl | hy := List.mem_cons.mp hy
    · exact ⟨_, List.mem_cons_self .., hx⟩
    · obtain ⟨x, hmem, hx⟩ := ih hy
      exact ⟨x, List.mem_cons_of_mem _ hmem, hx⟩

/-- What every item keeps, reading them in turn keeps. -/
theorem Yields.foldlM (Inv : β → Prop) {f : β → α → ExceptT ε (Query σ) β} {xs : List α} {b c : β}
    (hfold : Yields P (xs.foldlM f b) c) (hb : Inv b)
    (hstep : ∀ x ∈ xs, ∀ b c, Inv b → Yields P (f b x) c → Inv c) : Inv c := by
  induction xs generalizing b with
  | nil =>
    rw [List.foldlM_nil, yields_pure] at hfold
    rwa [← hfold]
  | cons x xs ih =>
    rw [List.foldlM_cons, yields_bind] at hfold
    obtain ⟨b', hx, hrest⟩ := hfold
    exact ih hrest (hstep x (List.mem_cons_self ..) b b' hb hx) fun y hy =>
      hstep y (List.mem_cons_of_mem x hy)

end

end Query

end concurrent
