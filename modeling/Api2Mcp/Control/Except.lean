import Api2Mcp.Collections.Pointwise

namespace except

variable {ε α β : Type}

@[simp] theorem bind_eq_ok {x : Except ε α} {f : α → Except ε β} {b : β} :
    x >>= f = .ok b ↔ ∃ a, x = .ok a ∧ f a = .ok b := by
  cases x with
  | ok a => simp [bind, Except.bind]
  | error e => simp [bind, Except.bind]

@[simp] theorem pure_eq_ok {a b : α} : (pure a : Except ε α) = .ok b ↔ a = b := by
  simp [pure, Except.pure]

@[simp] theorem map_eq_ok {f : α → β} {x : Except ε α} {b : β} :
    f <$> x = .ok b ↔ ∃ a, x = .ok a ∧ f a = b := by
  cases x with
  | ok a => simp [Functor.map, Except.map]
  | error e => simp [Functor.map, Except.map]

@[simp] theorem mapError_eq_ok {ε' : Type} {f : ε → ε'} {x : Except ε α} {a : α} :
    x.mapError f = .ok a ↔ x = .ok a := by
  cases x <;> simp [Except.mapError]

/-- What is done with the answer cannot fail. -/
theorem exists_bind_pure {x : Except ε α} {f : α → β} :
    (∃ b, (x >>= fun a => pure (f a)) = .ok b) ↔ ∃ a, x = .ok a := by
  simp only [bind_eq_ok, pure_eq_ok]
  constructor
  · rintro ⟨_, a, ha, _⟩
    exact ⟨a, ha⟩
  · rintro ⟨a, ha⟩
    exact ⟨_, a, ha, rfl⟩

/-- Item by item. -/
theorem mapM_eq_ok {f : α → Except ε β} {xs : List α} {ys : List β} :
    xs.mapM f = .ok ys ↔ List.Forall₂ (fun x y => f x = .ok y) xs ys := by
  induction xs generalizing ys with
  | nil => rw [List.mapM_nil, pure_eq_ok, List.forall₂_nil_left_iff, eq_comm]
  | cons x xs ih =>
    simp only [List.mapM_cons, bind_eq_ok, pure_eq_ok, ih, List.forall₂_cons_left_iff]
    constructor
    · rintro ⟨y, hy, zs, hzs, rfl⟩
      exact ⟨y, zs, hy, hzs, rfl⟩
    · rintro ⟨y, zs, hy, hzs, rfl⟩
      exact ⟨y, hy, zs, hzs, rfl⟩

/-- Each answer is an item's. -/
theorem exists_of_mem_mapM {f : α → Except ε β} {xs : List α} {ys : List β} {y : β}
    (hmap : xs.mapM f = .ok ys) (hy : y ∈ ys) : ∃ x ∈ xs, f x = .ok y :=
  pointwise.exists_left (mapM_eq_ok.mp hmap) hy

/-- What was made of each item is read back as the items. -/
theorem mapM_map_eq_ok {f : α → β} {g : β → Except ε α} {xs : List α} (h : ∀ x ∈ xs, g (f x) = .ok x) :
    (xs.map f).mapM g = .ok xs := by
  rw [mapM_eq_ok, List.forall₂_map_left_iff, List.forall₂_same]
  exact h

theorem exists_mapM_iff {f : α → Except ε β} {xs : List α} :
    (∃ ys, xs.mapM f = .ok ys) ↔ ∀ x ∈ xs, ∃ y, f x = .ok y := by
  simp only [mapM_eq_ok, pointwise.exists_iff]

/-- What every item keeps, the fold keeps. -/
theorem foldlM_inv (Inv : β → Prop) {f : β → α → Except ε β} {xs : List α} {b c : β}
    (hfold : xs.foldlM f b = .ok c) (hb : Inv b)
    (hstep : ∀ x ∈ xs, ∀ b c, Inv b → f b x = .ok c → Inv c) : Inv c := by
  induction xs generalizing b with
  | nil =>
    rw [List.foldlM_nil, pure_eq_ok] at hfold
    rwa [← hfold]
  | cons x xs ih =>
    rw [List.foldlM_cons, bind_eq_ok] at hfold
    obtain ⟨b', hx, hrest⟩ := hfold
    exact ih hrest (hstep x (List.mem_cons_self ..) b b' hb hx) fun y hy =>
      hstep y (List.mem_cons_of_mem x hy)

/-- No item fails in a fold that comes to an end. -/
theorem exists_of_foldlM {f : β → α → Except ε β} {xs : List α} {b c : β}
    (hfold : xs.foldlM f b = .ok c) {x : α} (hx : x ∈ xs) : ∃ b' c', f b' x = .ok c' := by
  induction xs generalizing b with
  | nil => cases hx
  | cons y xs ih =>
    rw [List.foldlM_cons, bind_eq_ok] at hfold
    obtain ⟨b', hy, hrest⟩ := hfold
    obtain rfl | hx := List.mem_cons.mp hx
    · exact ⟨b, b', hy⟩
    · exact ih hrest hx

theorem of_forM {f : α → Except ε Unit} {xs : List α} (h : xs.forM f = .ok ()) {x : α} (hx : x ∈ xs) :
    f x = .ok () := by
  induction xs with
  | nil => cases hx
  | cons y xs ih =>
    rw [List.forM, bind_eq_ok] at h
    obtain ⟨_, hy, hrest⟩ := h
    obtain rfl | hx := List.mem_cons.mp hx
    · exact hy
    · exact ih hrest hx

/-- A computation fails only as `P` says. -/
def OnlyFails (P : ε → Prop) (x : Except ε α) : Prop := ∀ e, x = .error e → P e

namespace OnlyFails

variable {P : ε → Prop}

theorem ok (a : α) : OnlyFails P (.ok a : Except ε α) := by
  rintro e ⟨⟩

theorem error {e : ε} (h : P e) : OnlyFails P (.error e : Except ε α) := by
  rintro _ ⟨⟩
  exact h

theorem bind {x : Except ε α} {f : α → Except ε β} (hx : OnlyFails P x) (hf : ∀ a, OnlyFails P (f a)) :
    OnlyFails P (x >>= f) := by
  cases x with
  | ok a => exact hf a
  | error e => exact error (hx e rfl)

theorem mapError {ε' : Type} {g : ε' → ε} {x : Except ε' α} (h : ∀ e, P (g e)) :
    OnlyFails P (x.mapError g) := by
  cases x with
  | ok a => exact ok a
  | error e => exact error (h e)

theorem mapM {f : α → Except ε β} (hf : ∀ a, OnlyFails P (f a)) (xs : List α) :
    OnlyFails P (xs.mapM f) := by
  induction xs with
  | nil => exact ok []
  | cons x xs ih =>
    rw [List.mapM_cons]
    exact (hf x).bind fun y => ih.bind fun ys => ok (y :: ys)

end OnlyFails

/-! Computations that may fail, and change a state they do not give back when
they do. -/

/-- It comes to `a`, and leaves `s'`. -/
def Runs {σ : Type} (m : ExceptT ε (StateM σ) α) (s : σ) (a : α) (s' : σ) : Prop := (m.run.run s).run = (.ok a, s')

/-- What a run leaves, whether it comes to a value or not. -/
def after {σ : Type} (m : ExceptT ε (StateM σ) α) (s : σ) : σ := (m.run.run s).run.2

section

variable {σ : Type} {s s' : σ}

@[simp] theorem runs_pure {a b : α} : Runs (pure a : ExceptT ε (StateM σ) α) s b s' ↔ a = b ∧ s = s' := by
  simp [Runs]

theorem runs_bind {m : ExceptT ε (StateM σ) α} {f : α → ExceptT ε (StateM σ) β} {b : β} :
    Runs (m >>= f) s b s' ↔ ∃ a mid, Runs m s a mid ∧ Runs (f a) mid b s' := by
  unfold Runs
  rw [ExceptT.run_bind, StateT.run_bind]
  cases h : (m.run.run s).run with
  | mk r mid =>
    have h : m.run.run s = pure (r, mid) := h
    rw [h, pure_bind]
    cases r with
    | ok a =>
      constructor
      · exact fun hf => ⟨a, mid, rfl, hf⟩
      · rintro ⟨_, _, heq, hf⟩
        cases heq
        exact hf
    | error e =>
      refine iff_of_false ?_ ?_
      · rintro ⟨⟩
      · rintro ⟨_, _, ⟨⟩, _⟩

theorem Runs.after {m : ExceptT ε (StateM σ) α} {a : α} (h : Runs m s a s') : except.after m s = s' :=
  congrArg Prod.snd h

/-- What holds where the first step fails, and after what follows it, holds after
both. -/
theorem after_bind {P : σ → Prop} {m : ExceptT ε (StateM σ) α} {f : α → ExceptT ε (StateM σ) β} (hm : P (after m s))
    (hf : ∀ a mid, Runs m s a mid → P (after (f a) mid)) : P (after (m >>= f) s) := by
  unfold after at hm ⊢
  rw [ExceptT.run_bind, StateT.run_bind]
  cases h : (m.run.run s).run with
  | mk r mid =>
    have hrun : m.run.run s = pure (r, mid) := h
    rw [h] at hm
    rw [hrun, pure_bind]
    cases r with
    | ok a => exact hf a mid h
    | error e => exact hm

/-- What each run of a loop preserves is preserved by the loop, also where it stops. -/
theorem after_mapM {P : σ → Prop} {f : α → ExceptT ε (StateM σ) β} {xs : List α}
    (hf : ∀ x ∈ xs, ∀ s, P s → P (after (f x) s)) (hs : P s) : P (after (xs.mapM f) s) := by
  induction xs generalizing s with
  | nil => exact hs
  | cons x xs ih =>
    rw [List.mapM_cons]
    have hx : P (after (f x) s) := hf x List.mem_cons_self s hs
    refine after_bind hx fun y mid hy => ?_
    have hmid : P mid := hy.after ▸ hx
    have hrest : P (after (xs.mapM f) mid) := ih (fun x' hx' => hf x' (List.mem_cons_of_mem x hx')) hmid
    refine after_bind hrest fun ys last hys => ?_
    have hlast : P last := hys.after ▸ hrest
    exact hlast

end

end except
