import Mathlib.Algebra.GroupWithZero.Nat
import Mathlib.Data.List.Forall2

namespace pointwise

variable {α β γ : Type} {R : α → β → Prop} {xs : List α} {ys : List β}

/-- Each item on the right stands against one on the left. -/
theorem exists_left (h : List.Forall₂ R xs ys) {y : β} (hy : y ∈ ys) : ∃ x ∈ xs, R x y := by
  induction h with
  | nil => cases hy
  | cons hxy _ ih =>
    obtain rfl | hy := List.mem_cons.mp hy
    · exact ⟨_, List.mem_cons_self .., hxy⟩
    · obtain ⟨x, hx, hxy⟩ := ih hy
      exact ⟨x, List.mem_cons_of_mem _ hx, hxy⟩

/-- Each item on the left stands against one on the right. -/
theorem exists_right (h : List.Forall₂ R xs ys) {x : α} (hx : x ∈ xs) : ∃ y ∈ ys, R x y := by
  obtain ⟨y, hy, hxy⟩ := exists_left h.flip hx
  exact ⟨y, hy, hxy⟩

theorem imp_mem {S : α → β → Prop} (h : List.Forall₂ R xs ys) (hRS : ∀ x ∈ xs, ∀ y, R x y → S x y) :
    List.Forall₂ S xs ys := by
  induction h with
  | nil => exact .nil
  | cons hxy _ ih =>
    exact .cons (hRS _ (List.mem_cons_self ..) _ hxy) (ih fun x hx => hRS x (List.mem_cons_of_mem _ hx))

/-- Every item has something to stand against. -/
theorem exists_iff : (∃ ys, List.Forall₂ R xs ys) ↔ ∀ x ∈ xs, ∃ y, R x y := by
  constructor
  · rintro ⟨ys, h⟩ x hx
    obtain ⟨y, _, hxy⟩ := exists_right h hx
    exact ⟨y, hxy⟩
  · intro h
    induction xs with
    | nil => exact ⟨[], .nil⟩
    | cons x xs ih =>
      obtain ⟨y, hxy⟩ := h x List.mem_cons_self
      obtain ⟨ys, hrest⟩ := ih fun x' hx' => h x' (List.mem_cons_of_mem x hx')
      exact ⟨y :: ys, .cons hxy hrest⟩

/-- What holds between any two items on the left holds between those on the right. -/
theorem pairwise {P : α → α → Prop} {Q : β → β → Prop} (h : List.Forall₂ R xs ys)
    (hPQ : ∀ x y x' y', R x y → R x' y' → P x x' → Q y y') (hxs : xs.Pairwise P) : ys.Pairwise Q := by
  induction h with
  | nil => exact .nil
  | cons hxy hrest ih =>
    obtain ⟨hhead, htail⟩ := List.pairwise_cons.mp hxs
    refine List.pairwise_cons.mpr ⟨fun y' hy' => ?_, ih htail⟩
    obtain ⟨x', hx', hxy'⟩ := exists_left hrest hy'
    exact hPQ _ _ _ _ hxy hxy' (hhead x' hx')

/-- What is read off both sides alike is one list. -/
theorem map_eq (h : List.Forall₂ R xs ys) {f : α → γ} {g : β → γ} (hfg : ∀ x y, R x y → f x = g y) :
    xs.map f = ys.map g := by
  induction h with
  | nil => rfl
  | cons hxy _ ih => rw [List.map_cons, List.map_cons, hfg _ _ hxy, ih]

/-- So is what is folded over both sides alike. -/
theorem foldlM_eq {m : Type → Type} [Monad m] {δ : Type} {f : δ → α → m δ} {g : δ → β → m δ}
    (h : List.Forall₂ R xs ys) (hfg : ∀ d x y, R x y → f d x = g d y) (d : δ) :
    xs.foldlM f d = ys.foldlM g d := by
  induction h generalizing d with
  | nil => rfl
  | cons hxy _ ih =>
    rw [List.foldlM_cons, List.foldlM_cons, hfg d _ _ hxy]
    exact congrArg _ (funext ih)

/-- What a list adds up to when one of its items is exchanged for another. -/
theorem sum_set (f : α → Nat) {i : Nat} {a : α} (b : α) (hi : xs[i]? = some a) :
    ((xs.set i b).map f).sum + f a = (xs.map f).sum + f b := by
  induction xs generalizing i with
  | nil => cases hi
  | cons x xs ih =>
    cases i with
    | zero =>
      obtain rfl := Option.some.inj hi
      simp only [List.set_cons_zero, List.map_cons, List.sum_cons]
      omega
    | succ i =>
      have hrest := ih (i := i) hi
      simp only [List.set_cons_succ, List.map_cons, List.sum_cons]
      omega

end pointwise
