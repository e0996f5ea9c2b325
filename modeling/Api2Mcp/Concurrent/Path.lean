import Mathlib.Init

namespace concurrent

variable {σ ε : Type}

/-- A run of a transition system: the events, in order, and the states they
lead through. -/
inductive Path (R : σ → ε → σ → Prop) : σ → List ε → σ → Prop
  | nil (s : σ) : Path R s [] s
  | cons {s s' s'' : σ} {e : ε} {evs : List ε} : R s e s' → Path R s' evs s'' →
      Path R s (e :: evs) s''

namespace Path

variable {R : σ → ε → σ → Prop}

/-- What every step keeps, the run keeps. -/
theorem inv {Inv : σ → Prop} (hstep : ∀ s e s', Inv s → R s e s' → Inv s') {s s' : σ} {evs : List ε}
    (hpath : Path R s evs s') (hinv : Inv s) : Inv s' := by
  induction hpath with
  | nil _ => exact hinv
  | cons hr _ ih => exact ih (hstep _ _ _ hinv hr)

/-- The same for what is said of a state and of the events that led to it. -/
theorem history {Inv : List ε → σ → Prop}
    (hstep : ∀ evs s e s', Inv evs s → R s e s' → Inv (evs ++ [e]) s') {s s' : σ} {before evs : List ε}
    (hpath : Path R s evs s') (hinv : Inv before s) : Inv (before ++ evs) s' := by
  induction hpath generalizing before with
  | nil _ => simpa only [List.append_nil] using hinv
  | cons hr _ ih =>
    have hnext := ih (hstep _ _ _ _ hinv hr)
    rwa [List.append_assoc, List.singleton_append] at hnext

theorem imp {R' : σ → ε → σ → Prop} (himp : ∀ s e s', R s e s' → R' s e s') {s s' : σ} {evs : List ε}
    (hpath : Path R s evs s') : Path R' s evs s' := by
  induction hpath with
  | nil s => exact .nil s
  | cons hr _ ih => exact .cons (himp _ _ _ hr) ih

theorem append {s mid s' : σ} {before after : List ε} (h : Path R s before mid)
    (h' : Path R mid after s') : Path R s (before ++ after) s' := by
  induction h with
  | nil _ => exact h'
  | cons hr _ ih => exact .cons hr (ih h')

/-- A run passes through a state after each of its events. -/
theorem of_append {s s' : σ} {before evs : List ε} (hpath : Path R s (before ++ evs) s') :
    ∃ mid, Path R s before mid ∧ Path R mid evs s' := by
  induction before generalizing s with
  | nil => exact ⟨s, .nil s, hpath⟩
  | cons e before ih =>
    cases hpath with
    | cons hr hrest =>
      obtain ⟨mid, hbefore, hafter⟩ := ih hrest
      exact ⟨mid, .cons hr hbefore, hafter⟩

/-- Two conditions that say the same of each step, as long as an invariant
holds that the first one keeps, say the same of a run. -/
theorem congr {P Q : σ → ε → σ → Prop} (Inv : σ → Prop)
    (hkeep : ∀ s e s', Inv s → R s e s' → P s e s' → Inv s')
    (hiff : ∀ s e s', Inv s → R s e s' → (P s e s' ↔ Q s e s')) {s s' : σ} {evs : List ε}
    (hinv : Inv s) :
    Path (fun a e b => R a e b ∧ P a e b) s evs s' ↔
      Path (fun a e b => R a e b ∧ Q a e b) s evs s' := by
  constructor
  · intro hpath
    induction hpath with
    | nil _ => exact .nil _
    | cons hr _ ih =>
      obtain ⟨hr, hp⟩ := hr
      exact .cons ⟨hr, (hiff _ _ _ hinv hr).mp hp⟩ (ih (hkeep _ _ _ hinv hr hp))
  · intro hpath
    induction hpath with
    | nil _ => exact .nil _
    | cons hr _ ih =>
      obtain ⟨hr, hq⟩ := hr
      have hp := (hiff _ _ _ hinv hr).mpr hq
      exact .cons ⟨hr, hp⟩ (ih (hkeep _ _ _ hinv hr hp))

end Path

end concurrent
