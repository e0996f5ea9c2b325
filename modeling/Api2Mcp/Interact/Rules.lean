import Api2Mcp.Interact.Prog
import Mathlib.Data.List.Forall2

namespace interact

namespace Prog

variable {Q σ : Type} {A : Q → Type} {α β : Type}

/-- Whatever the world answers, the program asks only what `P` allows, and ends
only as `post` allows. Both may depend on what was said before, of which `note`
keeps a record that the program does not see. -/
inductive Safe (note : σ → Event Q A → σ) (P : σ → Q → Prop) (post : σ → α → Prop) :
    σ → Prog Q A α → Prop
  | done {s : σ} {a : α} : post s a → Safe note P post s (.done a)
  | ask {s : σ} {q : Q} {next : A q → Prog Q A α} : P s q →
      (∀ a, Safe note P post (note s ⟨q, a⟩) (next a)) → Safe note P post s (.ask q next)

namespace Safe

variable {note : σ → Event Q A → σ} {P : σ → Q → Prop} {post : σ → α → Prop}

theorem imp {post' : σ → α → Prop} {s : σ} {p : Prog Q A α} (h : Safe note P post s p)
    (himp : ∀ s a, post s a → post' s a) : Safe note P post' s p := by
  induction h with
  | done hpost => exact .done (himp _ _ hpost)
  | ask hq _ ih => exact .ask hq ih

theorem weaken {P' : σ → Q → Prop} {s : σ} {p : Prog Q A α} (h : Safe note P post s p)
    (himp : ∀ s q, P s q → P' s q) : Safe note P' post s p := by
  induction h with
  | done hpost => exact .done hpost
  | ask hq _ ih => exact .ask (himp _ _ hq) ih

/-- What is allowed whatever was said before is allowed. -/
theorem of_asks {P' : Q → Prop} {p : Prog Q A α} (h : p.AllAsks P') (himp : ∀ s q, P' q → P s q)
    (s : σ) : Safe note P (fun _ _ => True) s p := by
  induction h generalizing s with
  | done a => exact .done trivial
  | ask hq _ ih => exact .ask (himp s _ hq) fun a => ih a _

/-- The sequence rule: what the first half ends with is what the second starts
from. -/
theorem bind {post' : σ → β → Prop} {s : σ} {p : Prog Q A α} {f : α → Prog Q A β}
    (h : Safe note P post s p) (hf : ∀ s a, post s a → Safe note P post' s (f a)) :
    Safe note P post' s (p >>= f) := by
  induction h with
  | done hpost => exact hf _ _ hpost
  | ask hq _ ih => exact .ask hq ih

/-- The run rule: after any events the program that is left is safe. -/
theorem emits {s : σ} {p rest : Prog Q A α} {evs : List (Event Q A)} (h : Safe note P post s p)
    (hemits : p.Emits evs rest) : Safe note P post (evs.foldl note s) rest := by
  induction hemits generalizing s with
  | nil _ => exact h
  | cons _ ih =>
    cases h with
    | ask _ hnext => exact ih (hnext _)

theorem result {s : σ} {p : Prog Q A α} {a : α} {evs : List (Event Q A)} (h : Safe note P post s p)
    (hemits : p.Emits evs (.done a)) : post (evs.foldl note s) a := by
  cases h.emits hemits with
  | done hpost => exact hpost

/-- Every question of a run was allowed when it was asked. -/
theorem question {s : σ} {p rest : Prog Q A α} {before after : List (Event Q A)} {e : Event Q A}
    (h : Safe note P post s p) (hemits : p.Emits (before ++ e :: after) rest) :
    P (before.foldl note s) e.question := by
  induction before generalizing s p with
  | nil =>
    cases hemits with
    | cons _ =>
      cases h with
      | ask hq _ => exact hq
  | cons first before ih =>
    cases hemits with
    | cons hemits =>
      cases h with
      | ask _ hnext => exact ih (hnext _) hemits

/-- A program among others is safe if it is on its own, under a record that
keeps to its own events. -/
theorem among {Q' : Type} {A' : Q' → Type} {emb : Q → Q'} {back : ∀ q, A' (emb q) → A q}
    {note' : σ → Event Q' A' → σ} {P' : σ → Q' → Prop}
    (hnote : ∀ s q a, note' s ⟨emb q, a⟩ = note s ⟨q, back q a⟩) (hP : ∀ s q, P s q → P' s (emb q))
    {s : σ} {p : Prog Q A α} (h : Safe note P post s p) :
    Safe note' P' post s (p.among emb back) := by
  induction h with
  | done hpost => exact .done hpost
  | ask hq _ ih =>
    refine .ask (hP _ _ hq) fun a => ?_
    rw [hnote]
    exact ih _

end Safe

end Prog

section

variable {Q : Type} {A : Q → Type} {α β γ δ : Type}

/-- The two worlds answer alike, as long as they are asked the same: of two runs
that have done the same so far, `told` relates what they are answered to what is
the `same` question. -/
def AnsweredAlike (same : Q → Q → Prop) (told : Event Q A → Event Q A → Prop) :
    List (Event Q A) → List (Event Q A) → Prop
  | e :: evs, e' :: evs' => same e.question e'.question → told e e' ∧ AnsweredAlike same told evs evs'
  | _, _ => True

namespace Prog

theorem Stuck.bind {p : Prog Q A α} (h : p.Stuck) (f : α → Prog Q A β) : (p >>= f).Stuck := by
  cases p with
  | done a => exact h.elim
  | ask q next => exact h

theorem Emits.not_stuck {p : Prog Q A α} {evs : List (Event Q A)} {a : α} (h : p.Emits evs (.done a)) :
    ¬ p.Stuck := by
  intro hstuck
  cases h with
  | nil => exact hstuck
  | @cons q next answer _ _ _ => exact hstuck answer

/-- The programs ask the same as long as they are told the same, and end alike.
What they then did is related by `did`, unless one of them is stuck there. -/
inductive Alike (same : Q → Q → Prop) (told did : Event Q A → Event Q A → Prop) (post : α → β → Prop) :
    Prog Q A α → Prog Q A β → Prop
  | done {a : α} {b : β} : post a b → Alike same told did post (.done a) (.done b)
  | ask {q q' : Q} {next : A q → Prog Q A α} {next' : A q' → Prog Q A β} : same q q' →
      (∀ a a', told ⟨q, a⟩ ⟨q', a'⟩ → ¬ (next a).Stuck → ¬ (next' a').Stuck → did ⟨q, a⟩ ⟨q', a'⟩) →
      (∀ a a', told ⟨q, a⟩ ⟨q', a'⟩ → ¬ (next a).Stuck → ¬ (next' a').Stuck →
        Alike same told did post (next a) (next' a')) →
      Alike same told did post (.ask q next) (.ask q' next')

namespace Alike

variable {same : Q → Q → Prop} {told did : Event Q A → Event Q A → Prop} {post : α → β → Prop}

/-- The sequence rule. -/
theorem bind {post' : γ → δ → Prop} {p : Prog Q A α} {p' : Prog Q A β} {f : α → Prog Q A γ}
    {f' : β → Prog Q A δ} (h : Alike same told did post p p')
    (hf : ∀ a b, post a b → Alike same told did post' (f a) (f' b)) :
    Alike same told did post' (p >>= f) (p' >>= f') := by
  induction h with
  | done hpost => exact hf _ _ hpost
  | ask hsame hdid _ ih =>
    refine .ask hsame (fun a a' htold hn hn' => ?_) fun a a' htold hn hn' => ?_
    · exact hdid a a' htold (fun h => hn (h.bind f)) fun h => hn' (h.bind f')
    · exact ih a a' htold (fun h => hn (h.bind f)) fun h => hn' (h.bind f')

/-- A program is like itself where a world that is asked the same answers the
same. -/
theorem refl (hsame : ∀ q, same q q) (htold : ∀ q a a', told ⟨q, a⟩ ⟨q, a'⟩ → a = a')
    (hdid : ∀ e, did e e) (p : Prog Q A α) : Alike same told did (· = ·) p p := by
  induction p with
  | done a => exact .done rfl
  | ask q next ih =>
    refine .ask (hsame q) (fun a a' h _ _ => ?_) fun a a' h _ _ => ?_
    · rw [htold q a a' h]
      exact hdid _
    · rw [htold q a a' h]
      exact ih a'

/-- The run rule: of two such programs, answered alike, each does what the other
does, and they end alike. -/
theorem runs {p : Prog Q A α} {p' : Prog Q A β} {evs evs' : List (Event Q A)} {a : α} {b : β}
    (h : Alike same told did post p p') (hrun : p.Emits evs (.done a)) (hrun' : p'.Emits evs' (.done b))
    (hworld : AnsweredAlike same told evs evs') : List.Forall₂ did evs evs' ∧ post a b := by
  induction h generalizing evs evs' with
  | done hpost =>
    obtain ⟨rfl, hdone⟩ := hrun.of_done
    obtain ⟨rfl, hdone'⟩ := hrun'.of_done
    cases hdone
    cases hdone'
    exact ⟨.nil, hpost⟩
  | ask hsame hdid _ ih =>
    obtain ⟨_, hask⟩ | ⟨answer, rest, rfl, hrest⟩ := hrun.of_ask
    · cases hask
    obtain ⟨_, hask⟩ | ⟨answer', rest', rfl, hrest'⟩ := hrun'.of_ask
    · cases hask
    obtain ⟨htold, hworld⟩ := hworld hsame
    obtain ⟨hevs, hpost⟩ := ih answer answer' htold hrest.not_stuck hrest'.not_stuck hrest hrest' hworld
    exact ⟨.cons (hdid answer answer' htold hrest.not_stuck hrest'.not_stuck) hevs, hpost⟩

end Alike

end Prog

end

end interact
