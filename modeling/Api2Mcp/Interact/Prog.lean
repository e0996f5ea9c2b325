import Mathlib.Init

namespace interact

/-- A program that learns about the world only by asking it: `A q` is what the
world may answer to the question `q`. -/
inductive Prog (Q : Type) (A : Q → Type) (α : Type) where
  | done (result : α)
  | ask (q : Q) (next : A q → Prog Q A α)

/-- A question and the answer it got. -/
structure Event (Q : Type) (A : Q → Type) where
  question : Q
  answer : A question

namespace Prog

variable {Q : Type} {A : Q → Type} {α β γ : Type}

def bind : Prog Q A α → (α → Prog Q A β) → Prog Q A β
  | done a, f => f a
  | ask q next, f => ask q fun a => (next a).bind f

instance : Monad (Prog Q A) where
  pure := done
  bind := bind

@[simp] theorem pure_eq (a : α) : (pure a : Prog Q A α) = done a := rfl

@[simp] theorem done_bind (a : α) (f : α → Prog Q A β) : (done a >>= f) = f a := rfl

@[simp] theorem ask_bind (q : Q) (next : A q → Prog Q A α) (f : α → Prog Q A β) :
    (ask q next >>= f) = ask q fun a => next a >>= f := rfl

theorem bind_assoc (p : Prog Q A α) (f : α → Prog Q A β) (g : β → Prog Q A γ) :
    (p >>= f) >>= g = p >>= fun a => f a >>= g := by
  induction p with
  | done a => rfl
  | ask q next ih => exact congrArg (ask q) (funext ih)

/-- Ask and answer with what was said. -/
def query (q : Q) : Prog Q A (A q) := ask q done

@[simp] theorem query_bind (q : Q) (f : A q → Prog Q A β) : (query q >>= f) = ask q f := rfl

/-- The program, having asked and been answered `evs`, goes on as `rest`. -/
inductive Emits : Prog Q A α → List (Event Q A) → Prog Q A α → Prop
  | nil (p : Prog Q A α) : Emits p [] p
  | cons {q : Q} {next : A q → Prog Q A α} {a : A q} {evs : List (Event Q A)}
      {rest : Prog Q A α} : Emits (next a) evs rest → Emits (.ask q next) (⟨q, a⟩ :: evs) rest

theorem Emits.append {p q r : Prog Q A α} {evs evs' : List (Event Q A)} (h : p.Emits evs q)
    (h' : q.Emits evs' r) : p.Emits (evs ++ evs') r := by
  induction h with
  | nil _ => exact h'
  | cons _ ih => exact .cons (ih h')

/-- A run of a sequence is still in its first half, or has a run of each half. -/
theorem Emits.of_bind {p : Prog Q A α} {f : α → Prog Q A β} {evs : List (Event Q A)}
    {rest : Prog Q A β} (h : (p >>= f).Emits evs rest) :
    (∃ p', p.Emits evs p' ∧ rest = p' >>= f) ∨
      ∃ a before after, evs = before ++ after ∧ p.Emits before (.done a) ∧
        (f a).Emits after rest := by
  induction p generalizing evs with
  | done a => exact .inr ⟨a, [], evs, rfl, .nil _, h⟩
  | ask q next ih =>
    rw [ask_bind] at h
    cases h with
    | nil _ => exact .inl ⟨.ask q next, .nil _, rfl⟩
    | @cons _ _ a evs _ h =>
      obtain ⟨p', hp, hrest⟩ | ⟨b, before, after, rfl, hp, hf⟩ := ih a h
      · exact .inl ⟨p', .cons hp, hrest⟩
      · exact .inr ⟨b, ⟨q, a⟩ :: before, after, rfl, .cons hp, hf⟩

/-- The same, where a run that is still in the first half has not come to its end. -/
theorem Emits.of_bind_open {p : Prog Q A α} {f : α → Prog Q A β} {evs : List (Event Q A)}
    {rest : Prog Q A β} (h : (p >>= f).Emits evs rest) :
    (∃ p', p.Emits evs p' ∧ (∀ a, p' ≠ .done a) ∧ rest = p' >>= f) ∨
      ∃ a before after, evs = before ++ after ∧ p.Emits before (.done a) ∧
        (f a).Emits after rest := by
  obtain ⟨p', hp, hrest⟩ | h := h.of_bind
  · cases p' with
    | done a =>
      refine .inr ⟨a, evs, [], (List.append_nil evs).symm, hp, ?_⟩
      rw [hrest]
      exact .nil _
    | ask q next => exact .inl ⟨.ask q next, hp, by rintro _ ⟨⟩, hrest⟩
  · exact .inr h

/-- A sequence that came to its end went through both halves. -/
theorem Emits.done_of_bind {p : Prog Q A α} {f : α → Prog Q A β} {evs : List (Event Q A)} {b : β}
    (h : (p >>= f).Emits evs (.done b)) : ∃ a before after, evs = before ++ after ∧
      p.Emits before (.done a) ∧ (f a).Emits after (.done b) := by
  obtain ⟨p', -, hopen, hrest⟩ | h := h.of_bind_open
  · cases p' with
    | done a => exact absurd rfl (hopen a)
    | ask q next => cases hrest
  · exact h

/-- A run of the first half is a run of the sequence. -/
theorem Emits.bind_left {p rest : Prog Q A α} (f : α → Prog Q A β) {evs : List (Event Q A)}
    (h : p.Emits evs rest) : (p >>= f).Emits evs (rest >>= f) := by
  induction h with
  | nil p => exact .nil _
  | cons _ ih => exact .cons ih

/-- Runs of both halves are a run of the sequence. -/
theorem Emits.bind {p : Prog Q A α} {a : α} {f : α → Prog Q A β} {before after : List (Event Q A)}
    {rest : Prog Q A β} (h : p.Emits before (.done a)) (hf : (f a).Emits after rest) :
    (p >>= f).Emits (before ++ after) rest := by
  generalize hdone : Prog.done a = q at h
  induction h with
  | nil p =>
    subst hdone
    exact hf
  | cons _ ih => exact .cons (ih hdone)

/-- A run passes through what was left after its first events. -/
theorem Emits.of_append {p rest : Prog Q A α} {before after : List (Event Q A)}
    (h : p.Emits (before ++ after) rest) : ∃ mid, p.Emits before mid ∧ mid.Emits after rest := by
  induction before generalizing p with
  | nil => exact ⟨p, .nil p, h⟩
  | cons e before ih =>
    cases h with
    | cons h =>
      obtain ⟨mid, hbefore, hafter⟩ := ih h
      exact ⟨mid, .cons hbefore, hafter⟩

/-- The same, where the second half asks nothing. -/
theorem Emits.bind_done {p : Prog Q A α} {a : α} {f : α → Prog Q A β} {b : β} {evs : List (Event Q A)}
    (h : p.Emits evs (.done a)) (hf : f a = .done b) : (p >>= f).Emits evs (.done b) := by
  have hbind := h.bind_left f
  rwa [done_bind, hf] at hbind

theorem Emits.of_ask {q : Q} {next : A q → Prog Q A α} {evs : List (Event Q A)} {rest : Prog Q A α}
    (h : (ask q next).Emits evs rest) : (evs = [] ∧ rest = .ask q next) ∨
      ∃ a evs', evs = ⟨q, a⟩ :: evs' ∧ (next a).Emits evs' rest := by
  cases h with
  | nil _ => exact .inl ⟨rfl, rfl⟩
  | cons h => exact .inr ⟨_, _, rfl, h⟩

theorem Emits.of_done {a : α} {evs : List (Event Q A)} {rest : Prog Q A α}
    (h : (done a : Prog Q A α).Emits evs rest) : evs = [] ∧ rest = .done a := by
  cases h
  exact ⟨rfl, rfl⟩

theorem Emits.of_query {q : Q} {a : A q} {evs : List (Event Q A)}
    (h : (query q).Emits evs (.done a)) : evs = [⟨q, a⟩] := by
  obtain ⟨_, hask⟩ | ⟨b, rest, rfl, hrest⟩ := Emits.of_ask h
  · cases hask
  · obtain ⟨rfl, hdone⟩ := hrest.of_done
    rw [done.inj hdone]

/-- What a program goes on as depends on the answers alone. -/
theorem Emits.eq {p rest rest' : Prog Q A α} {evs : List (Event Q A)} (h : p.Emits evs rest)
    (h' : p.Emits evs rest') : rest = rest' := by
  induction h with
  | nil p =>
    cases h'
    rfl
  | cons _ ih =>
    cases h' with
    | cons h' => exact ih h'

/-- The program asks what has no answer: it goes no further. -/
def Stuck : Prog Q A α → Prop
  | done _ => False
  | ask q _ => A q → False

/-- The same program, which asks its questions among others. -/
def among {Q' : Type} {A' : Q' → Type} (emb : Q → Q') (back : ∀ q, A' (emb q) → A q) :
    Prog Q A α → Prog Q' A' α
  | done a => .done a
  | ask q next => .ask (emb q) fun a => (next (back q a)).among emb back

theorem Emits.among {Q' : Type} {A' : Q' → Type} (emb : Q → Q') (back : ∀ q, A' (emb q) → A q)
    (forth : ∀ q, A q → A' (emb q)) (hback : ∀ q a, back q (forth q a) = a) {p rest : Prog Q A α}
    {evs : List (Event Q A)} (h : p.Emits evs rest) :
    (p.among emb back).Emits (evs.map fun e => ⟨emb e.question, forth e.question e.answer⟩)
      (rest.among emb back) := by
  induction h with
  | nil p => exact .nil _
  | @cons q next a evs rest _ ih =>
    refine .cons ?_
    rwa [hback]

/-- What is asked among others is asked by the program itself. -/
theorem Emits.of_among {Q' : Type} {A' : Q' → Type} {emb : Q → Q'} {back : ∀ q, A' (emb q) → A q}
    (forth : ∀ q, A q → A' (emb q)) (hforth : ∀ q a, forth q (back q a) = a) {p : Prog Q A α}
    {evs' : List (Event Q' A')} {rest' : Prog Q' A' α} (h : (p.among emb back).Emits evs' rest') :
    ∃ evs rest, p.Emits evs rest ∧ rest' = rest.among emb back ∧
      evs' = evs.map fun e => ⟨emb e.question, forth e.question e.answer⟩ := by
  induction p generalizing evs' with
  | done a =>
    obtain ⟨rfl, rfl⟩ := Emits.of_done h
    exact ⟨[], .done a, .nil _, rfl, rfl⟩
  | ask q next ih =>
    obtain ⟨rfl, rfl⟩ | ⟨a, evs₁, rfl, hnext⟩ := Emits.of_ask h
    · exact ⟨[], .ask q next, .nil _, rfl, rfl⟩
    · obtain ⟨evs, rest, hemits, hrest, rfl⟩ := ih (back q a) hnext
      subst hrest
      refine ⟨⟨q, back q a⟩ :: evs, rest, .cons hemits, rfl, ?_⟩
      rw [List.map_cons, hforth]

/-- The program may ask and be answered `evs`. -/
def Runs (p : Prog Q A α) (evs : List (Event Q A)) : Prop := ∃ rest, p.Emits evs rest

theorem runs_nil (p : Prog Q A α) : p.Runs [] := ⟨p, .nil p⟩

theorem runs_ask {q : Q} {next : A q → Prog Q A α} {a : A q} {evs : List (Event Q A)}
    (h : (next a).Runs evs) : (ask q next).Runs (⟨q, a⟩ :: evs) := by
  obtain ⟨rest, hrest⟩ := h
  exact ⟨rest, .cons hrest⟩

/-- Whatever the world answers, the program only asks what satisfies `P`. -/
inductive AllAsks (P : Q → Prop) : Prog Q A α → Prop
  | done (a : α) : AllAsks P (.done a)
  | ask {q : Q} {next : A q → Prog Q A α} : P q → (∀ a, AllAsks P (next a)) →
      AllAsks P (.ask q next)

theorem AllAsks.bind {P : Q → Prop} {p : Prog Q A α} {f : α → Prog Q A β} (hp : AllAsks P p)
    (hf : ∀ a, AllAsks P (f a)) : AllAsks P (p >>= f) := by
  induction hp with
  | done a => exact hf a
  | ask hq _ ih => exact .ask hq ih

/-- The run rule: what holds of every question holds of every event. -/
theorem AllAsks.of_runs {P : Q → Prop} {p : Prog Q A α} {evs : List (Event Q A)}
    (hp : AllAsks P p) (hruns : p.Runs evs) : ∀ e ∈ evs, P e.question := by
  obtain ⟨rest, hrun⟩ := hruns
  induction hrun with
  | nil p =>
    intro e he
    cases he
  | cons _ ih =>
    cases hp with
    | ask hq hnext =>
      intro e he
      obtain rfl | hrest := List.mem_cons.mp he
      · exact hq
      · exact ih (hnext _) e hrest

/-- A run that has asked what the first half of a sequence never does is past
that half. -/
theorem Emits.past {P : Q → Prop} {p : Prog Q A α} (hp : p.AllAsks P) {f : α → Prog Q A β}
    {before after : List (Event Q A)} {e : Event Q A} {rest : Prog Q A β} (he : ¬ P e.question)
    (h : (p >>= f).Emits (before ++ e :: after) rest) :
    ∃ a first second, before = first ++ second ∧ p.Emits first (.done a) ∧
      (f a).Emits (second ++ e :: after) rest := by
  induction hp generalizing before with
  | done a => exact ⟨a, [], before, rfl, .nil _, h⟩
  | ask hq _ ih =>
    cases before with
    | nil =>
      cases h with
      | cons h => exact absurd hq he
    | cons first before =>
      cases h with
      | cons h =>
        obtain ⟨a, evs, second, rfl, hemits, hrest⟩ := ih _ h
        exact ⟨a, _ :: evs, second, rfl, .cons hemits, hrest⟩

end Prog

end interact
