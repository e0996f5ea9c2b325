import Api2Mcp.Concurrent.Task

namespace concurrent

/-- What becomes of a statement: the store answers it, refuses it and stays as
it is, or carries it out and the answer is lost. -/
inductive Fate where
  | answered
  | refused
  | lost
  deriving DecidableEq

namespace Task

variable {L σ α β : Type}

/-- The task run alone on a store that may fail it, each statement having the
next of the fates. The first one that is not answered ends the task; labels
outside `sent` are not statements of the store and cannot fail. -/
def faced (sent : L → Bool) (fates : Nat → Fate) : Task L σ α → Nat → σ → Option α × Nat × σ
  | done a, n, s => (some a, n, s)
  | stmt l _ write next, n, s =>
    if sent l then
      match fates n with
      | .answered => (next s).faced sent fates (n + 1) (write s)
      | .refused => (none, n + 1, s)
      | .lost => (none, n + 1, write s)
    else (next s).faced sent fates n (write s)

section

variable {sent : L → Bool} {fates : Nat → Fate} {l : L} {ready : σ → Bool} {write : σ → σ}
  {next : σ → Task L σ α} {n : Nat}

@[simp] theorem faced_done (a : α) (n : Nat) (s : σ) :
    (done a : Task L σ α).faced sent fates n s = (some a, n, s) := rfl

theorem faced_answered (hsent : sent l = true) (hfate : fates n = .answered) (s : σ) :
    (stmt l ready write next).faced sent fates n s = (next s).faced sent fates (n + 1) (write s) := by
  simp only [faced, hsent, hfate, if_true]

theorem faced_refused (hsent : sent l = true) (hfate : fates n = .refused) (s : σ) :
    (stmt l ready write next).faced sent fates n s = (none, n + 1, s) := by
  simp only [faced, hsent, hfate, if_true]

theorem faced_lost (hsent : sent l = true) (hfate : fates n = .lost) (s : σ) :
    (stmt l ready write next).faced sent fates n s = (none, n + 1, write s) := by
  simp only [faced, hsent, hfate, if_true]

theorem faced_unsent (hsent : sent l = false) (s : σ) :
    (stmt l ready write next).faced sent fates n s = (next s).faced sent fates n (write s) := by
  simp only [faced, hsent, Bool.false_eq_true, if_false]

/-- A statement that only reads leaves the store as it is, whatever becomes of it. -/
theorem faced_read_unanswered (hsent : sent l = true) (hfate : fates n ≠ .answered) (s : σ) :
    (stmt l ready id next).faced sent fates n s = (none, n + 1, s) := by
  cases hcase : fates n with
  | answered => exact absurd hcase hfate
  | refused => exact faced_refused hsent hcase s
  | lost => exact faced_lost hsent hcase s

end

/-- A sequence fails where its first part does, or where the rest does from there on. -/
theorem faced_bind (sent : L → Bool) (fates : Nat → Fate) (t : Task L σ α) (f : α → Task L σ β)
    (n : Nat) (s : σ) :
    (t >>= f).faced sent fates n s =
      match t.faced sent fates n s with
      | (some a, n', s') => (f a).faced sent fates n' s'
      | (none, n', s') => (none, n', s') := by
  induction t generalizing n s with
  | done a => rfl
  | stmt l ready write next ih =>
    rw [stmt_bind]
    simp only [faced]
    split
    · split
      · exact ih s (n + 1) (write s)
      · rfl
      · rfl
    · exact ih s n (write s)

end Task

end concurrent
