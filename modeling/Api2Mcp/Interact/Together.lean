import Api2Mcp.Concurrent.Path
import Api2Mcp.Interact.Prog
import Mathlib.Data.List.Forall2

namespace interact

open concurrent

/-- A program among several: it waits for a permit, runs, or has ended. -/
inductive Lane (Q : Type) (A : Q → Type) (α : Type) where
  | queued (p : Prog Q A α)
  | running (p : Prog Q A α)
  | finished

/-- What happens next: a lane gets its permit, is answered, or ends. -/
inductive Move (Q : Type) (A : Q → Type) (α : Type) where
  | acquire (i : Nat)
  | answer (i : Nat) (e : Event Q A)
  | finish (i : Nat) (a : α)

/-- Several programs, each with the key of its permits, and a slot for what
each ends with. -/
structure Together (κ Q : Type) (A : Q → Type) (α : Type) where
  lanes : List (κ × Lane Q A α)
  slots : List (Option α)

variable {κ Q : Type} {A : Q → Type} {α : Type}

def Lane.is_running : Lane Q A α → Bool
  | .running _ => true
  | _ => false

def Lane.is_finished : Lane Q A α → Bool
  | .finished => true
  | _ => false

/-- The events of one lane. -/
def own (i : Nat) (moves : List (Move Q A α)) : List (Event Q A) :=
  moves.filterMap fun move =>
    match move with
    | .answer j e => if j = i then some e else none
    | _ => none

theorem own_append (i : Nat) (moves moves' : List (Move Q A α)) :
    own i (moves ++ moves') = own i moves ++ own i moves' := List.filterMap_append

theorem own_answer (i : Nat) (e : Event Q A) : own i [(.answer i e : Move Q A α)] = [e] := by
  simp [own]

namespace Together

/-- Every lane waits, no slot is filled. -/
def start (items : List (κ × Prog Q A α)) : Together κ Q A α where
  lanes := items.map fun item => (item.1, .queued item.2)
  slots := items.map fun _ => none

/-- Every lane has ended. -/
def Complete (s : Together κ Q A α) : Prop := ∀ lane ∈ s.lanes, lane.2 = .finished

/-- A running lane is stuck, and takes all the others with it. -/
def Broken (s : Together κ Q A α) : Prop := ∃ key p, (key, .running p) ∈ s.lanes ∧ p.Stuck

/-- Nothing happens any more. -/
def Over (s : Together κ Q A α) : Prop := s.Complete ∨ s.Broken

def results (s : Together κ Q A α) : Option (List α) := s.slots.mapM id

/-- What a lane has done of its program. -/
def Follows (p : Prog Q A α) (events : List (Event Q A)) : Lane Q A α → Option α → Prop
  | .queued p', slot => p' = p ∧ events = [] ∧ slot = none
  | .running p', slot => p.Emits events p' ∧ slot = none
  | .finished, slot => ∃ a, p.Emits events (.done a) ∧ slot = some a

theorem results_eq_some {s : Together κ Q A α} {rs : List α} :
    s.results = some rs ↔ s.slots = rs.map some := by
  have hmap : ∀ (slots : List (Option α)) (rs : List α),
      slots.mapM id = some rs ↔ slots = rs.map some := by
    intro slots
    induction slots with
    | nil =>
      intro rs
      cases rs <;> simp [List.mapM_nil]
    | cons slot slots ih =>
      intro rs
      simp only [List.mapM_cons, Option.bind_eq_bind, Option.bind_eq_some_iff, Option.pure_def,
        Option.some.injEq, ih]
      constructor
      · rintro ⟨a, rfl, rest, rfl, rfl⟩
        rfl
      · intro hcons
        obtain _ | ⟨a, rest⟩ := rs
        · cases hcons
        · rw [List.map_cons, List.cons.injEq] at hcons
          exact ⟨a, hcons.1, rest, hcons.2, rfl⟩
  exact hmap _ _

/-- Every lane follows its program, whatever the others do, and its slot holds
what it ended with. -/
structure Tracks (items : List (κ × Prog Q A α)) (moves : List (Move Q A α))
    (s : Together κ Q A α) : Prop where
  lanes : s.lanes.length = items.length
  slots : s.slots.length = items.length
  lane : ∀ i key p, items[i]? = some (key, p) → ∃ lane slot, s.lanes[i]? = some (key, lane) ∧
    s.slots[i]? = some slot ∧ Follows p (own i moves) lane slot
  finished : ∀ i a, .finish i a ∈ moves ↔ s.slots[i]? = some (some a)

theorem tracks_start (items : List (κ × Prog Q A α)) : Tracks items [] (start items) where
  lanes := List.length_map _
  slots := List.length_map _
  lane i key p hitem := by
    refine ⟨.queued p, none, ?_, ?_, rfl, rfl, rfl⟩
    · simp only [start, List.getElem?_map, hitem, Option.map_some]
    · simp only [start, List.getElem?_map, hitem, Option.map_some]
  finished i a := by
    simp only [start, List.getElem?_map, List.not_mem_nil, false_iff]
    cases items[i]? <;> simp

/-- A lane that does something follows its program on, and the others stay
where they are. -/
theorem Tracks.set {items : List (κ × Prog Q A α)} {moves : List (Move Q A α)}
    {s : Together κ Q A α} (h : Tracks items moves s) {i : Nat} {key : κ} {p : Prog Q A α}
    {move : Move Q A α} {after : Lane Q A α} {slots : List (Option α)} {slot : Option α}
    (hitem : items[i]? = some (key, p)) (hlen : slots.length = items.length)
    (hslot : slots[i]? = some slot) (hsame : ∀ j, j ≠ i → slots[j]? = s.slots[j]?)
    (hquiet : ∀ j, j ≠ i → own j [move] = []) (hfollows : Follows p (own i (moves ++ [move])) after slot)
    (hfinished : ∀ j a, .finish j a ∈ moves ++ [move] ↔ slots[j]? = some (some a)) :
    Tracks items (moves ++ [move]) ⟨s.lanes.set i (key, after), slots⟩ where
  lanes := (List.length_set).trans h.lanes
  slots := hlen
  lane j key' p' hitem' := by
    by_cases hji : j = i
    · subst hji
      obtain ⟨rfl, rfl⟩ : key = key' ∧ p = p' := by
        rw [hitem] at hitem'
        simpa using hitem'
      obtain ⟨hlt, _⟩ := List.getElem?_eq_some_iff.mp hitem
      exact ⟨after, slot, List.getElem?_set_self (by rw [h.lanes]; exact hlt), hslot, hfollows⟩
    · obtain ⟨lane, slot', hlane, hslot', hlaneFollows⟩ := h.lane j key' p' hitem'
      refine ⟨lane, slot', ?_, (hsame j hji).trans hslot', ?_⟩
      · rw [List.getElem?_set_ne (Ne.symm hji)]
        exact hlane
      · rw [own_append, hquiet j hji, List.append_nil]
        exact hlaneFollows
  finished := hfinished

/-- The lane a move is of has an item. -/
theorem Tracks.item {items : List (κ × Prog Q A α)} {moves : List (Move Q A α)}
    {s : Together κ Q A α} (h : Tracks items moves s) {i : Nat} {key : κ} {lane : Lane Q A α}
    (hlane : s.lanes[i]? = some (key, lane)) : ∃ p slot, items[i]? = some (key, p) ∧
      s.slots[i]? = some slot ∧ Follows p (own i moves) lane slot := by
  obtain ⟨hlt, _⟩ := List.getElem?_eq_some_iff.mp hlane
  rw [h.lanes] at hlt
  have hget : items[i]? = some (items[i].1, items[i].2) := List.getElem?_eq_getElem hlt
  obtain ⟨lane', slot, hlane', hslot, hfollows⟩ := h.lane i _ _ hget
  rw [hlane, Option.some.injEq, Prod.mk.injEq] at hlane'
  obtain ⟨hkey, rfl⟩ := hlane'
  exact ⟨items[i].2, slot, by rw [hget, hkey], hslot, hfollows⟩

/-- When every lane has ended there is a result for each, its own. -/
theorem Tracks.results {items : List (κ × Prog Q A α)} {moves : List (Move Q A α)}
    {s : Together κ Q A α} (h : Tracks items moves s) (hcomplete : s.Complete) :
    ∃ rs, s.results = some rs := by
  have hfilled : ∀ slot ∈ s.slots, ∃ a, slot = some a := by
    intro slot hslot
    obtain ⟨i, hi, hget⟩ := List.getElem_of_mem hslot
    have hlt : i < s.lanes.length := by rwa [h.lanes, ← h.slots]
    obtain ⟨⟨key, lane⟩, hlane⟩ : ∃ lane, s.lanes[i]? = some lane :=
      ⟨_, List.getElem?_eq_getElem hlt⟩
    obtain ⟨p, slot', hitem, hslot', hfollows⟩ := h.item hlane
    obtain rfl : lane = .finished := hcomplete _ (List.mem_of_getElem? hlane)
    obtain ⟨a, _, rfl⟩ := hfollows
    rw [List.getElem?_eq_getElem hi, hget, Option.some.injEq] at hslot'
    exact ⟨a, hslot'⟩
  have hall : ∀ slots : List (Option α), (∀ slot ∈ slots, ∃ a, slot = some a) →
      ∃ rs : List α, slots = rs.map some := by
    intro slots hslots
    induction slots with
    | nil => exact ⟨[], rfl⟩
    | cons slot slots ih =>
      obtain ⟨a, rfl⟩ := hslots slot List.mem_cons_self
      obtain ⟨rs, rfl⟩ := ih fun slot hmem => hslots slot (List.mem_cons_of_mem _ hmem)
      exact ⟨a :: rs, rfl⟩
  obtain ⟨rs, hrs⟩ := hall _ hfilled
  exact ⟨rs, results_eq_some.mpr hrs⟩

/-- A lane that is stuck leaves no results. -/
theorem Tracks.no_results {items : List (κ × Prog Q A α)} {moves : List (Move Q A α)}
    {s : Together κ Q A α} (h : Tracks items moves s) (hbroken : s.Broken) : s.results = none := by
  obtain ⟨key, p, hmem, _⟩ := hbroken
  obtain ⟨i, hi, hlane⟩ := List.getElem_of_mem hmem
  obtain ⟨_, slot, _, hslot, _, rfl⟩ := h.item (List.getElem?_eq_some_iff.mpr ⟨hi, hlane⟩)
  refine Option.eq_none_iff_forall_ne_some.mpr fun rs hrs => ?_
  rw [results_eq_some.mp hrs, List.getElem?_map, Option.map_eq_some_iff] at hslot
  obtain ⟨_, _, hnone⟩ := hslot
  cases hnone

/-- The results are what the lanes ended with, in the order of the items. -/
theorem Tracks.getElem?_results {items : List (κ × Prog Q A α)} {moves : List (Move Q A α)}
    {s : Together κ Q A α} (h : Tracks items moves s) {rs : List α} (hrs : s.results = some rs) :
    rs.length = items.length ∧ ∀ i a, rs[i]? = some a ↔ .finish i a ∈ moves := by
  rw [results_eq_some] at hrs
  constructor
  · rw [← h.slots, hrs, List.length_map]
  · intro i a
    rw [h.finished, hrs, List.getElem?_map]
    cases rs[i]? <;> simp

/-- A lane's result is one that its own program ends with. -/
theorem Tracks.emits {items : List (κ × Prog Q A α)} {moves : List (Move Q A α)}
    {s : Together κ Q A α} (h : Tracks items moves s) {i : Nat} {key : κ} {p : Prog Q A α} {a : α}
    (hitem : items[i]? = some (key, p)) (hfinish : .finish i a ∈ moves) :
    p.Emits (own i moves) (.done a) := by
  obtain ⟨lane, slot, _, hslot, hfollows⟩ := h.lane i key p hitem
  rw [h.finished, hslot, Option.some.injEq] at hfinish
  subst hfinish
  cases lane with
  | queued p' => exact nomatch hfollows.2.2
  | running p' => exact nomatch hfollows.2
  | finished =>
    obtain ⟨b, hemits, hb⟩ := hfollows
    rw [Option.some.injEq] at hb
    rwa [hb]

/-- The events of a lane are a run of its program. -/
theorem Tracks.runs {items : List (κ × Prog Q A α)} {moves : List (Move Q A α)}
    {s : Together κ Q A α} (h : Tracks items moves s) {i : Nat} {key : κ} {p : Prog Q A α}
    (hitem : items[i]? = some (key, p)) : p.Runs (own i moves) := by
  obtain ⟨lane, slot, _, _, hfollows⟩ := h.lane i key p hitem
  cases lane with
  | queued p' =>
    rw [hfollows.2.1]
    exact p.runs_nil
  | running p' => exact ⟨p', hfollows.1⟩
  | finished =>
    obtain ⟨a, hemits, _⟩ := hfollows
    exact ⟨_, hemits⟩

section

variable [DecidableEq κ] (limit : κ → Option Nat)

/-- The lanes with a permit of the key. -/
def in_flight (s : Together κ Q A α) (key : κ) : Nat :=
  s.lanes.countP fun lane => decide (lane.1 = key) && lane.2.is_running

/-- The lanes of the key that have not ended. -/
def unfinished (s : Together κ Q A α) (key : κ) : Nat :=
  s.lanes.countP fun lane => decide (lane.1 = key) && !lane.2.is_finished

inductive Step : Together κ Q A α → Move Q A α → Together κ Q A α → Prop
  | acquire {s : Together κ Q A α} {i : Nat} {key : κ} {p : Prog Q A α}
      (hlane : s.lanes[i]? = some (key, .queued p)) (hfree : ∀ n ∈ limit key, s.in_flight key < n) :
      Step s (.acquire i) { s with lanes := s.lanes.set i (key, .running p) }
  | answer {s : Together κ Q A α} {i : Nat} {key : κ} {q : Q} {next : A q → Prog Q A α} {a : A q}
      (hlane : s.lanes[i]? = some (key, .running (.ask q next))) :
      Step s (.answer i ⟨q, a⟩) { s with lanes := s.lanes.set i (key, .running (next a)) }
  | finish {s : Together κ Q A α} {i : Nat} {key : κ} {a : α}
      (hlane : s.lanes[i]? = some (key, .running (.done a))) :
      Step s (.finish i a) { lanes := s.lanes.set i (key, .finished), slots := s.slots.set i (some a) }

variable {limit}

/-- No key has more lanes in flight than it has permits. -/
def WithinLimits (limit : κ → Option Nat) (s : Together κ Q A α) : Prop :=
  ∀ key, ∀ n ∈ limit key, s.in_flight key ≤ n

theorem in_flight_start (items : List (κ × Prog Q A α)) (key : κ) : (start items).in_flight key = 0 := by
  simp [in_flight, start, Lane.is_running, List.countP_eq_zero]

/-- How the lanes in flight change when one lane does. -/
theorem in_flight_set {s : Together κ Q A α} {i : Nat} {key : κ} {before : Lane Q A α}
    (hlane : s.lanes[i]? = some (key, before)) (after : Lane Q A α) (slots : List (Option α)) (other : κ) :
    (⟨s.lanes.set i (key, after), slots⟩ : Together κ Q A α).in_flight other +
        (if key = other ∧ before.is_running then 1 else 0) =
      s.in_flight other + if key = other ∧ after.is_running then 1 else 0 := by
  obtain ⟨hlt, hget⟩ := List.getElem?_eq_some_iff.mp hlane
  have hcount := List.countP_set (p := fun lane : κ × Lane Q A α =>
    decide (lane.1 = other) && lane.2.is_running) (a := (key, after)) hlt
  rw [hget] at hcount
  simp only [Bool.and_eq_true, decide_eq_true_eq] at hcount
  have hpos : (if key = other ∧ before.is_running then 1 else 0) ≤ s.in_flight other := by
    split
    · rename_i hrunning
      refine List.countP_pos_iff.mpr ⟨s.lanes[i], List.getElem_mem hlt, ?_⟩
      simp [hget, hrunning]
    · exact Nat.zero_le _
  unfold in_flight at hpos ⊢
  dsimp only
  omega

theorem within_step {s s' : Together κ Q A α} {move : Move Q A α} (h : WithinLimits limit s)
    (hstep : Step limit s move s') : WithinLimits limit s' := by
  intro other n hn
  have hbefore := h other n hn
  cases hstep with
  | @acquire i key p hlane hfree =>
    have hset := in_flight_set hlane (.running p) s.slots other
    simp only [Lane.is_running, Bool.false_eq_true, and_false, if_false, and_true] at hset
    by_cases hkey : key = other
    · subst hkey
      have hroom := hfree n hn
      simp only [if_true] at hset
      omega
    · simp only [hkey, if_false] at hset
      omega
  | @answer i key q next a hlane =>
    have hset := in_flight_set hlane (.running (next a)) s.slots other
    simp only [Lane.is_running] at hset
    omega
  | @finish i key a hlane =>
    have hset := in_flight_set hlane .finished (s.slots.set i (some a)) other
    simp only [Lane.is_running, Bool.false_eq_true, and_false, if_false, and_true] at hset
    omega

/-- The run rule for the permits. -/
theorem within_limits {items : List (κ × Prog Q A α)} {moves : List (Move Q A α)}
    {s : Together κ Q A α} (hpath : Path (Step limit) (start items) moves s) :
    WithinLimits limit s :=
  hpath.inv (fun _ _ _ h hstep => within_step h hstep)
    (fun key n _ => by rw [in_flight_start]; exact Nat.zero_le n)

/-- A step ends a lane, or leaves as many of them as there were. -/
theorem unfinished_step {s s' : Together κ Q A α} {move : Move Q A α} (hstep : Step limit s move s')
    (key : κ) : s'.unfinished key ≤ s.unfinished key := by
  have hset : ∀ {i : Nat} {key' : κ} {before after : Lane Q A α} (slots : List (Option α)),
      s.lanes[i]? = some (key', before) → before.is_finished = false →
        (⟨s.lanes.set i (key', after), slots⟩ : Together κ Q A α).unfinished key ≤ s.unfinished key := by
    intro i key' before after slots hlane hbefore
    obtain ⟨hlt, hget⟩ := List.getElem?_eq_some_iff.mp hlane
    have hcount := List.countP_set (p := fun lane : κ × Lane Q A α =>
      decide (lane.1 = key) && !lane.2.is_finished) (a := (key', after)) hlt
    rw [hget] at hcount
    simp only [hbefore, Bool.not_false, Bool.and_true, decide_eq_true_eq] at hcount
    have hpos : (if key' = key then 1 else 0) ≤ s.unfinished key := by
      split
      · rename_i hkey
        refine List.countP_pos_iff.mpr ⟨s.lanes[i], List.getElem_mem hlt, ?_⟩
        simp [hget, hkey, hbefore]
      · exact Nat.zero_le _
    unfold unfinished at hpos ⊢
    dsimp only
    rw [hcount]
    by_cases hkey : key' = key
    · simp only [hkey, decide_true, Bool.true_and, if_true] at hpos ⊢
      split <;> omega
    · simp [hkey]
  cases hstep with
  | acquire hlane _ => exact hset _ hlane rfl
  | answer hlane => exact hset _ hlane rfl
  | finish hlane => exact hset _ hlane rfl

theorem tracks_step {items : List (κ × Prog Q A α)} {moves : List (Move Q A α)}
    {s s' : Together κ Q A α} {move : Move Q A α} (h : Tracks items moves s)
    (hstep : Step limit s move s') : Tracks items (moves ++ [move]) s' := by
  cases hstep with
  | @acquire i key p hlane _ =>
    obtain ⟨p', slot, hitem, hslot, rfl, hown, rfl⟩ := h.item hlane
    refine h.set hitem h.slots hslot (fun _ _ => rfl) (fun _ _ => rfl) ⟨?_, rfl⟩ fun j a => ?_
    · rw [own_append, hown]
      exact .nil _
    · rw [List.mem_append, ← h.finished j a]
      simp
  | @answer i key q next a hlane =>
    obtain ⟨p, slot, hitem, hslot, hemits, rfl⟩ := h.item hlane
    refine h.set hitem h.slots hslot (fun _ _ => rfl) (fun j hji => ?_) ⟨?_, rfl⟩ fun j b => ?_
    · simp [own, Ne.symm hji]
    · rw [own_append, own_answer]
      exact hemits.append (.cons (.nil _))
    · rw [List.mem_append, ← h.finished j b]
      simp
  | @finish i key a hlane =>
    obtain ⟨p, slot, hitem, hslot, hemits, rfl⟩ := h.item hlane
    obtain ⟨hlt, _⟩ := List.getElem?_eq_some_iff.mp hslot
    refine h.set hitem (List.length_set.trans h.slots) (List.getElem?_set_self hlt)
      (fun j hji => List.getElem?_set_ne (Ne.symm hji)) (fun _ _ => rfl) ⟨a, ?_, rfl⟩ fun j b => ?_
    · rw [own_append]
      simpa [own] using hemits
    · rw [List.mem_append, h.finished j b]
      by_cases hji : j = i
      · subst hji
        simp [hslot, List.getElem?_set_self hlt, eq_comm]
      · simp [List.getElem?_set_ne (Ne.symm hji), hji]

/-- The run rule for the programs. -/
theorem tracks {items : List (κ × Prog Q A α)} {moves : List (Move Q A α)} {s : Together κ Q A α}
    (hpath : Path (Step limit) (start items) moves s) : Tracks items moves s :=
  hpath.history (fun _ _ _ _ h hstep => tracks_step h hstep) (tracks_start items)

variable (limit) in
/-- A lane that has its permit may go on while the others rest. -/
theorem path_of_running {s : Together κ Q A α} {i : Nat} {key : κ} {p rest : Prog Q A α}
    {evs : List (Event Q A)} (hlane : s.lanes[i]? = some (key, .running p)) (hemits : p.Emits evs rest) :
    ∃ moves, Path (Step limit) s moves ⟨s.lanes.set i (key, .running rest), s.slots⟩ ∧ own i moves = evs := by
  induction hemits generalizing s with
  | nil p =>
    refine ⟨[], ?_, rfl⟩
    obtain ⟨hlt, hget⟩ := List.getElem?_eq_some_iff.mp hlane
    rw [← hget, List.set_getElem_self hlt]
    exact .nil s
  | @cons q next b evs rest _ ih =>
    obtain ⟨hlt, _⟩ := List.getElem?_eq_some_iff.mp hlane
    obtain ⟨moves, hpath, hown⟩ := ih
      (s := ⟨s.lanes.set i (key, .running (next b)), s.slots⟩) (List.getElem?_set_self hlt)
    refine ⟨.answer i ⟨q, b⟩ :: moves, .cons (.answer hlane) ?_, ?_⟩
    · simpa only [List.set_set] using hpath
    · rw [← hown]
      exact List.filterMap_cons_some (if_pos rfl)

variable (limit) in
/-- It may run to its end. -/
theorem path_of_emits {s : Together κ Q A α} {i : Nat} {key : κ} {p : Prog Q A α} {a : α}
    {evs : List (Event Q A)} (hlane : s.lanes[i]? = some (key, .running p))
    (hemits : p.Emits evs (.done a)) : ∃ moves, Path (Step limit) s moves
      ⟨s.lanes.set i (key, .finished), s.slots.set i (some a)⟩ ∧ own i moves = evs := by
  obtain ⟨moves, hpath, hown⟩ := path_of_running limit hlane hemits
  obtain ⟨hlt, _⟩ := List.getElem?_eq_some_iff.mp hlane
  refine ⟨moves ++ [.finish i a], hpath.append (.cons (.finish (List.getElem?_set_self hlt)) ?_), ?_⟩
  · simp only [List.set_set]
    exact .nil _
  · rw [own_append, hown]
    exact List.append_nil evs

/-- A program that ends may be run alone. -/
theorem alone (hlimit : ∀ key n, limit key = some n → 0 < n) {key : κ} {p : Prog Q A α} {a : α}
    {evs : List (Event Q A)} (hemits : p.Emits evs (.done a)) :
    ∃ moves s, Path (Step limit) (start [(key, p)]) moves s ∧ s.Complete ∧ s.results = some [a] ∧
      own 0 moves = evs := by
  have hfree : ∀ n ∈ limit key, (start [(key, p)]).in_flight key < n := by
    intro n hn
    rw [in_flight_start]
    exact hlimit _ _ hn
  have hlane : (⟨[(key, .running p)], [none]⟩ : Together κ Q A α).lanes[0]? = some (key, .running p) := rfl
  obtain ⟨moves, hpath, hown⟩ := path_of_emits limit hlane hemits
  refine ⟨.acquire 0 :: moves, _, .cons (.acquire rfl hfree) hpath, ?_, rfl, hown⟩
  intro lane hlane
  rw [List.mem_singleton.mp hlane]

/-- Programs that end may be run one after the other. -/
theorem one_by_one (hlimit : ∀ key n, limit key = some n → 0 < n) {items : List (κ × Prog Q A α)}
    {as : List α} (h : List.Forall₂ (fun item a => ∃ evs, item.2.Emits evs (.done a)) items as) :
    ∃ moves s, Path (Step limit) (start items) moves s ∧ s.Complete ∧ s.results = some as := by
  -- Some lanes have ended, the others wait; the induction is on those that wait.
  have hrest : ∀ (ended : List (κ × Lane Q A α)) (before : List α),
      ended.length = before.length → (∀ lane ∈ ended, lane.2 = .finished) →
        ∃ moves s, Path (Step limit)
          ⟨ended ++ (start items).lanes, before.map some ++ (start items).slots⟩ moves s ∧
            s.Complete ∧ s.slots = (before ++ as).map some := by
    induction h with
    | nil =>
      intro ended before _ hended
      refine ⟨[], _, .nil _, ?_, by simp [start]⟩
      simpa [Complete, start] using hended
    | @cons item a items as hitem _ ih =>
      intro ended before hlen hended
      obtain ⟨evs, hemits⟩ := hitem
      let s : Together κ Q A α :=
        ⟨ended ++ (start (item :: items)).lanes, before.map some ++ (start (item :: items)).slots⟩
      have hlane : s.lanes[ended.length]? = some (item.1, .queued item.2) := by simp [s, start]
      have hfree : ∀ n ∈ limit item.1, s.in_flight item.1 < n := by
        intro n hn
        have hzero : s.in_flight item.1 = 0 := by
          refine List.countP_eq_zero.mpr fun lane hmem => ?_
          obtain hmem | hmem := List.mem_append.mp hmem
          · simp [hended lane hmem, Lane.is_running]
          · obtain ⟨other, _, rfl⟩ := List.mem_map.mp hmem
            simp [Lane.is_running]
        rw [hzero]
        exact hlimit _ _ hn
      have hrunning : (s.lanes.set ended.length (item.1, .running item.2))[ended.length]? =
          some (item.1, .running item.2) := List.getElem?_set_self (by simp [s, start])
      obtain ⟨moves, hpath, _⟩ := path_of_emits limit
        (s := { s with lanes := s.lanes.set ended.length (item.1, .running item.2) }) hrunning hemits
      obtain ⟨moves', last, hpath', hcomplete, hslots⟩ :=
        ih (ended ++ [(item.1, .finished)]) (before ++ [a]) (by simp [hlen]) (by
          intro lane hmem
          obtain hmem | hmem := List.mem_append.mp hmem
          · exact hended lane hmem
          · rw [List.mem_singleton.mp hmem])
      refine ⟨.acquire ended.length :: (moves ++ moves'), last, .cons (.acquire hlane hfree) ?_,
        hcomplete, by simpa using hslots⟩
      refine hpath.append ?_
      simpa [s, start, hlen] using hpath'
  obtain ⟨moves, s, hpath, hcomplete, hslots⟩ := hrest [] [] rfl (by simp)
  exact ⟨moves, s, by simpa using hpath, hcomplete, results_eq_some.mpr (by simpa using hslots)⟩

end

end Together

end interact
