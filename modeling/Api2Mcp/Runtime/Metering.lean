import Api2Mcp.Collections.Pointwise
import Api2Mcp.Concurrent.Path
import Api2Mcp.Runtime.Commit

namespace api2mcp.runtime.budget

open numeric concurrent
open api2mcp.http

/-- Where a `reserve_calls` is: at its entry, before its `fetch_add`, before
its load, in the compare-exchange loop with the count it last saw, or back. -/
inductive Pc where
  | entry
  | fetch_add
  | load (max : u32)
  | compare_exchange (max current : u32)
  | returned (result : Except BudgetTrip Unit)
  deriving DecidableEq

/-- One call of `reserve_calls`. -/
structure Reservation where
  n : u32
  pc : Pc
  deriving DecidableEq

/-- What a `reserve_calls` does up to and including its next access to the
shared meter or the clock. -/
def Reservation.step (now : Instant) (meter : BudgetMeter) (r : Reservation) :
    BudgetMeter × Reservation :=
  match r.pc with
  | .entry =>
    if meter.deadline_passed now then (meter, { r with pc := .returned (.error ⟨.WallClock⟩) })
    else
      match meter.max_calls with
      | none => (meter, { r with pc := .fetch_add })
      | some max => (meter, { r with pc := .load max })
  | .fetch_add =>
    ({ meter with calls_used := meter.calls_used + r.n }, { r with pc := .returned (.ok ()) })
  | .load max => (meter, { r with pc := .compare_exchange max meter.calls_used })
  | .compare_exchange max current =>
    match checked_add current r.n with
    | none => (meter, { r with pc := .returned (.error ⟨.Calls⟩) })
    | some next =>
      if max < next then (meter, { r with pc := .returned (.error ⟨.Calls⟩) })
      else if meter.calls_used = current then
        ({ meter with calls_used := next }, { r with pc := .returned (.ok ()) })
      else (meter, { r with pc := .compare_exchange max meter.calls_used })
  | .returned _ => (meter, r)

/-- A meter and the reservations under way on it, as many as there may be. -/
structure Metering where
  meter : BudgetMeter
  reservations : List Reservation
  deriving DecidableEq

/-- What happens to a meter: a step of a reservation, or a commit of a batch. -/
inductive MeterEvent where
  | reserve (i : Nat) (now : Instant)
  | commit_bytes (ordered : List (Nat × u64))
  | commit_pages (ordered : List (Nat × u32))

def Metering.next (s : Metering) : MeterEvent → Metering
  | .reserve i now =>
    match s.reservations[i]? with
    | none => s
    | some r =>
      let (meter, r) := r.step now s.meter
      ⟨meter, s.reservations.set i r⟩
  | .commit_bytes ordered => { s with meter := (s.meter.commit_bytes_in_order ordered).2 }
  | .commit_pages ordered => { s with meter := (s.meter.commit_pages_in_order ordered).2 }

def MeterStep (s : Metering) (e : MeterEvent) (s' : Metering) : Prop := s.next e = s'

/-- A new meter, and reservations of any sizes that have not begun. -/
def Metering.start (meter : BudgetMeter) (sizes : List u32) : Metering :=
  ⟨meter, sizes.map fun n => ⟨n, .entry⟩⟩

/-- The size of a reservation that was admitted. -/
def Reservation.admitted (r : Reservation) : Nat :=
  if r.pc = .returned (.ok ()) then r.n.toNat else 0

/-- The calls are the admitted ones, and every axis keeps to its limit. -/
structure WithinLimits (s : Metering) : Prop where
  calls : s.meter.calls_used.toNat = (s.reservations.map Reservation.admitted).sum
  calls_le : ∀ max ∈ s.meter.max_calls, s.meter.calls_used ≤ max
  bytes_le : ∀ max ∈ s.meter.max_bytes, s.meter.bytes_used ≤ max
  pages_le : ∀ max ∈ s.meter.max_pages, s.meter.pages_used ≤ max

/-- A step is right if it keeps to the limits, if a reservation it refuses
changed nothing, and if a commit charges the longest prefix that fits. -/
def Right (s : Metering) (e : MeterEvent) (s' : Metering) : Prop :=
  WithinLimits s' ∧
    match e with
    | .reserve i _ => ∀ n trip, s'.reservations[i]? = some ⟨n, .returned (.error trip)⟩ →
        s'.meter = s.meter
    | .commit_bytes ordered => ChargesPrefix s.meter.max_bytes s.meter.bytes_used ordered
        ((s.meter.commit_bytes_in_order ordered).1, s'.meter.bytes_used)
    | .commit_pages ordered => ChargesPrefix s.meter.max_pages s.meter.pages_used ordered
        ((s.meter.commit_pages_in_order ordered).1, s'.meter.pages_used)

/-- The step adds nothing that wraps: a reservation without a limit, or a
commit without one or under the greatest there is. -/
def NothingWraps (s : Metering) : MeterEvent → Prop
  | .reserve i _ => ∀ n, s.reservations[i]? = some ⟨n, .fetch_add⟩ →
      s.meter.calls_used.toNat + n.toNat < 2 ^ 32
  | .commit_bytes ordered => Room s.meter.max_bytes s.meter.bytes_used ordered
  | .commit_pages ordered => Room s.meter.max_pages s.meter.pages_used ordered

/-- A reservation is only where the limit takes it. -/
def AtLimit (meter : BudgetMeter) (r : Reservation) : Prop :=
  match r.pc with
  | .fetch_add => meter.max_calls = none
  | .load max | .compare_exchange max _ => meter.max_calls = some max
  | _ => True

/-- The invariant of a run. -/
structure Metered (s : Metering) : Prop extends WithinLimits s where
  at_limit : ∀ r ∈ s.reservations, AtLimit s.meter r

theorem metered_start (budgets : model.Budgets) (now : Instant) (utc_now : DateTime)
    (sizes : List u32) : Metered (.start (.new budgets now utc_now) sizes) where
  calls := by
    have hnone : ∀ n : u32, Reservation.admitted ⟨n, .entry⟩ = 0 := fun _ => rfl
    simp [Metering.start, BudgetMeter.new, hnone, Function.comp_def]
  calls_le max _ := Nat.zero_le max.toNat
  bytes_le max _ := Nat.zero_le max.toNat
  pages_le max _ := Nat.zero_le max.toNat
  at_limit r hr := by
    simp only [Metering.start, List.mem_map] at hr
    obtain ⟨n, _, rfl⟩ := hr
    trivial

/-- What one reservation does, once: it is elsewhere, it was admitted without a
limit, or it was admitted below one. -/
theorem Reservation.step_cases {meter : BudgetMeter} {r : Reservation} (now : Instant)
    (hlimit : AtLimit meter r) :
    (r.pc ≠ .fetch_add ∧ ∃ pc, r.step now meter = (meter, ⟨r.n, pc⟩) ∧ AtLimit meter ⟨r.n, pc⟩ ∧
      Reservation.admitted ⟨r.n, pc⟩ = r.admitted) ∨
    (r.pc = .fetch_add ∧ r.step now meter =
      ({ meter with calls_used := meter.calls_used + r.n }, ⟨r.n, .returned (.ok ())⟩)) ∨
    (r.pc ≠ .fetch_add ∧ r.admitted = 0 ∧ ∃ max next, meter.max_calls = some max ∧
      meter.calls_used.toNat + r.n.toNat = next.toNat ∧ next ≤ max ∧
      r.step now meter = ({ meter with calls_used := next }, ⟨r.n, .returned (.ok ())⟩)) := by
  obtain ⟨n, pc⟩ := r
  cases pc with
  | entry =>
    refine .inl ⟨by simp, ?_⟩
    unfold Reservation.step
    dsimp only
    split
    · exact ⟨_, rfl, trivial, rfl⟩
    · split
      · rename_i hnone
        exact ⟨_, rfl, hnone, rfl⟩
      · rename_i max hmax
        exact ⟨_, rfl, hmax, rfl⟩
  | fetch_add => exact .inr (.inl ⟨rfl, rfl⟩)
  | load max => exact .inl ⟨by simp, _, rfl, hlimit, rfl⟩
  | compare_exchange max current =>
    unfold Reservation.step
    dsimp only
    split
    · exact .inl ⟨by simp, _, rfl, trivial, rfl⟩
    rename_i next hnext
    split
    · exact .inl ⟨by simp, _, rfl, trivial, rfl⟩
    rename_i hle
    split
    · rename_i hcurrent
      refine .inr (.inr ⟨by simp, rfl, max, next, hlimit, ?_, BitVec.not_lt.mp hle, rfl⟩)
      rw [hcurrent]
      exact checked_add_eq_some.mp hnext
    · exact .inl ⟨by simp, _, rfl, hlimit, rfl⟩
  | returned result => exact .inl ⟨by simp, _, rfl, trivial, rfl⟩

theorem Metering.next_reserve {s : Metering} {i : Nat} {now : Instant} {r : Reservation}
    (hi : s.reservations[i]? = some r) :
    s.next (.reserve i now) =
      ⟨(r.step now s.meter).1, s.reservations.set i (r.step now s.meter).2⟩ := by
  simp only [Metering.next, hi]

/-- One reservation moved on, and with it the count. -/
theorem Metered.count_iff {s : Metering} (h : Metered s) {i : Nat} {r : Reservation}
    (hi : s.reservations[i]? = some r) (r' : Reservation) (calls : u32) :
    WithinLimits ⟨{ s.meter with calls_used := calls }, s.reservations.set i r'⟩ ↔
      calls.toNat + r.admitted = s.meter.calls_used.toNat + r'.admitted ∧
        ∀ max ∈ s.meter.max_calls, calls ≤ max := by
  have hsum := pointwise.sum_set Reservation.admitted r' hi
  have hcalls := h.calls
  constructor
  · intro hwithin
    have hcalls' := hwithin.calls
    dsimp only at hcalls'
    exact ⟨by omega, hwithin.calls_le⟩
  · rintro ⟨hcount, hle⟩
    exact ⟨by dsimp only; omega, hle, h.bytes_le, h.pages_le⟩

/-- The step lemma for a reservation. -/
theorem reserve_right_iff {s : Metering} {i : Nat} {now : Instant} (h : Metered s) :
    Right s (.reserve i now) (s.next (.reserve i now)) ↔ NothingWraps s (.reserve i now) := by
  cases hi : s.reservations[i]? with
  | none =>
    have hnext : s.next (.reserve i now) = s := by simp only [Metering.next, hi]
    rw [hnext]
    refine iff_of_true ⟨h.toWithinLimits, fun _ _ _ => rfl⟩ fun n hn => ?_
    rw [hi] at hn
    cases hn
  | some r =>
    have hlt : i < s.reservations.length := (List.getElem?_eq_some_iff.mp hi).1
    have hlimit := h.at_limit r (List.mem_of_getElem? hi)
    have hother : r.pc ≠ .fetch_add → NothingWraps s (.reserve i now) := by
      intro hpc n hn
      rw [hi, Option.some.injEq] at hn
      exact absurd (by rw [hn]) hpc
    rw [Metering.next_reserve hi]
    obtain ⟨hpc, pc, hstep, _, hadmitted⟩ | ⟨hpc, hstep⟩ |
      ⟨hpc, hadmitted, max, next, hmax, hnext, hle, hstep⟩ := r.step_cases now hlimit
    · rw [hstep]
      have hwithin := (h.count_iff hi _ s.meter.calls_used).mpr ⟨by rw [hadmitted], h.calls_le⟩
      exact iff_of_true ⟨hwithin, fun _ _ _ => rfl⟩ (hother hpc)
    · obtain ⟨n, rfl⟩ : ∃ n, r = ⟨n, .fetch_add⟩ := ⟨r.n, by rw [← hpc]⟩
      have hmax : s.meter.max_calls = none := hlimit
      rw [hstep]
      have hcount := h.count_iff hi ⟨n, .returned (.ok ())⟩ (s.meter.calls_used + n)
      constructor
      · intro hright m hm
        obtain ⟨heq, _⟩ := hcount.mp hright.1
        rw [hi, Option.some.injEq, Reservation.mk.injEq] at hm
        rw [← hm.1]
        exact toNat_add_eq_iff.mp heq
      · intro hwraps
        have hadd := toNat_add_eq_iff.mpr (hwraps n hi)
        refine ⟨hcount.mpr ⟨hadd, fun max hmem => ?_⟩, fun m trip hm => ?_⟩
        · rw [hmax] at hmem
          cases hmem
        · simp [List.getElem?_set_self hlt] at hm
    · rw [hstep]
      have hwithin := (h.count_iff hi ⟨r.n, .returned (.ok ())⟩ next).mpr ⟨?_, fun m hm => ?_⟩
      · refine iff_of_true ⟨hwithin, fun m trip hm => ?_⟩ (hother hpc)
        simp [List.getElem?_set_self hlt] at hm
      · have hsize : Reservation.admitted ⟨r.n, .returned (.ok ())⟩ = r.n.toNat := rfl
        omega
      · rw [hmax] at hm
        cases hm
        exact hle

/-- The invariant goes on holding. -/
theorem Metered.next {s : Metering} {e : MeterEvent} (h : Metered s)
    (hright : WithinLimits (s.next e)) : Metered (s.next e) := by
  refine ⟨hright, ?_⟩
  cases e with
  | reserve i now =>
    cases hi : s.reservations[i]? with
    | none =>
      have hnext : s.next (.reserve i now) = s := by simp only [Metering.next, hi]
      rw [hnext]
      exact h.at_limit
    | some r =>
      have hlimit := h.at_limit r (List.mem_of_getElem? hi)
      rw [Metering.next_reserve hi]
      intro r' hr'
      obtain ⟨_, pc, hstep, hat, _⟩ | ⟨_, hstep⟩ | ⟨_, _, max, next, _, _, _, hstep⟩ :=
        r.step_cases now hlimit
      all_goals
        rw [hstep] at hr' ⊢
        obtain hold | rfl := List.mem_or_eq_of_mem_set hr'
      · exact h.at_limit r' hold
      · exact hat
      · exact h.at_limit r' hold
      · trivial
      · exact h.at_limit r' hold
      · trivial
  | commit_bytes ordered => exact h.at_limit
  | commit_pages ordered => exact h.at_limit

/-- The step lemma: a step is right exactly when it adds nothing that wraps. -/
theorem right_iff {s s' : Metering} {e : MeterEvent} (h : Metered s) (hstep : MeterStep s e s') :
    Right s e s' ↔ NothingWraps s e := by
  obtain rfl := hstep
  cases e with
  | reserve i now => exact reserve_right_iff h
  | commit_bytes ordered =>
    have hiff := commit_in_order_iff s.meter.max_bytes s.meter.bytes_used ordered
    refine ⟨fun hright => hiff.mp hright.2, fun hroom => ⟨?_, hiff.mpr hroom⟩⟩
    refine ⟨h.calls, h.calls_le, fun max hmax => ?_, h.pages_le⟩
    have hmax' : s.meter.max_bytes = some max := hmax
    have hle := commit_in_order_le (by rw [← hmax']; exact hroom) (h.bytes_le max hmax)
    rw [← hmax'] at hle
    exact hle
  | commit_pages ordered =>
    have hiff := commit_in_order_iff s.meter.max_pages s.meter.pages_used ordered
    refine ⟨fun hright => hiff.mp hright.2, fun hroom => ⟨?_, hiff.mpr hroom⟩⟩
    refine ⟨h.calls, h.calls_le, h.bytes_le, fun max hmax => ?_⟩
    have hmax' : s.meter.max_pages = some max := hmax
    have hle := commit_in_order_le (by rw [← hmax']; exact hroom) (h.pages_le max hmax)
    rw [← hmax'] at hle
    exact hle

/-- Along every run on a new meter, in any interleaving: every step is right
exactly when none adds anything that wraps. -/
theorem metered_iff (budgets : model.Budgets) (created : Instant) (utc_now : DateTime)
    (sizes : List u32) (evs : List MeterEvent) (s : Metering) :
    Path (fun a e b => MeterStep a e b ∧ Right a e b)
        (.start (.new budgets created utc_now) sizes) evs s ↔
      Path (fun a e b => MeterStep a e b ∧ NothingWraps a e)
        (.start (.new budgets created utc_now) sizes) evs s := by
  refine Path.congr Metered ?_ (fun _ _ _ => right_iff) (metered_start ..)
  intro a e b h hstep hright
  obtain rfl := hstep
  exact h.next hright.1

/-- A reservation no other one meets is over after three accesses at most, and
does what `reserve_calls` says. -/
theorem reserve_calls_alone (meter : BudgetMeter) (now : Instant) (n : u32) :
    ∃ k ≤ 3, Path MeterStep ⟨meter, [⟨n, .entry⟩]⟩ (List.replicate k (.reserve 0 now))
      ⟨(meter.reserve_calls now n).2, [⟨n, .returned (meter.reserve_calls now n).1⟩]⟩ := by
  unfold BudgetMeter.reserve_calls
  by_cases hpassed : meter.deadline_passed now = true
  · rw [if_pos hpassed]
    refine ⟨1, by omega, .cons ?_ (.nil _)⟩
    simp [MeterStep, Metering.next, Reservation.step, hpassed]
  · rw [if_neg hpassed]
    have hentry : ∀ pc, (match meter.max_calls with | none => Pc.fetch_add | some max => .load max) = pc →
        MeterStep ⟨meter, [⟨n, .entry⟩]⟩ (.reserve 0 now) ⟨meter, [⟨n, pc⟩]⟩ := by
      rintro pc rfl
      cases hmax : meter.max_calls <;>
        simp [MeterStep, Metering.next, Reservation.step, hpassed, hmax]
    cases hmax : meter.max_calls with
    | none =>
      rw [hmax] at hentry
      refine ⟨2, by omega, .cons (hentry _ rfl) (.cons ?_ (.nil _))⟩
      simp [MeterStep, Metering.next, Reservation.step, hmax]
    | some max =>
      rw [hmax] at hentry
      have hload : MeterStep ⟨meter, [⟨n, .load max⟩]⟩ (.reserve 0 now)
          ⟨meter, [⟨n, .compare_exchange max meter.calls_used⟩]⟩ := rfl
      refine ⟨3, Nat.le_refl 3, .cons (hentry _ rfl) (.cons hload (.cons ?_ (.nil _)))⟩
      cases hnext : checked_add meter.calls_used n with
      | none => simp [MeterStep, Metering.next, Reservation.step, hnext]
      | some next =>
        by_cases hover : max < next
        · simp [MeterStep, Metering.next, Reservation.step, hnext, hover]
        · simp [MeterStep, Metering.next, Reservation.step, hnext, hover, hmax]

/-- Without a limit on the calls, two reservations of the greatest size leave a
count below either; under the greatest limit on the bytes, a commit that goes
over it is charged and leaves almost nothing on the meter. -/
theorem counters_wrap :
    (∃ s, Path MeterStep (.start (.new {} 0 0) [.allOnes 32, .allOnes 32])
        [.reserve 0 0, .reserve 0 0, .reserve 1 0, .reserve 1 0] s ∧
      s.meter.calls_used.toNat = 2 ^ 32 - 2 ∧
      (s.reservations.map Reservation.admitted).sum = 2 * (2 ^ 32 - 1)) ∧
    ∃ s, Path MeterStep (.start (.new { max_bytes := some (2 ^ 64 - 1) } 0 0) [])
        [.commit_bytes [(0, .allOnes 64 - 1)], .commit_bytes [(0, 5)]] s ∧
      (s.meter.bytes_used.toNat = 3 ∧ s.meter.max_bytes = some (.allOnes 64)) := by
  refine ⟨⟨_, .cons rfl (.cons rfl (.cons rfl (.cons rfl (.nil _)))), ?_, ?_⟩,
    ⟨_, .cons rfl (.cons rfl (.nil _)), ?_, ?_⟩⟩
  · decide
  · decide
  · decide
  · decide

end api2mcp.runtime.budget
