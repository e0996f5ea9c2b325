import Api2Mcp.Server.Api.Writes
import Api2Mcp.Time.Calendar

namespace api2mcp

open calendar

/-- How the computation of an instant ends. -/
inductive Computed (ε α : Type) where
  | Done (a : α)
  | Refused (e : ε)
  | Panicked

/-- `expect`. -/
def Computed.expect {ε α : Type} : Option α → Computed ε α
  | some a => .Done a
  | none => .Panicked

/-- The operator `+` of `DateTime`, for an instant that may be left out. -/
def plus {ε : Type} (now : Utc) (delta : TimeDelta) : Computed ε (Option Utc) :=
  .expect ((now.checked_add_signed delta).map some)

/-- A duration out of its range is refused. -/
def plus_checked {ε : Type} (now : Utc) (e : ε) : Option TimeDelta → Computed ε (Option Utc)
  | none => .Refused e
  | some delta => plus now delta

/-- The operator `-` of `DateTime`. -/
def minus {ε : Type} (now : Utc) (delta : TimeDelta) : Computed ε (Option Utc) :=
  .expect ((now.checked_sub_signed delta).map some)

namespace server.api.tokens

/-- The expiry of `create`. -/
def expires_at (now : Utc) : Option (BitVec 64) → Computed ApiError (Option Utc)
  | none => .Done none
  | some days =>
    if days.toInt > 0 then
      plus_checked now (.BadRequest "expires_in_days is out of range") (TimeDelta.try_days days.toInt)
    else .Refused (.BadRequest "expires_in_days must be a positive number of days")

end server.api.tokens

namespace cli.token

/-- The expiry of `mint`. -/
def expires_at (now : Utc) : Option (BitVec 64) → Computed String (Option Utc)
  | none => .Done none
  | some days => plus_checked now (toString days.toInt ++ " days is out of range") (TimeDelta.try_days days.toInt)

end cli.token

namespace config

/-- The seconds of the session's lifetime: the multiplication wraps. -/
def session_ttl (hours : BitVec 64) : BitVec 64 := 60 * 60 * hours

end config

namespace server.auth

/-- The expiry of `create_session`, for a lifetime of whole seconds. -/
def expires_at (now : Utc) (ttl : BitVec 64) : Computed String (Option Utc) :=
  plus_checked now "session TTL out of range" (TimeDelta.from_std ttl 0)

end server.auth

namespace store.run

/-- No day means for ever. `Duration::days` panics out of its range. -/
def cutoff_for (now : Utc) (retention_days : BitVec 32) : Computed Empty (Option Utc) :=
  if retention_days = 0 then .Done none
  else
    match TimeDelta.try_days retention_days.toNat with
    | none => .Panicked
    | some delta => minus now delta

end store.run

/-- The instant is refused, not asked for or the one expected. -/
def Exact {ε : Type} (expected : Int) : Computed ε (Option Utc) → Prop
  | .Done (some t) => t.nanos = expected
  | .Done none => True
  | .Refused _ => True
  | .Panicked => False

def DAY : Int := SECS_PER_DAY * SECOND

def HOUR : Int := 3600 * SECOND

theorem exact_of_nanos {ε : Type} (nanos expected : Int) :
    Exact expected (Computed.expect ((Utc.of_nanos nanos).map some) : Computed ε (Option Utc)) ↔
      InUtc nanos ∧ nanos = expected := by
  cases h : Utc.of_nanos nanos with
  | none =>
    refine iff_of_false id fun ⟨hin, _⟩ => ?_
    rw [← Utc.of_nanos_isSome, h] at hin
    cases hin
  | some t =>
    have hin : InUtc nanos := Utc.of_nanos_isSome.mp (by rw [h]; rfl)
    have hnanos := Utc.of_nanos_eq_some h
    show t.nanos = expected ↔ _
    rw [hnanos]
    exact ⟨fun heq => ⟨hin, heq⟩, And.right⟩

theorem exact_plus {ε : Type} (now : Utc) (delta : TimeDelta) (expected : Int) :
    Exact expected (plus now delta : Computed ε (Option Utc)) ↔
      InUtc (now.nanos + delta.nanos) ∧ now.nanos + delta.nanos = expected := exact_of_nanos _ _

theorem exact_minus {ε : Type} (now : Utc) (delta : TimeDelta) (expected : Int) :
    Exact expected (minus now delta : Computed ε (Option Utc)) ↔
      InUtc (now.nanos - delta.nanos) ∧ now.nanos - delta.nanos = expected := exact_of_nanos _ _

/-- A number of seconds from now is exact where it is refused as a duration, or
still an instant and the one expected. -/
theorem exact_secs {ε : Type} (now : Utc) (secs expected : Int) (e : ε) :
    Exact expected (plus_checked now e (TimeDelta.new secs 0)) ↔
      ¬ InDelta (secs * SECOND) ∨ InUtc (now.nanos + secs * SECOND) ∧ now.nanos + secs * SECOND = expected := by
  by_cases hdelta : InDelta (secs * SECOND)
  · obtain ⟨delta, hnew, hnanos⟩ := TimeDelta.new_secs hdelta
    rw [hnew, plus_checked, exact_plus, hnanos]
    exact ⟨.inr, fun h => h.resolve_left fun hnot => hnot hdelta⟩
  · rw [TimeDelta.new_secs_eq_none hdelta]
    exact iff_of_true trivial (.inl hdelta)

theorem exact_days {ε : Type} (now : Utc) (days : Int) (e : ε) :
    Exact (now.nanos + days * DAY) (plus_checked now e (TimeDelta.try_days days)) ↔
      ¬ InDelta (days * DAY) ∨ InUtc (now.nanos + days * DAY) := by
  have hday : days * DAY = days * SECS_PER_DAY * SECOND := (Int.mul_assoc _ _ _).symm
  rw [hday, TimeDelta.try_days_eq, exact_secs, and_iff_left rfl]

theorem server.api.tokens.exact_iff (now : Utc) (days : BitVec 64) :
    Exact (now.nanos + days.toInt * DAY) (expires_at now (some days)) ↔
      days.toInt ≤ 0 ∨ ¬ InDelta (days.toInt * DAY) ∨ InUtc (now.nanos + days.toInt * DAY) := by
  unfold expires_at
  dsimp only
  split
  · rename_i hpositive
    rw [exact_days]
    exact ⟨.inr, fun h => h.resolve_left (Int.not_le.mpr hpositive)⟩
  · rename_i hpositive
    exact iff_of_true trivial (.inl (Int.not_lt.mp hpositive))

theorem cli.token.exact_iff (now : Utc) (days : BitVec 64) :
    Exact (now.nanos + days.toInt * DAY) (expires_at now (some days)) ↔
      ¬ InDelta (days.toInt * DAY) ∨ InUtc (now.nanos + days.toInt * DAY) := exact_days now days.toInt _

theorem config.toNat_session_ttl (hours : BitVec 64) : (session_ttl hours).toNat = hours.toNat * 3600 % 2 ^ 64 := by
  unfold session_ttl
  rw [BitVec.toNat_mul, Nat.mul_comm]
  rfl

/-- A lifetime that wraps is exact only where what is left of it is still refused. -/
theorem server.auth.exact_iff (now : Utc) (hours : BitVec 64) :
    Exact (now.nanos + hours.toNat * HOUR) (expires_at now (config.session_ttl hours)) ↔
      ¬ InDelta ((config.session_ttl hours).toNat * SECOND) ∨
        hours.toNat * 3600 < 2 ^ 64 ∧ InUtc (now.nanos + hours.toNat * HOUR) := by
  have hwrap := config.toNat_session_ttl hours
  have hsecs := exact_secs now (config.session_ttl hours).toNat (now.nanos + hours.toNat * HOUR)
    "session TTL out of range"
  refine hsecs.trans (or_congr_right ?_)
  have hlt := (config.session_ttl hours).isLt
  have hexact : now.nanos + (config.session_ttl hours).toNat * SECOND = now.nanos + hours.toNat * HOUR ↔
      hours.toNat * 3600 < 2 ^ 64 := by
    unfold HOUR SECOND
    omega
  rw [hexact]
  constructor
  · rintro ⟨hin, hbound⟩
    rw [hexact.mpr hbound] at hin
    exact ⟨hbound, hin⟩
  · rintro ⟨hbound, hin⟩
    rw [← hexact.mpr hbound] at hin
    exact ⟨hin, hbound⟩

/-- Every number of days is a duration. -/
theorem store.run.exact_iff (now : Utc) (days : BitVec 32) :
    Exact (now.nanos - days.toNat * DAY) (cutoff_for now days) ↔
      days = 0 ∨ InUtc (now.nanos - days.toNat * DAY) := by
  unfold cutoff_for
  split
  · rename_i hzero
    exact iff_of_true trivial (.inl hzero)
  · rename_i hzero
    have hday : (days.toNat : Int) * DAY = days.toNat * SECS_PER_DAY * SECOND := (Int.mul_assoc _ _ _).symm
    have hdelta : InDelta ((days.toNat : Int) * SECS_PER_DAY * SECOND) := by
      have hlt := days.isLt
      unfold InDelta MAX_DELTA SECS_PER_DAY SECOND I64_MAX
      omega
    obtain ⟨delta, hnew, hnanos⟩ := TimeDelta.new_secs hdelta
    rw [TimeDelta.try_days_eq, hnew, hday]
    dsimp only
    rw [exact_minus, hnanos]
    exact ⟨fun h => .inr h.1, fun h => ⟨h.resolve_left hzero, rfl⟩⟩

/-- The instants of the two mints, of a session and of the retention are exact or
refused exactly where they are instants, and the session's lifetime does not
wrap. -/
theorem instants_exact_iff (now : Utc) :
    (∀ days, Exact (now.nanos + days.toInt * DAY) (server.api.tokens.expires_at now (some days)) ↔
        days.toInt ≤ 0 ∨ ¬ InDelta (days.toInt * DAY) ∨ InUtc (now.nanos + days.toInt * DAY)) ∧
      (∀ days, Exact (now.nanos + days.toInt * DAY) (cli.token.expires_at now (some days)) ↔
        ¬ InDelta (days.toInt * DAY) ∨ InUtc (now.nanos + days.toInt * DAY)) ∧
      (∀ hours, Exact (now.nanos + hours.toNat * HOUR) (server.auth.expires_at now (config.session_ttl hours)) ↔
        ¬ InDelta ((config.session_ttl hours).toNat * SECOND) ∨
          hours.toNat * 3600 < 2 ^ 64 ∧ InUtc (now.nanos + hours.toNat * HOUR)) ∧
      ∀ days, Exact (now.nanos - days.toNat * DAY) (store.run.cutoff_for now days) ↔
        days = 0 ∨ InUtc (now.nanos - days.toNat * DAY) :=
  ⟨server.api.tokens.exact_iff now, cli.token.exact_iff now, server.auth.exact_iff now, store.run.exact_iff now⟩

/-- The epoch. -/
def epoch : Utc := ⟨0, inUtc_zero⟩

/-- A hundred million days are a duration, and no instant is that far away. -/
theorem distant_expiry_panics :
    server.api.tokens.expires_at epoch (some 100000000) = .Panicked ∧
      cli.token.expires_at epoch (some 100000000) = .Panicked ∧
      server.auth.expires_at epoch (config.session_ttl 2400000000) = .Panicked ∧
      store.run.cutoff_for epoch 100000000 = .Panicked := by
  refine ⟨rfl, rfl, ?_, rfl⟩
  have httl : ((config.session_ttl 2400000000).toNat : Int) = 8640000000000 := by decide
  unfold server.auth.expires_at TimeDelta.from_std
  rw [httl]
  rfl

end api2mcp
