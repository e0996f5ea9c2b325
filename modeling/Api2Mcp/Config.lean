import Api2Mcp.Server.Login
import Api2Mcp.Text.Split

namespace api2mcp.config

open server (OidcConfig)
open text

/-- What the log of the start of the server reads of the configuration. -/
structure Config where
  database_url : String
  host : String
  port : UInt16
  base_url : String
  seed_email : Option String
  run_retention_days : UInt32
  allow_loopback_upstream : Bool
  oidc : Option OidcConfig

/-- A malformed URL is returned unchanged. -/
def redact_db_url (url : String) : String :=
  match split_once url "://" with
  | none => url
  | some (scheme, rest) =>
    match split_once rest "@" with
    | none => url
    | some (creds, tail) =>
      match split_once creds ":" with
      | some (user, _) => scheme ++ "://" ++ user ++ ":***@" ++ tail
      | none => scheme ++ "://" ++ creds ++ "@" ++ tail

inductive Level where
  | Info
  | Warn
  deriving DecidableEq, Repr

/-- A field of an event in the log: a text by its `Display`, or a value. -/
inductive Field where
  | display (text : String)
  | bool (b : Bool)
  | number (n : Nat)
  deriving DecidableEq, Repr

structure Event where
  level : Level
  fields : List (String × Field)
  message : String
  deriving DecidableEq, Repr

namespace Config

variable (cfg : Config)

def bind_addr : String := cfg.host ++ ":" ++ toString cfg.port.toNat

/-- The events that are logged, in order. -/
def log_summary : List Event :=
  let configuration : Event :=
    { level := .Info
      fields := [("database_url", .display (redact_db_url cfg.database_url)), ("bind", .display cfg.bind_addr),
        ("base_url", .display cfg.base_url), ("first_user_seed", .bool cfg.seed_email.isSome),
        ("oidc_configured", .bool cfg.oidc.isSome), ("run_retention_days", .number cfg.run_retention_days.toNat),
        ("allow_loopback_upstream", .bool cfg.allow_loopback_upstream)]
      message := "configuration" }
  let loopback : List Event :=
    if cfg.allow_loopback_upstream then
      [⟨.Warn, [], "A2M_ALLOW_LOOPBACK_UPSTREAM is on — the SSRF guard accepts loopback upstreams"⟩]
    else []
  let login : Event :=
    match cfg.oidc with
    | some oidc => ⟨.Info, [("issuer", .display oidc.issuer)], "OIDC login provider configured"⟩
    | none =>
      ⟨.Info, [], "no OIDC provider configured (A2M_OIDC_ISSUER/CLIENT_ID/CLIENT_SECRET) — " ++
        "falling back to local password login only"⟩
  configuration :: loopback ++ [login]

/-- The log shows of the database URL what is left of it, and all of that. -/
theorem log_summary_eq_iff (url url' : String) :
    { cfg with database_url := url }.log_summary = { cfg with database_url := url' }.log_summary ↔
      redact_db_url url = redact_db_url url' := by
  constructor
  · intro hlog
    have hfields := congrArg Event.fields (List.cons.inj hlog).1
    have hfield := congrArg Prod.snd (List.cons.inj hfields).1
    exact Field.display.inj hfield
  · intro hredacted
    unfold log_summary
    dsimp only
    rw [hredacted]
    rfl

end Config

/-- A database URL whose password is left open. -/
structure Dsn where
  scheme : String
  user : String
  tail : String
  scheme_ends : ':' ∉ scheme.toList
  user_ends : ':' ∉ user.toList

def Dsn.url (d : Dsn) (password : String) : String :=
  d.scheme ++ "://" ++ d.user ++ ":" ++ password ++ "@" ++ d.tail

theorem at_toList : "@".toList = ['@'] := by rfl

/-- Where the parts of a URL end, if no `:` and no `@` stands before its place. -/
theorem redact_db_url_parts {scheme user hidden : String} (hscheme : ':' ∉ scheme.toList)
    (hcolon : ':' ∉ user.toList) (huser : '@' ∉ user.toList) (hhidden : '@' ∉ hidden.toList) (shown : String) :
    redact_db_url (scheme ++ "://" ++ (user ++ ":" ++ hidden ++ "@" ++ shown)) =
      scheme ++ "://" ++ user ++ ":***@" ++ shown := by
  have hmarks : "://".toList = ':' :: ['/', '/'] := by rfl
  have hmark : ":".toList = [':'] := by rfl
  have hcreds : '@' ∉ (user ++ ":" ++ hidden).toList := by simp [huser, hhidden]
  rw [redact_db_url, split_once_append hmarks hscheme]
  dsimp only
  rw [split_once_append at_toList hcreds]
  dsimp only
  rw [split_once_append hmark hcolon]

theorem redact_db_url_userless {scheme creds : String} (hscheme : ':' ∉ scheme.toList)
    (hcolon : ':' ∉ creds.toList) (hcreds : '@' ∉ creds.toList) (shown : String) :
    redact_db_url (scheme ++ "://" ++ (creds ++ "@" ++ shown)) = scheme ++ "://" ++ (creds ++ "@" ++ shown) := by
  have hmarks : "://".toList = ':' :: ['/', '/'] := by rfl
  have hmark : ":".toList = [':'] := by rfl
  rw [redact_db_url, split_once_append hmarks hscheme]
  dsimp only
  rw [split_once_append at_toList hcreds]
  dsimp only
  rw [split_once_of_notMem hmark hcolon]
  simp only [String.append_assoc]

namespace Dsn

variable (d : Dsn)

/-- The URL is cut at the first `@`. If that is behind the user, the password is
gone up to the first one of its own. -/
theorem redact_url (huser : '@' ∉ d.user.toList) (password : String) :
    redact_db_url (d.url password) =
      d.scheme ++ "://" ++ d.user ++ ":***" ++ onward '@' password ++ "@" ++ d.tail := by
  have hmem : '@' ∈ (password ++ "@" ++ d.tail).toList := by simp
  obtain ⟨hidden, shown, hcut, hhidden⟩ := exists_cut at_toList hmem
  have hshown : "@" ++ shown = onward '@' password ++ "@" ++ d.tail := by
    rw [← onward_marked at_toList, hcut, onward_append at_toList hhidden]
  have hurl : d.url password = d.scheme ++ "://" ++ (d.user ++ ":" ++ hidden ++ "@" ++ shown) := calc
    d.url password = d.scheme ++ "://" ++ (d.user ++ ":" ++ (password ++ "@" ++ d.tail)) := by
      simp only [url, String.append_assoc]
    _ = d.scheme ++ "://" ++ (d.user ++ ":" ++ hidden ++ "@" ++ shown) := by
      rw [hcut]
      simp only [String.append_assoc]
  calc
    redact_db_url (d.url password) = d.scheme ++ "://" ++ d.user ++ ":***@" ++ shown := by
      rw [hurl, redact_db_url_parts d.scheme_ends d.user_ends huser hhidden]
    _ = d.scheme ++ "://" ++ d.user ++ ":***" ++ ("@" ++ shown) := by
      have hstars : ":***@" = ":***" ++ "@" := by rfl
      rw [hstars]
      simp only [String.append_assoc]
    _ = d.scheme ++ "://" ++ d.user ++ ":***" ++ onward '@' password ++ "@" ++ d.tail := by
      rw [hshown]
      simp only [String.append_assoc]

/-- Behind an `@` in the user no password is looked for. -/
theorem redact_url_unchanged (huser : '@' ∈ d.user.toList) (password : String) :
    redact_db_url (d.url password) = d.url password := by
  obtain ⟨creds, rest, hcut, hcreds⟩ := exists_cut at_toList huser
  have hcolon : ':' ∉ creds.toList := by
    intro hmem
    apply d.user_ends
    rw [hcut]
    simp [hmem]
  have hurl : d.url password = d.scheme ++ "://" ++ (creds ++ "@" ++ (rest ++ ":" ++ password ++ "@" ++ d.tail)) := by
    rw [url, hcut]
    simp only [String.append_assoc]
  rw [hurl, redact_db_url_userless d.scheme_ends hcolon hcreds]

/-- A password without an `@` leaves no trace. -/
theorem redact_url_of_notMem (huser : '@' ∉ d.user.toList) {password : String} (hat : '@' ∉ password.toList) :
    redact_db_url (d.url password) = d.scheme ++ "://" ++ d.user ++ ":***@" ++ d.tail := by
  have hstars : ":***" ++ "" ++ "@" = ":***@" := by rfl
  rw [redact_url d huser, onward_of_notMem hat, ← hstars]
  simp only [String.append_assoc]

example : redact_db_url "postgres://u:hunter2@h:5432/d" = "postgres://u:***@h:5432/d" := by decide

theorem url_inj {password password' : String} : d.url password = d.url password' ↔ password = password' := by
  constructor
  · intro h
    simp only [url, String.append_left_inj, String.append_right_inj] at h
    exact h
  · rintro rfl
    rfl

end Dsn

/-- Two passwords look the same if the user has no `@` and they have the same
text from their first one on, if they have one. -/
theorem redact_db_url_eq_iff (d : Dsn) (password password' : String) :
    redact_db_url (d.url password) = redact_db_url (d.url password') ↔
      password = password' ∨ '@' ∉ d.user.toList ∧ onward '@' password = onward '@' password' := by
  by_cases huser : '@' ∈ d.user.toList
  · rw [d.redact_url_unchanged huser, d.redact_url_unchanged huser, d.url_inj]
    constructor
    · exact .inl
    · rintro (hsame | ⟨hnone, _⟩)
      · exact hsame
      · exact absurd huser hnone
  · rw [d.redact_url huser, d.redact_url huser, String.append_left_inj, String.append_left_inj,
      String.append_right_inj]
    constructor
    · exact fun honward => .inr ⟨huser, honward⟩
    · rintro (rfl | ⟨_, honward⟩)
      · rfl
      · exact honward

def sample_dsn : Dsn where
  scheme := "postgres"
  user := "u"
  tail := "h/d"
  scheme_ends := by decide
  user_ends := by decide

/-- Two passwords differ behind their first `@`. -/
theorem password_shown : sample_dsn.url "a@b" = "postgres://u:a@b@h/d" ∧ sample_dsn.url "a@c" = "postgres://u:a@c@h/d" ∧
    redact_db_url (sample_dsn.url "a@b") ≠ redact_db_url (sample_dsn.url "a@c") := by decide

end api2mcp.config
