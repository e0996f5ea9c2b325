import Api2Mcp.Script.Text
import Api2Mcp.Time.Calendar

namespace api2mcp.script.timestamp

open calendar

/-- One item of a format: text that stands for itself, a specifier, or a
specifier that is not recognised. -/
inductive Item where
  | Literal (text : String)
  | Space (text : String)
  | Numeric (specifier : String)
  | Fixed (specifier : String)
  | Error
  deriving DecidableEq

/-- A date and a time of no time zone, in nanoseconds as if of UTC. -/
structure NaiveDateTime where
  nanos : Int
  bounded : InUtc nanos

def NaiveDateTime.and_utc (ndt : NaiveDateTime) : Utc := ⟨ndt.nanos, ndt.bounded⟩

structure NaiveDate where
  days : Int
  bounded : InUtc (days * SECS_PER_DAY * SECOND)

/-- `and_hms_opt(0, 0, 0)`. -/
def NaiveDate.midnight (d : NaiveDate) : NaiveDateTime := ⟨d.days * SECS_PER_DAY * SECOND, d.bounded⟩

/-- What the crate computes on formats: the items of one, the text of a
specifier for an instant, if it can be displayed, an instant rendered at an
offset in minutes, and the three ways to parse. -/
structure FormatCrate where
  items : String → List Item
  specifier_text : Utc → String → Option String
  render : Utc → Int → String → String
  naive_date_time : String → String → Option NaiveDateTime
  date_time : String → String → Option Utc
  naive_date : String → String → Option NaiveDate

section

variable (crate : FormatCrate)

def valid_strftime (format : String) : Bool := !(crate.items format).any (· = .Error)

def parse_with_format (s format : String) : Option Utc :=
  match crate.naive_date_time s format with
  | some ndt => some ndt.and_utc
  | none =>
    match crate.date_time s format with
    | some dt => some dt
    | none => (crate.naive_date s format).map fun d => d.midnight.and_utc

def parse_date (s format : String) : Except EvalAltResult Utc :=
  match parse_with_format crate s format with
  | some ts => .ok ts
  | none => .error (runtime_err
      ("parse_date: " ++ fmt.debug s ++ " does not match format " ++ fmt.debug format))

def format_item (ts : Utc) : Item → Option String
  | .Literal text | .Space text => some text
  | .Numeric specifier | .Fixed specifier => crate.specifier_text ts specifier
  | .Error => none

/-- `impl Display for DelayedFormat`: item by item, up to one that fails. -/
def display (ts : Utc) (items : List Item) : Option String :=
  items.foldlM (fun out item => (format_item crate ts item).map (out ++ ·)) ""

/-- `to_string` panics where `Display` fails. -/
def format_method (ts : Utc) (format : String) : Native String :=
  if !valid_strftime crate format then
    .thrown ("format: invalid format string " ++ fmt.debug format)
  else match display crate ts (crate.items format) with
    | some text => .returned text
    | none => .panicked

end

section

variable {crate : FormatCrate}

theorem display_isSome {ts : Utc} {items : List Item} :
    (display crate ts items).isSome ↔ ∀ item ∈ items, (format_item crate ts item).isSome := by
  have hfold : ∀ (items : List Item) (out : String),
      (items.foldlM (fun out item => (format_item crate ts item).map (out ++ ·)) out).isSome ↔
        ∀ item ∈ items, (format_item crate ts item).isSome := by
    intro items
    induction items with
    | nil => simp
    | cons item items ih =>
      intro out
      rw [List.foldlM_cons, List.forall_mem_cons]
      cases hitem : format_item crate ts item with
      | none => simp
      | some text =>
        rw [Option.map_some, Option.isSome_some, and_iff_right rfl]
        exact ih (out ++ text)
  exact hfold items ""

/-- Formatting neither panics nor aborts exactly if a specifier is not
recognised or every one of them can be displayed for the instant. -/
theorem format_survives_iff (crate : FormatCrate) (ts : Utc) (format : String) :
    (format_method crate ts format).Survives ↔
      Item.Error ∈ crate.items format ∨
        ∀ item ∈ crate.items format, (format_item crate ts item).isSome := by
  have hvalid : valid_strftime crate format = true ↔ Item.Error ∉ crate.items format := by
    simp only [valid_strftime, Bool.not_eq_true', List.any_eq_false, decide_eq_true_eq]
    exact ⟨fun h hmem => h _ hmem rfl, fun h item hitem heq => h (heq ▸ hitem)⟩
  unfold format_method
  by_cases herror : Item.Error ∈ crate.items format
  · have hinvalid : (!valid_strftime crate format) = true := by
      rw [Bool.not_eq_true', Bool.eq_false_iff]
      exact fun h => hvalid.mp h herror
    rw [if_pos hinvalid]
    exact iff_of_true trivial (.inl herror)
  · have hsome : ¬(!valid_strftime crate format) = true := by
      rw [hvalid.mpr herror]
      decide
    rw [if_neg hsome, or_iff_right herror, ← display_isSome]
    cases display crate ts (crate.items format) with
    | none => exact iff_of_false id (by decide)
    | some text => exact iff_of_true trivial rfl

end

/-- Displays a year, and no offset that is for parsing only. -/
def sample_crate : FormatCrate where
  items format :=
    if format = "%Y" then [.Numeric "%Y"]
    else if format = "%#z" then [.Fixed "%#z"]
    else [.Error]
  specifier_text _ specifier := if specifier = "%Y" then some "1970" else none
  render _ offset _ := if offset = 0 then "1970-01-01 00:00:00 +0000" else "1970-01-01 02:00:00 +0200"
  naive_date_time s _ :=
    if s = "1970-01-01 00:00:00 +0000" then some ⟨0, by decide⟩
    else if s = "1970-01-01 02:00:00 +0200" then some ⟨7200 * SECOND, by decide⟩
    else none
  date_time s _ :=
    if s = "1970-01-01 00:00:00 +0000" || s = "1970-01-01 02:00:00 +0200" then some ⟨0, by decide⟩
    else none
  naive_date _ _ := none

def epoch : Utc := ⟨0, inUtc_zero⟩

/-- A specifier that is only for parsing panics. -/
theorem parsing_only_panics :
    format_method sample_crate epoch "%#z" = .panicked ∧
      ¬(format_method sample_crate epoch "%#z").Survives := by
  have hpanics : format_method sample_crate epoch "%#z" = .panicked := by decide
  rw [hpanics]
  exact ⟨rfl, id⟩

/-! Parsing what was rendered. -/

def MINUTE : Int := 60 * SECOND

/-- The date and the time that a format shows of an instant at an offset. -/
def wall_clock (seconds : Bool) (t : Utc) (offset : Int) : Int :=
  let unit := if seconds then SECOND else MINUTE
  (t.nanos + offset * MINUTE) / unit * unit

theorem wall_clock_of_seconds (t : Utc) (offset : Int) :
    wall_clock true t offset = (t.nanos + offset * MINUTE) / SECOND * SECOND := rfl

theorem wall_clock_of_minutes (t : Utc) (offset : Int) :
    wall_clock false t offset = (t.nanos + offset * MINUTE) / MINUTE * MINUTE := rfl

/-- The instant is rendered with a full date, a time, with its seconds or
without, and an offset; what reads a date and a time takes these from the text
and ignores the offset. -/
structure OffsetIgnored (crate : FormatCrate) (format : String) (seconds : Bool) (t : Utc)
    (offset : Int) : Prop where
  naive : ∃ ndt, crate.naive_date_time (crate.render t offset format) format = some ndt ∧
    ndt.nanos = wall_clock seconds t offset

/-- An instant is read back exactly at the offset zero, if the format shows all
of it. -/
theorem parse_date_render_iff {crate : FormatCrate} {format : String} {seconds : Bool} {t : Utc}
    {offset : Int} (hwhole : t.nanos % SECOND = 0) (hnaive : OffsetIgnored crate format seconds t offset) :
    parse_date crate (crate.render t offset format) format = .ok t ↔
      offset = 0 ∧ (seconds = true ∨ t.nanos % MINUTE = 0) := by
  obtain ⟨ndt, hparse, hnanos⟩ := hnaive.naive
  have hresult : parse_date crate (crate.render t offset format) format = .ok ndt.and_utc := by
    unfold parse_date parse_with_format
    rw [hparse]
  have hsame : ndt.and_utc = t ↔ ndt.nanos = t.nanos := by
    obtain ⟨nanos, bounded⟩ := ndt
    obtain ⟨nanos', bounded'⟩ := t
    exact Utc.mk.injEq .. ▸ Iff.rfl
  rw [hresult, Except.ok.injEq, hsame, hnanos]
  unfold SECOND at hwhole
  cases seconds with
  | true =>
    rw [wall_clock_of_seconds]
    unfold MINUTE SECOND
    constructor
    · intro h
      exact ⟨by omega, .inl rfl⟩
    · rintro ⟨rfl, _⟩
      omega
  | false =>
    rw [wall_clock_of_minutes]
    unfold MINUTE SECOND
    constructor
    · intro h
      exact ⟨by omega, .inr (by omega)⟩
    · rintro ⟨rfl, hminute | hminute⟩
      · cases hminute
      · omega

/-- The epoch in UTC is read back. -/
theorem epoch_read_back :
    parse_date sample_crate (sample_crate.render epoch 0 "%Y-%m-%d %H:%M:%S %z")
      "%Y-%m-%d %H:%M:%S %z" = .ok epoch := by
  have hnaive : OffsetIgnored sample_crate "%Y-%m-%d %H:%M:%S %z" true epoch 0 :=
    ⟨⟨⟨0, by decide⟩, rfl, by decide⟩⟩
  exact (parse_date_render_iff (by decide) hnaive).mpr ⟨rfl, .inl rfl⟩

/-- The epoch at two hours east is read two hours late, though the text is the
epoch's to what looks at its offset. -/
theorem epoch_read_late :
    (sample_crate.date_time (sample_crate.render epoch 120 "%Y-%m-%d %H:%M:%S %z")
      "%Y-%m-%d %H:%M:%S %z") = some epoch ∧
    parse_date sample_crate (sample_crate.render epoch 120 "%Y-%m-%d %H:%M:%S %z")
      "%Y-%m-%d %H:%M:%S %z" ≠ .ok epoch := by
  refine ⟨rfl, fun h => ?_⟩
  have hnanos : (7200 * SECOND : Int) = 0 := congrArg Utc.nanos (Except.ok.inj h)
  exact absurd hnanos (by decide)

end api2mcp.script.timestamp
