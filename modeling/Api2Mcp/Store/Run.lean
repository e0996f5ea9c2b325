import Api2Mcp.Entity.Runs
import Api2Mcp.Model.Slug
import Api2Mcp.Net.Http
import Api2Mcp.Store.Writes

namespace api2mcp.store

open relational serde_json
open api2mcp.entity api2mcp.model

inductive RunTargetKind where
  | ApiCall
  | Script
  deriving DecidableEq, Repr

inductive RunCallerKind where
  | Session
  | Oauth
  | ServiceToken
  | Cli
  deriving DecidableEq, Repr

inductive RunStatus where
  | Ok
  | Partial
  | Error
  | Denied
  | BudgetExceeded
  | Timeout
  deriving DecidableEq, Repr

/-- A row of `runs` to be written. -/
structure NewRun where
  owner_id : Uuid
  endpoint_slug : Slug
  tool_name : String
  target_kind : RunTargetKind
  target_slug : Slug
  caller_kind : RunCallerKind
  caller_id : String
  request_id : String
  execution_start : DateTime
  definition_snapshot : Value
  definition_digest : String
  input_redacted : Value
  output_redacted : Option Value
  status : RunStatus
  errors : Option Value
  calls_made : BitVec 32
  bytes_in : BitVec 64
  pages_fetched : BitVec 32
  budget_snapshot : Option Value
  timings : Option Value

/-- A row of `run_calls` to be written. -/
structure NewRunCall where
  seq : BitVec 32
  api_call_slug : Slug
  service_slug : Slug
  method : net.Method
  url_redacted : String
  headers_redacted : Option Value
  body_redacted : Option Value
  status_code : Option Nat
  response_bytes : Option (BitVec 64)
  response_truncated : Bool
  error : Option String
  timings : Option Value

namespace run

def target_kind_to_str : RunTargetKind → String
  | .ApiCall => "api_call"
  | .Script => "script"

def caller_kind_to_str : RunCallerKind → String
  | .Session => "session"
  | .Oauth => "oauth"
  | .ServiceToken => "service_token"
  | .Cli => "cli"

def status_to_str : RunStatus → String
  | .Ok => "ok"
  | .Partial => "partial"
  | .Error => "error"
  | .Denied => "denied"
  | .BudgetExceeded => "budget_exceeded"
  | .Timeout => "timeout"

/-- The identifiers that are drawn for a run and its calls, and the time that
the rows are given. -/
structure Draws where
  id : Uuid
  call : Nat → Uuid
  now : DateTime

/-- The row of `runs` that `create` inserts. -/
def run_row (draws : Draws) (run : NewRun) : runs.Model where
  id := draws.id
  owner_id := run.owner_id
  endpoint_slug := run.endpoint_slug.as_str
  tool_name := run.tool_name
  target_kind := target_kind_to_str run.target_kind
  target_slug := run.target_slug.as_str
  caller_kind := caller_kind_to_str run.caller_kind
  caller_id := run.caller_id
  request_id := run.request_id
  execution_start := run.execution_start
  definition_snapshot := run.definition_snapshot
  definition_digest := run.definition_digest
  input_redacted := run.input_redacted
  output_redacted := run.output_redacted
  status := status_to_str run.status
  errors := run.errors
  calls_made := run.calls_made.toInt
  bytes_in := run.bytes_in.toInt
  pages_fetched := run.pages_fetched.toInt
  budget_snapshot := run.budget_snapshot
  timings := run.timings
  created_at := draws.now

/-- The row of `run_calls` that `create` inserts for the call at a place. -/
def call_row (draws : Draws) (i : Nat) (call : NewRunCall) : run_calls.Model where
  id := draws.call i
  run_id := draws.id
  seq := call.seq.toInt
  api_call_slug := call.api_call_slug.as_str
  service_slug := call.service_slug.as_str
  method := call.method.as_str
  url_redacted := call.url_redacted
  headers_redacted := call.headers_redacted
  body_redacted := call.body_redacted
  status_code := call.status_code.map Int.ofNat
  response_bytes := call.response_bytes.map (·.toInt)
  response_truncated := call.response_truncated
  error := call.error
  timings := call.timings
  created_at := draws.now

/-- `INSERT INTO runs …`. -/
def insert_run (row : runs.Model) (rows : AuditRows) : Except StoreError (Table runs.indexes) := do
  require row.accepted
  require (rows.users.find fun user => user.id = row.owner_id).isSome
  db_err (rows.runs.insert row)

/-- `INSERT INTO run_calls …`. -/
def insert_call (runs : Table runs.indexes) (calls : Table run_calls.indexes) (row : run_calls.Model) :
    Except StoreError (Table run_calls.indexes) := do
  require row.accepted
  require (runs.find fun run => run.id = row.run_id).isSome
  db_err (calls.insert row)

theorem insert_run_eq_ok {row : runs.Model} {rows : AuditRows} {runs : Table runs.indexes} :
    insert_run row rows = .ok runs ↔
      row.accepted = true ∧ (∃ user ∈ rows.users.rows, user.id = row.owner_id) ∧ rows.runs.insert row = some runs := by
  simp [insert_run, except.bind_eq_ok, require_eq_ok, db_err_eq_ok, Table.find]

theorem insert_call_eq_ok {runs : Table runs.indexes} {calls calls' : Table run_calls.indexes}
    {row : run_calls.Model} : insert_call runs calls row = .ok calls' ↔
      row.accepted = true ∧ (∃ run ∈ runs.rows, run.id = row.run_id) ∧ calls.insert row = some calls' := by
  simp [insert_call, except.bind_eq_ok, require_eq_ok, db_err_eq_ok, Table.find]

/-- A call that is written names its run. -/
theorem references_of_insert_calls {runs : Table runs.indexes} {calls calls' : Table run_calls.indexes}
    {rows : List run_calls.Model} (h : References calls (·.run_id) runs (·.id))
    (hcalls : rows.foldlM (insert_call runs) calls = .ok calls') : References calls' (·.run_id) runs (·.id) := by
  let written (row inserted : run_calls.Model) : Prop :=
    inserted = row ∧ ∃ run ∈ runs.rows, run.id = row.run_id
  have hstep : ∀ calls row calls', insert_call runs calls row = .ok calls' →
      ∃ inserted, written row inserted ∧ calls.insert inserted = some calls' := by
    intro calls row calls' hinserted
    obtain ⟨_, hrun, hinsert⟩ := insert_call_eq_ok.mp hinserted
    exact ⟨row, ⟨rfl, hrun⟩, hinsert⟩
  obtain ⟨hfrom, _⟩ := Table.mem_of_foldlM written hstep hcalls
  intro call hcall
  obtain hold | ⟨row, _, rfl, hrun⟩ := hfrom call hcall
  · exact h call hold
  · exact hrun

/-- The rows of the calls, each in the place of its call. -/
def call_rows (draws : Draws) (calls : List NewRunCall) : List run_calls.Model := calls.mapIdx (call_row draws)

/-- The rows after the transaction of `create`. -/
def insert (draws : Draws) (run : NewRun) (calls : List NewRunCall) (rows : AuditRows) :
    Except StoreError AuditRows :=
  match hrun : insert_run (run_row draws run) rows with
  | .error e => .error e
  | .ok runs =>
    match hcalls : (call_rows draws calls).foldlM (insert_call runs) rows.run_calls with
    | .error e => .error e
    | .ok run_calls =>
      .ok
        { users := rows.users
          runs
          run_calls
          fk_runs_owner := by
            obtain ⟨_, howner, hinsert⟩ := insert_run_eq_ok.mp hrun
            exact rows.fk_runs_owner.insert hinsert howner
          fk_run_calls_run := by
            obtain ⟨_, _, hinsert⟩ := insert_run_eq_ok.mp hrun
            refine references_of_insert_calls (rows.fk_run_calls_run.of_grow fun run hrun => ?_) hcalls
            exact (Table.mem_of_insert hinsert).mpr (.inl hrun) }

/-- `BEGIN`, the run, its calls one after the other, `COMMIT`; a statement that
is refused undoes those before it. -/
def create (draws : Draws) (run : NewRun) (calls : List NewRunCall) (rows : AuditRows) :
    Except StoreError Uuid × AuditRows :=
  match insert draws run calls rows with
  | .ok rows' => (.ok draws.id, rows')
  | .error e => (.error e, rows)

/-- The identifiers that were drawn are on no row. -/
structure Draws.Fresh (draws : Draws) (rows : AuditRows) : Prop where
  run : ∀ run ∈ rows.runs.rows, run.id ≠ draws.id
  call : ∀ call ∈ rows.run_calls.rows, ∀ i, call.id ≠ draws.call i
  apart : ∀ i j, draws.call i = draws.call j → i = j

/-- What the tables ask of a run and its calls. -/
structure Accepts (draws : Draws) (rows : AuditRows) (run : NewRun) (calls : List NewRunCall) : Prop where
  owner : ∃ user ∈ rows.users.rows, user.id = run.owner_id
  apart : calls.Pairwise fun a b => a.seq ≠ b.seq
  run_row : (run_row draws run).accepted = true
  call_rows : ∀ row ∈ call_rows draws calls, row.accepted = true

section

variable {draws : Draws} {rows rows' : AuditRows} {run : NewRun} {calls : List NewRunCall}

/-- Only the numbers of the calls can be the same. -/
theorem call_rows_apart (hfresh : draws.Fresh rows) :
    (rows.run_calls.rows ++ call_rows draws calls).Pairwise (fun a b => run_calls.indexes.clash a b = false) ↔
      calls.Pairwise fun a b => a.seq ≠ b.seq := by
  have hclash : ∀ i j a b, i ≠ j → (run_calls.indexes.clash (call_row draws i a) (call_row draws j b) = false ↔
      a.seq ≠ b.seq) := by
    intro i j a b hne
    have hid : draws.call i ≠ draws.call j := fun heq => hne (hfresh.apart i j heq)
    simp [run_calls.indexes, Indexes.or, Indexes.on, call_row, hid, BitVec.toInt_inj]
  have hold : ∀ call ∈ rows.run_calls.rows, ∀ row ∈ call_rows draws calls,
      run_calls.indexes.clash call row = false := by
    intro call hcall row hrow
    obtain ⟨i, hi, rfl⟩ := List.mem_mapIdx.mp hrow
    obtain ⟨run, hrun, hid⟩ := rows.fk_run_calls_run call hcall
    have hrun_id : call.run_id ≠ draws.id := fun heq => hfresh.run run hrun (hid.trans heq)
    simp [run_calls.indexes, Indexes.or, Indexes.on, call_row, hrun_id, hfresh.call call hcall i]
  have hnew : (call_rows draws calls).Pairwise (fun a b => run_calls.indexes.clash a b = false) ↔
      calls.Pairwise fun a b => a.seq ≠ b.seq := by
    rw [List.pairwise_iff_getElem, List.pairwise_iff_getElem]
    simp only [call_rows, List.length_mapIdx, List.getElem_mapIdx]
    refine forall_congr' fun i => forall_congr' fun j => forall_congr' fun hi => forall_congr' fun hj => ?_
    exact forall_congr' fun hlt => hclash i j _ _ hlt.ne
  rw [List.pairwise_append, hnew]
  exact ⟨fun h => h.2.1, fun h => ⟨rows.run_calls.unique, h, hold⟩⟩

/-- The calls of a run that stands are written when their columns take them. -/
theorem insert_calls_ok_iff (hfresh : draws.Fresh rows) {runs : Table runs.indexes}
    (hrun : ∃ run ∈ runs.rows, run.id = draws.id) :
    (∃ run_calls, (call_rows draws calls).foldlM (insert_call runs) rows.run_calls = .ok run_calls) ↔
      (∀ row ∈ call_rows draws calls, row.accepted = true) ∧ calls.Pairwise fun a b => a.seq ≠ b.seq := by
  let written (row inserted : run_calls.Model) : Prop :=
    inserted = row ∧ row.accepted = true ∧ ∃ run ∈ runs.rows, run.id = row.run_id
  have hstep : ∀ calls row calls', insert_call runs calls row = .ok calls' ↔
      ∃ inserted, written row inserted ∧ calls.insert inserted = some calls' := by
    intro calls row calls'
    rw [insert_call_eq_ok]
    constructor
    · rintro ⟨haccepted, hrun, hinsert⟩
      exact ⟨row, ⟨rfl, haccepted, hrun⟩, hinsert⟩
    · rintro ⟨_, ⟨rfl, haccepted, hrun⟩, hinsert⟩
      exact ⟨haccepted, hrun, hinsert⟩
  rw [Table.foldlM_ok_iff hstep, ← call_rows_apart hfresh]
  constructor
  · rintro ⟨inserted, hwritten, hunique⟩
    have hsame : List.Forall₂ (· = ·) (call_rows draws calls) inserted :=
      hwritten.imp fun _ _ h => h.1.symm
    rw [List.forall₂_eq_eq_eq] at hsame
    subst hsame
    exact ⟨fun row hrow => (List.forall₂_same.mp hwritten row hrow).2.1, hunique⟩
  · rintro ⟨haccepted, hunique⟩
    refine ⟨_, List.forall₂_same.mpr fun row hrow => ⟨rfl, haccepted row hrow, ?_⟩, hunique⟩
    obtain ⟨i, hi, rfl⟩ := List.mem_mapIdx.mp hrow
    exact hrun

theorem insert_eq_ok : insert draws run calls rows = .ok rows' ↔
    rows'.users = rows.users ∧ insert_run (run_row draws run) rows = .ok rows'.runs ∧
      (call_rows draws calls).foldlM (insert_call rows'.runs) rows.run_calls = .ok rows'.run_calls := by
  unfold insert
  split
  · rename_i e hrun
    simp [hrun]
  rename_i runs hrun
  split
  · rename_i e hcalls
    rw [hrun]
    refine iff_of_false (fun h => by cases h) ?_
    rintro ⟨_, hsame, hcalls'⟩
    obtain rfl := Except.ok.inj hsame
    rw [hcalls] at hcalls'
    cases hcalls'
  · rename_i run_calls hcalls
    constructor
    · intro h
      obtain rfl := Except.ok.inj h
      exact ⟨rfl, hrun, hcalls⟩
    · rintro ⟨husers, hsame, hcalls'⟩
      obtain ⟨users', runs', run_calls', _, _⟩ := rows'
      obtain rfl := Except.ok.inj (hrun.symm.trans hsame)
      rw [hcalls] at hcalls'
      obtain rfl := Except.ok.inj hcalls'
      obtain rfl : users' = rows.users := husers
      rfl

/-- A run is written when the tables take it. -/
theorem create_ok_iff (hfresh : draws.Fresh rows) :
    (∃ id rows', create draws run calls rows = (.ok id, rows')) ↔ Accepts draws rows run calls := by
  have hinsert : (∃ id rows', create draws run calls rows = (.ok id, rows')) ↔
      ∃ rows', insert draws run calls rows = .ok rows' := by
    unfold create
    cases insert draws run calls rows with
    | ok rows' => simp
    | error e => simp
  have hrun_new : ∀ a ∈ rows.runs.rows, runs.indexes.clash a (run_row draws run) = false := by
    intro a ha
    simp [runs.indexes, Indexes.on, run_row, hfresh.run a ha]
  rw [hinsert]
  constructor
  · rintro ⟨rows', h⟩
    obtain ⟨_, hrun, hcalls⟩ := insert_eq_ok.mp h
    obtain ⟨haccepted, howner, hrow⟩ := insert_run_eq_ok.mp hrun
    have hstands : ∃ run ∈ rows'.runs.rows, run.id = draws.id :=
      ⟨_, (Table.mem_of_insert hrow).mpr (.inr rfl), rfl⟩
    obtain ⟨hall, hapart⟩ := (insert_calls_ok_iff hfresh hstands).mp ⟨_, hcalls⟩
    exact ⟨howner, hapart, haccepted, hall⟩
  · rintro ⟨howner, hapart, haccepted, hall⟩
    obtain ⟨runs, hrow⟩ := Table.exists_insert hrun_new
    have hrun := insert_run_eq_ok.mpr ⟨haccepted, howner, hrow⟩
    have hstands : ∃ run ∈ runs.rows, run.id = draws.id :=
      ⟨_, (Table.mem_of_insert hrow).mpr (.inr rfl), rfl⟩
    obtain ⟨run_calls, hcalls⟩ := (insert_calls_ok_iff hfresh hstands).mpr ⟨hall, hapart⟩
    refine ⟨⟨rows.users, runs, run_calls, rows.fk_runs_owner.insert hrow howner, ?_⟩,
      insert_eq_ok.mpr ⟨rfl, hrun, hcalls⟩⟩
    refine references_of_insert_calls (rows.fk_run_calls_run.of_grow fun run hrun => ?_) hcalls
    exact (Table.mem_of_insert hrow).mpr (.inl hrun)

/-- A run that was written is one more row. -/
theorem rows_of_create {id : Uuid} (h : create draws run calls rows = (.ok id, rows')) :
    id = draws.id ∧ rows'.runs.rows = rows.runs.rows ++ [run_row draws run] := by
  unfold create at h
  split at h
  · rename_i hinsert
    obtain ⟨hid, rfl⟩ := Prod.mk.inj h
    obtain ⟨_, hrun, _⟩ := insert_eq_ok.mp hinsert
    obtain ⟨_, _, hrow⟩ := insert_run_eq_ok.mp hrun
    exact ⟨(Except.ok.inj hid).symm, Table.rows_of_insert hrow⟩
  · cases (Prod.mk.inj h).1

/-- A run that was refused leaves the tables as they were. -/
theorem rows_of_refused {e : StoreError} (h : create draws run calls rows = (.error e, rows')) : rows' = rows := by
  unfold create at h
  split at h
  · cases (Prod.mk.inj h).1
  · exact (Prod.mk.inj h).2.symm

/-- A run that the tables do not take is refused. -/
theorem refused_of_not_accepts (hfresh : draws.Fresh rows) (h : ¬ Accepts draws rows run calls) :
    ∃ e, create draws run calls rows = (.error e, rows) := by
  cases hcreate : create draws run calls rows with
  | mk answer rows' =>
    cases answer with
    | ok id => exact absurd ((create_ok_iff hfresh).mp ⟨id, rows', hcreate⟩) h
    | error e => exact ⟨e, by rw [rows_of_refused hcreate]⟩

end

end run

end api2mcp.store
