import Api2Mcp.Runtime.Batches

namespace api2mcp.runtime

open interact serde_json
open api2mcp.http api2mcp.model api2mcp.resolve api2mcp.script
open api2mcp.runtime.budget api2mcp.runtime.dispatch api2mcp.runtime.fanout api2mcp.runtime.batch

/-- What the clock of a call has said: the reading its send started with, and
the last one. A send begins with two readings in a row. -/
structure Watch where
  started : Instant := 0
  reading : Instant := 0
  fresh : Bool := false

def Watch.note (watch : Watch) : IoEvent → Watch
  | ⟨.now, t⟩ =>
    { started := if watch.fresh then watch.reading else watch.started, reading := t, fresh := true }
  | ⟨.exchange .., _⟩ => { watch with fresh := false }
  | ⟨.env _, _⟩ => watch

/-- The watch after the events of a call. -/
def watch_of (evs : List DispatchEvent) : Watch := evs.foldl (io_note Watch.note) {}

/-- A request gets what is left of its send's time. -/
def Timed (deadline : Duration) (watch : Watch) (request : Request) : Prop :=
  watch.reading - watch.started ≤ deadline ∧
    request.timeout = deadline - (watch.reading - watch.started)

/-- `Timed`, of the requests among the questions. -/
def AsksTimed (deadline : Duration) (watch : Watch) : Question → Prop
  | .exchange _ request => Timed deadline watch request
  | _ => True

section

variable {crate : net.UrlCrate} {from_slice : List UInt8 → Except String Value} {client : Client}
  {params : SendParams}

/-- The next reading belongs to the send that started at an instant. -/
def Watch.Sending (watch : Watch) (started : Instant) : Prop :=
  if watch.fresh then watch.reading = started else watch.started = started

theorem Watch.Sending.note {watch : Watch} {started : Instant} (h : watch.Sending started)
    (now : Instant) : (watch.note ⟨.now, now⟩).started = started := by
  unfold Watch.Sending at h
  unfold Watch.note
  split at h
  · rename_i hfresh
    simpa [hfresh] using h
  · rename_i hfresh
    simpa [hfresh] using h

/-- Every hop of a send shares the time the send started with. -/
theorem send_hops_timed (started : Instant) (left : Nat) (request : BoundRequest) (watch : Watch)
    (hwatch : watch.Sending started) :
    (send_hops crate client params started left request).Safe Watch.note (AsksTimed params.deadline)
      (fun _ _ => True) watch := by
  induction left using Nat.strongRecOn generalizing request watch with
  | ind left ih =>
    rw [send_hops.eq_def]
    simp only [Io.now_bind, Io.exchange_bind, Prog.pure_eq]
    split
    · exact .done trivial
    refine .ask trivial fun now => ?_
    have hstarted : (watch.note ⟨.now, now⟩).started = started := hwatch.note now
    have hreading : (watch.note ⟨.now, now⟩).reading = now := rfl
    generalize watch.note ⟨.now, now⟩ = watch at hstarted hreading
    split
    · exact .done trivial
    rename_i htime
    refine (hop_headers_still (fun _ _ _ => rfl) (fun _ _ => trivial) request params.auth watch).bind fun watch' answer => ?_
    rintro rfl
    split
    · exact .done trivial
    refine .ask ⟨?_, ?_⟩ fun exchange => ?_
    · rw [hstarted, hreading]
      exact Nat.not_lt.mp htime
    · rw [hstarted, hreading]
    split
    · exact .done trivial
    split
    · split
      · exact .done trivial
      split
      · exact .done trivial
      refine ih _ (Nat.lt_succ_self _) _ _ ?_
      rw [Watch.Sending, if_neg (by simp [Watch.note])]
      exact hstarted
    split
    · exact .done trivial
    · exact .done trivial

/-- Every page has a send of its own, and its send all of the time. -/
theorem fetch_pages_timed (pagination : Pagination) (max_pages left : Nat) (request : BoundRequest)
    (pages : List CallResponse) (watch : Watch) :
    (fetch_pages crate from_slice client pagination max_pages params left request pages).Safe
      Watch.note (AsksTimed params.deadline) (fun _ _ => True) watch := by
  induction left generalizing request pages watch with
  | zero => exact .done trivial
  | succ left ih =>
    have hsend : (send crate client request params).Safe Watch.note (AsksTimed params.deadline)
        (fun _ _ => True) watch := by
      refine .ask trivial fun started => send_hops_timed started _ request _ ?_
      simp [Watch.Sending, Watch.note]
    unfold fetch_pages
    refine hsend.bind fun watch' result _ => ?_
    split
    · exact .done trivial
    split
    · exact .done trivial
    · exact .done trivial
    · exact ih _ _ _

end

/-- The sends of a call have the time that its batch allows each of them. -/
theorem dispatch_timed {crates : Crates} {plan : EndpointPlan} {ctx : DispatchContext}
    {caller_script : Option Slug} {name : String} {args : Value} {budget : CallBudget} :
    (dispatch crates plan ctx caller_script name args budget).Safe (io_note Watch.note)
      (io_asks (AsksTimed budget.deadline)) (fun _ _ => True) {} := by
  refine dispatch_safe fun planned request client _ => ?_
  have hdeadline : budget.deadline = (send_params ctx planned budget).deadline := rfl
  rw [hdeadline]
  exact fetch_pages_timed _ _ _ _ _ _

/-- A request that a run sends, with what the clocks of the run and of its call
had said by then. -/
def Sends (evs : List RunEvent) (clock : Clock) (watch : Watch) (request : Request)
    (exchange : Exchange) : Prop :=
  ∃ before limits calls, ∃ joined : Joined limits calls, ∃ after i call client sent unsent,
    evs = before ++ ⟨.fan_out limits calls, joined⟩ :: after ∧ calls[i]? = some call ∧
      own i joined.moves = sent ++ ⟨.io (.exchange client request), exchange⟩ :: unsent ∧
        clock = clock_of before ∧ watch = watch_of sent

/-- The request starts, and may last, only until the deadline. -/
def InTime (deadline : Instant) (request : Request) (exchange : Exchange) : Prop :=
  exchange.started ≤ deadline ∧ exchange.started + request.timeout ≤ deadline

/-- From the reading that its batch was joined with to the request nothing has
passed that its own send has not counted. -/
def Counted (clock : Clock) (watch : Watch) (exchange : Exchange) : Prop :=
  exchange.started ≤ clock.reading + (watch.reading - watch.started)

section

variable {crates : Crates} {engine : Engine} {executor : Executor} {plan : EndpointPlan}
  {tool : PlannedTool} {tool_name : String} {args : Value} {caller_kind : store.RunCallerKind}
  {caller_id : String} {evs : List RunEvent} {rest : Run (Except ExecutorError RunResult)}

theorem remaining_time_eq {meter : BudgetMeter} {deadline now : Instant} {remaining : Option Duration}
    (hdeadline : meter.deadline = some deadline) (h : meter.remaining_time now = .ok remaining) :
    now < deadline ∧ remaining = some (deadline - now) := by
  rw [BudgetMeter.remaining_time, hdeadline] at h
  dsimp only at h
  split at h
  · cases h
  · rename_i hnow
    exact ⟨Nat.not_le.mp hnow, (Except.ok.inj h).symm⟩

/-- What is left at a reading, less what has been counted since, is not too much
exactly when no more than that has passed since. -/
theorem window_iff {started reading deadline counted : Nat} (hlt : reading < deadline)
    (hle : counted ≤ deadline - reading) :
    started ≤ deadline ∧ started + (deadline - reading - counted) ≤ deadline ↔
      started ≤ reading + counted := by
  omega

/-- The time of a request is what was left for its batch, less what its send
has counted. -/
theorem timed_of_run {wall_clock : Duration}
    (h : (executor.run_tool crates engine plan tool_name args caller_kind caller_id).Emits evs rest)
    (htool : plan.tool tool_name = some tool) (hwall : tool.budgets.wall_clock = some wall_clock)
    {clock : Clock} {watch : Watch} {request : Request} {exchange : Exchange}
    (hsends : Sends evs clock watch request exchange) :
    clock.reading < clock.start + wall_clock ∧
      Timed (clock.start + wall_clock - clock.reading) watch request := by
  obtain ⟨before, limits, calls, joined, after, i, ⟨slug, p⟩, client, sent, unsent, rfl, hcall, hown,
    rfl, rfl⟩ := hsends
  obtain ⟨auth, meter, remaining, caller_script, items, rfl, rfl, hdeadline, hremaining, _⟩ :=
    batched_of_run h htool
  obtain ⟨name, args', _, rfl⟩ := getElem?_fan_items hcall
  obtain ⟨left, hemits⟩ := (Together.tracks joined.path).runs hcall
  rw [hown] at hemits
  rw [hwall, Option.map_some] at hdeadline
  obtain ⟨hlt, rfl⟩ := remaining_time_eq hdeadline hremaining
  refine ⟨hlt, ?_⟩
  exact dispatch_timed.question hemits

/-- The requests of a run that have too long are those before which time has
passed that no send counts: in the queue for a permit, on earlier pages of the
call, or between a reading of the clock and what it is read for. -/
theorem run_tool_in_time_iff {wall_clock : Duration}
    (h : (executor.run_tool crates engine plan tool_name args caller_kind caller_id).Emits evs rest)
    (htool : plan.tool tool_name = some tool) (hwall : tool.budgets.wall_clock = some wall_clock) :
    (∀ clock watch request exchange, Sends evs clock watch request exchange →
        InTime (clock.start + wall_clock) request exchange) ↔
      ∀ clock watch request exchange, Sends evs clock watch request exchange →
        Counted clock watch exchange := by
  refine forall₄_congr fun clock watch request exchange => forall_congr' fun hsends => ?_
  obtain ⟨hlt, hle, htimeout⟩ := timed_of_run h htool hwall hsends
  rw [InTime, Counted, htimeout]
  exact window_iff hlt hle

end

/-- An endpoint whose tool has a second. -/
def timed_plan : EndpointPlan :=
  { sample_plan with
    tools := [{ name := "ping", input_schema := .object [], target := .ApiCall sample_slug
                budgets := { wall_clock := some 1000000 } }] }

/-- A run whose one call gets its permit at an instant, with the meter made and
the batch joined at 0. -/
theorem timed_run (t : Instant) :
    ∃ evs rest, ((Executor.new {}).run_tool sample_crates (fun _ _ _ _ => .done (.ok .null)) timed_plan
        "ping" (.object []) .Cli "").Emits evs rest ∧
      Sends evs {} { started := t, reading := t, fresh := true } (sample_request 1000000)
        { sample_exchange with started := t } ∧
      ∀ clock watch request exchange, Sends evs clock watch request exchange → exchange.started = t := by
  let meter : BudgetMeter := BudgetMeter.new { wall_clock := some 1000000 } (0 : Nat) 0
  let admitted : BudgetMeter := { meter with calls_used := meter.calls_used + 1#32 }
  have hping : resolve timed_plan none "ping" = .ok sample_planned := rfl
  have hdispatch := sample_dispatched_at hping t (call_budget admitted (some 1000000)) (by decide)
    (by decide)
  have hreserve : meter.reserve_calls (0 : Nat) 1#32 = (.ok (), admitted) := rfl
  have hremaining : admitted.remaining_time (0 : Nat) = .ok (some 1000000) := rfl
  obtain ⟨joined, hown, _, hbatch⟩ := run_batch_alone (fun key n hn => ConcurrencyLimits.build_pos hn)
    hreserve hremaining hdispatch
  have hload : (AuthProviders.load timed_plan).Emits [⟨.provider 1 sample_slug, .ok none⟩]
      (.done (.ok [])) := .cons (.nil _)
  have htool : timed_plan.tool "ping" = some _ := rfl
  have hrun := run_tool_emits sample_crates (fun _ _ _ _ => .done (.ok .null)) (Executor.new {}) .Cli ""
    htool (0 : Nat) (0 : Nat) 0 hload (hbatch.bind (.nil _)) "" (0 : Nat) 0
  refine ⟨_, _, hrun, ?_, ?_⟩
  · refine ⟨[⟨.now, (0 : Nat)⟩, ⟨.provider 1 sample_slug, .ok none⟩, ⟨.now, (0 : Nat)⟩, ⟨.utc_now, 0⟩,
      ⟨.now, (0 : Nat)⟩, ⟨.now, (0 : Nat)⟩], _, _, joined, _, 0, _, client_of dispatch.sample_service {},
      (sample_events t 1000000).take 3, [], rfl, rfl, hown, rfl, rfl⟩
  · rintro clock watch request exchange ⟨before, limits, calls, joined', after, i, call, client, sent,
      unsent, hevs, hcall, hsent, -, -⟩
    have hmem : (⟨.fan_out limits calls, joined'⟩ : RunEvent) ∈ before ++ ⟨.fan_out limits calls, joined'⟩ :: after := by
      simp
    rw [← hevs] at hmem
    simp only [List.mem_cons, List.mem_append, List.not_mem_nil, or_false, false_or, reduceCtorEq,
      Event.mk.injEq, false_and] at hmem
    obtain ⟨hquestion, hjoined⟩ := hmem
    cases hquestion
    cases hjoined
    cases i with
    | succ i => cases hcall
    | zero =>
      have hexchange : (⟨.io (.exchange client request), exchange⟩ : DispatchEvent) ∈
          sample_events t 1000000 := by
        have hown : own 0 joined.moves = sample_events t 1000000 := hown
        rw [← hown, hsent]
        simp
      simp only [sample_events, List.mem_cons, List.not_mem_nil, or_false, false_or, reduceCtorEq,
        Event.mk.injEq, false_and, DispatchQuestion.io.injEq] at hexchange
      obtain ⟨hquestion, hanswer⟩ := hexchange
      cases hquestion
      cases hanswer
      rfl

/-- A call that waits five microseconds for its permit gets the whole second
that the run had left before. -/
theorem waiting_call_overruns :
    ∃ evs rest, ((Executor.new {}).run_tool sample_crates (fun _ _ _ _ => .done (.ok .null)) timed_plan
        "ping" (.object []) .Cli "").Emits evs rest ∧
      ∃ clock watch request exchange, Sends evs clock watch request exchange ∧
        ¬ InTime (clock.start + 1000000) request exchange := by
  obtain ⟨evs, rest, hemits, hsends, _⟩ := timed_run (5 : Nat)
  exact ⟨evs, rest, hemits, _, _, _, _, hsends, fun hin => absurd hin.2 (by decide)⟩

/-- A call that does not wait ends in time. -/
theorem prompt_call_in_time :
    ∃ evs rest, ((Executor.new {}).run_tool sample_crates (fun _ _ _ _ => .done (.ok .null)) timed_plan
        "ping" (.object []) .Cli "").Emits evs rest ∧
      (∃ clock watch request exchange, Sends evs clock watch request exchange) ∧
      ∀ clock watch request exchange, Sends evs clock watch request exchange →
        InTime (clock.start + 1000000) request exchange := by
  obtain ⟨evs, rest, hemits, hsends, hstarted⟩ := timed_run (0 : Nat)
  refine ⟨evs, rest, hemits, ⟨_, _, _, _, hsends⟩, (run_tool_in_time_iff hemits rfl rfl).mpr ?_⟩
  intro clock watch request exchange hsends
  rw [Counted, hstarted _ _ _ _ hsends]
  exact Nat.zero_le _

end api2mcp.runtime
