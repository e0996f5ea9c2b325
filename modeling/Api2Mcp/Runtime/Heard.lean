import Api2Mcp.Interact.Rules
import Api2Mcp.Runtime.Dispatch

namespace api2mcp.runtime.dispatch

open except interact net serde_json
open api2mcp.http api2mcp.model api2mcp.resolve api2mcp.schema

/-- What a call has heard: the service whose client it asked for, and the status
of the last response it got. -/
structure Heard where
  service : Option Service := none
  status : Option StatusCode := none

def Heard.note (heard : Heard) : DispatchEvent → Heard
  | ⟨.client_for service, _⟩ => { heard with service := some service }
  | ⟨.io (.exchange ..), exchange⟩ =>
    match exchange.outcome with
    | .ok response => { heard with status := some response.status }
    | .error _ => heard
  | _ => heard

/-- What is heard over the events of a call. -/
def heard_of (evs : List DispatchEvent) : Heard := evs.foldl Heard.note {}

/-- The pages are those of the service, and end with the last response. -/
def Matches (heard : Heard) (service_slug : Slug) (pages : List CallResponse) : Prop :=
  heard.service.map (·.slug) = some service_slug ∧
    ∃ page, pages.getLast? = some page ∧ heard.status = some page.status

/-- A result has the pages that its call heard; if it has none, the call heard
nothing, or did not get all of them. -/
def Told (heard : Heard) : Except DispatchError DispatchOutcome → Prop
  | .ok o => Matches heard o.service_slug o.pages
  | .error e =>
    match e.attempt with
    | some attempt => Matches heard attempt.service_slug attempt.pages
    | none => heard.status = none ∨ ∃ failure, e = .Send failure

section

variable {crate : UrlCrate} {from_slice : List UInt8 → Except String Value} {client : Client}
  {params : SendParams}

/-- A request that is handed on is the last response heard. -/
abbrev Hears {α : Type} (post : Heard → α → Prop) (heard : Heard) (p : Io α) : Prop :=
  p.Safe (fun heard e => heard.note (io_event e)) (fun _ _ => True)
    (fun heard' a => heard'.service = heard.service ∧ post heard' a) heard

theorem send_hops_heard (started : Instant) (left : Nat) (request : BoundRequest) (heard : Heard) :
    Hears (fun heard' result => ∀ response, result = .ok response → heard'.status = some response.status)
      heard (send_hops crate client params started left request) := by
  induction left using Nat.strongRecOn generalizing request heard with
  | ind left ih =>
    rw [send_hops.eq_def]
    simp only [Io.now_bind, Io.exchange_bind, Prog.pure_eq]
    split
    · exact .done ⟨rfl, by simp⟩
    refine .ask trivial fun now => ?_
    split
    · exact .done ⟨rfl, by simp⟩
    refine (hop_headers_still (fun _ _ _ => rfl) (fun _ _ => trivial) request params.auth heard).bind
      fun heard' answer => ?_
    rintro rfl
    split
    · exact .done ⟨rfl, by simp⟩
    refine .ask trivial fun exchange => ?_
    split
    · rename_i houtcome
      simp only [Heard.note, io_event, houtcome]
      exact .done ⟨rfl, by simp⟩
    rename_i response houtcome
    simp only [Heard.note, io_event, houtcome]
    split
    · split
      · exact .done ⟨rfl, by simp⟩
      split
      · exact .done ⟨rfl, by simp⟩
      exact ih _ (Nat.lt_succ_self _) _ { heard' with status := some response.status }
    split
    · exact .done ⟨rfl, by simp⟩
    · refine .done ⟨rfl, ?_⟩
      rintro _ ⟨⟩
      rfl

/-- The pages of a call end with the last response it heard. -/
theorem fetch_pages_heard (pagination : Pagination) (max_pages left : Nat) (request : BoundRequest)
    (pages : List CallResponse) (heard : Heard) :
    Hears (fun heard' result => ∀ all, result = .ok all →
        ∃ page, all.getLast? = some page ∧ heard'.status = some page.status)
      heard (fetch_pages crate from_slice client pagination max_pages params left request pages) := by
  induction left generalizing request pages heard with
  | zero => exact .done ⟨rfl, by simp⟩
  | succ left ih =>
    have hsend : Hears (fun heard' result => ∀ response, result = .ok response →
        heard'.status = some response.status) heard (send crate client request params) :=
      .ask trivial fun started => send_hops_heard started _ request heard
    unfold fetch_pages
    refine hsend.bind fun heard' result => ?_
    rintro ⟨hservice, hstatus⟩
    rw [← hservice]
    split
    · exact .done ⟨rfl, by simp⟩
    rename_i response
    split
    · exact .done ⟨rfl, by simp⟩
    · refine .done ⟨rfl, ?_⟩
      rintro _ ⟨⟩
      exact ⟨response, by simp, hstatus response rfl⟩
    · exact ih _ _ heard'

end

section

variable {crates : Crates} {plan : EndpointPlan} {ctx : DispatchContext} {caller_script : Option Slug}
  {name : String} {args : Value} {budget : CallBudget}

/-- An error of the kinds that come after the pages. -/
def DispatchError.Late : DispatchError → Prop
  | .HttpStatus .. | .ResponseNotJson .. | .Projection .. => True
  | _ => False

theorem attempt_with_attempt {e : DispatchError} (h : e.Late) (attempt : DispatchAttempt) :
    (e.with_attempt attempt).attempt = some attempt := by
  cases e with
  | HttpStatus _ _ _ _ => rfl
  | ResponseNotJson _ _ => rfl
  | Projection _ _ => rfl
  | _ => exact h.elim

theorem http_status_error_late {page : CallResponse} {e : DispatchError}
    (h : http_status_error crates page = some e) : e.Late := by
  unfold http_status_error at h
  dsimp only at h
  split at h
  · obtain ⟨cut, _, rfl⟩ := Option.map_eq_some_iff.mp h
    trivial
  · cases h
    trivial

theorem page_value_late (compiled : Option project.CompiledProjection) (page : CallResponse) :
    OnlyFails DispatchError.Late (page_value crates compiled page) := by
  unfold page_value
  dsimp only
  split
  · refine OnlyFails.bind (.ok _) fun body => ?_
    split
    · exact .mapError fun _ => trivial
    · exact .ok _
  · refine OnlyFails.bind (.mapError fun _ => trivial) fun body => ?_
    split
    · exact .mapError fun _ => trivial
    · exact .ok _

theorem project_pages_late (planned : PlannedApiCall) (pages : List CallResponse) :
    OnlyFails DispatchError.Late (project_pages crates planned pages) := by
  have hvalues : ∀ compiled {join : List Value → Except DispatchError Value}, (∀ values, ∃ v, join values = .ok v) →
      OnlyFails DispatchError.Late (pages.mapM (page_value crates compiled) >>= join) := by
    intro compiled join hjoin
    refine OnlyFails.bind (.mapM (page_value_late compiled) pages) fun values => ?_
    obtain ⟨v, hv⟩ := hjoin values
    rw [hv]
    exact .ok v
  unfold project_pages
  dsimp only
  split
  · refine OnlyFails.bind (.ok _) fun compiled => hvalues compiled fun values => ?_
    split <;> exact ⟨_, rfl⟩
  · refine OnlyFails.bind (.mapError fun _ => trivial) fun compiled => hvalues compiled fun values => ?_
    split <;> exact ⟨_, rfl⟩

/-- A name that stands for no call fails before anything is sent. -/
theorem attempt_of_resolve {e : DispatchError} (h : resolve plan caller_script name = .error e) :
    e.attempt = none := by
  have hfails : OnlyFails (fun e : DispatchError => e.attempt = none) (resolve plan caller_script name) := by
    unfold resolve
    split
    · split
      · exact .error rfl
      · split
        · exact .error rfl
        · exact .ok _
    · split
      · exact .error rfl
      · split
        · exact .error rfl
        · split
          · exact .error rfl
          · exact .ok _
  exact hfails e h

theorem conclude_told {planned : PlannedApiCall} {request : BoundRequest} {pages : List CallResponse}
    {heard : Heard} (hheard : Matches heard planned.service.slug pages) :
    (conclude crates planned request pages).Safe Heard.note (fun _ _ => True) Told heard := by
  unfold conclude
  dsimp only
  split
  · split
    · exact .ask trivial fun a => nomatch a
    rename_i error herror
    refine .done ?_
    rw [Told, attempt_with_attempt (http_status_error_late herror)]
    exact hheard
  · split
    · rename_i error herror
      refine .done ?_
      rw [Told, attempt_with_attempt (project_pages_late planned pages error herror)]
      exact hheard
    · exact .done hheard

/-- What a call ends with tells what it heard. -/
theorem dispatch_told : (dispatch crates plan ctx caller_script name args budget).Safe Heard.note
    (fun _ _ => True) Told {} := by
  unfold dispatch
  split
  · rename_i e he
    refine .done ?_
    rw [Told, attempt_of_resolve he]
    exact .inl rfl
  rename_i planned hresolve
  unfold dispatch_call
  split
  · exact .done (.inl rfl)
  split
  · exact .done (.inl rfl)
  rename_i request _
  rw [Dispatch.client_for_bind]
  refine .ask trivial fun answer => ?_
  split
  · exact .done (.inl rfl)
  rename_i client
  let heard : Heard := { service := some planned.service }
  have hio : (Dispatch.io (fetch crates ctx planned budget request client)).Safe Heard.note
      (fun _ _ => True) (fun heard' result => heard'.service = heard.service ∧ ∀ all, result = .ok all →
        ∃ page, all.getLast? = some page ∧ heard'.status = some page.status) heard := by
    unfold Dispatch.io
    refine Prog.Safe.among ?_ ?_ (fetch_pages_heard _ _ _ _ _ heard)
    · exact fun _ _ _ => rfl
    · exact fun _ _ hq => hq
  refine hio.bind fun heard' result => ?_
  rintro ⟨hservice, hpages⟩
  split
  · exact .done (.inr ⟨_, rfl⟩)
  · rename_i pages
    refine conclude_told ⟨?_, hpages pages rfl⟩
    rw [hservice]
    rfl

end

end api2mcp.runtime.dispatch
