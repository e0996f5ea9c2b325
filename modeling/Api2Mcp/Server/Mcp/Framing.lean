import Api2Mcp.Server.Mcp.Handle

namespace api2mcp.server.mcp

open concurrent interact serde_json
open api2mcp.http api2mcp.resolve api2mcp.runtime api2mcp.runtime.fanout
open api2mcp.runtime.dispatch (Crates)

/-- The two routes. -/
inductive Route where
  | named (endpoint_slug : String)
  | control_plane

section

variable (crates : Crates) (engine : script.Engine) (uuid_text : Uuid → String)
  (sha256_hex : String → String) (base_url : String) (oauth_caller : String → Option Caller)
  (policy : SsrfPolicy) (resources : List control.Resource)

def Route.serve (headers : net.HeaderMap) (body : List UInt8) : Route → AppTask (Run Reply)
  | named endpoint_slug => handle crates engine uuid_text sha256_hex base_url oauth_caller policy
      endpoint_slug headers body
  | control_plane =>
    handle_control_plane crates sha256_hex base_url oauth_caller resources headers body

end

/-- What JSON-RPC lets an id be. -/
def IsId : Value → Prop
  | .string _ | .number _ | .null => True
  | _ => False

/-- A request with the method. -/
structure WellFormed (value : Value) (method : String) : Prop where
  version : value.get "jsonrpc" = some (.string "2.0")
  method : value.get "method" = some (.string method)

/-- A JSON-RPC 2.0 response object with the id. -/
structure Responds (id message : Value) : Prop where
  members : ∃ fields, message = .object fields
  version : message.get "jsonrpc" = some (.string "2.0")
  id : message.get "id" = some id
  exactly_one : ¬((message.get "result").isSome ↔ (message.get "error").isSome)

section

variable (from_slice : List UInt8 → Except String Value) (body : List UInt8)

def Notification : Prop :=
  ∃ value method, from_slice body = .ok value ∧ WellFormed value method ∧ value.get "id" = none

/-- The id is the request's, and `null` where that cannot be determined. -/
def IdOf (id : Value) : Prop :=
  (∃ value, from_slice body = .ok value ∧ value.get "id" = some id ∧ IsId id) ∨
  id = .null ∧ ∀ value id', from_slice body = .ok value → value.get "id" = some id' → ¬IsId id'

/-- A notification is not responded to; any other body is, with its id. -/
def Framed (reply : Reply) : Prop :=
  (Notification from_slice body → reply.body = none) ∧
  (¬Notification from_slice body →
    ∃ id message, IdOf from_slice body id ∧ reply.body = some message ∧ Responds id message)

/-- What the routes tell apart as JSON-RPC does: the notification that a client
is initialized, and what has an id that can be echoed, without being a request
of that method. -/
def Framable : Prop :=
  ∃ value, from_slice body = .ok value ∧
    (value.get "id" = none ∧ WellFormed value "notifications/initialized" ∨
      (∃ id, value.get "id" = some id ∧ IsId id) ∧ ¬WellFormed value "notifications/initialized")

end

/-! Every response bears the id it was made for. -/

structure JsonRpcResponse.Answers (id : Option Value) (response : JsonRpcResponse) : Prop where
  id : response.id = id
  exactly_one : ¬(response.result.isSome ↔ response.error.isSome)

theorem answers_result (id : Option Value) (result : Value) :
    (JsonRpcResponse.of_result id result).Answers id :=
  ⟨rfl, by simp [JsonRpcResponse.of_result]⟩

theorem answers_error (id : Option Value) (code : Int) (message : String) :
    (JsonRpcResponse.of_error id code message).Answers id :=
  ⟨rfl, by simp [JsonRpcResponse.of_error]⟩

theorem get_to_value (response : JsonRpcResponse) :
    response.to_value.get "jsonrpc" = some (.string "2.0") ∧
    response.to_value.get "id" = response.id ∧
    response.to_value.get "result" = response.result ∧
    response.to_value.get "error" = response.error.map JsonRpcError.to_value := by
  obtain ⟨id, result, error⟩ := response
  unfold JsonRpcResponse.to_value
  rw [Value.get_json, Value.get_json, Value.get_json, Value.get_json]
  cases id <;> cases result <;> cases error <;> simp

theorem responds_of_answers {id : Value} {response : JsonRpcResponse}
    (h : response.Answers (some id)) : Responds id response.to_value := by
  obtain ⟨hversion, hid, hresult, herror⟩ := get_to_value response
  refine ⟨⟨_, rfl⟩, hversion, by rw [hid, h.id], ?_⟩
  rw [hresult, herror, Option.isSome_map]
  exact h.exactly_one

/-- Without an id there is no response to match. -/
theorem not_responds_of_answers {response : JsonRpcResponse} (h : response.Answers none)
    (id : Value) : ¬Responds id response.to_value := by
  intro hresponds
  have hid := (get_to_value response).2.1
  rw [h.id, hresponds.id] at hid
  cases hid

theorem resolve_plan_answers {crate : net.UrlCrate} {json : JsonCrate} {sha256_hex : String → String}
    {endpoint_slug : String} {caller : Caller} {endpoint_grants : EndpointGrants} {id : Option Value}
    {st : Nat → AppState} {n m : Nat} {response : JsonRpcResponse}
    (hran : Task.Ran st n (resolve_plan crate json sha256_hex endpoint_slug caller endpoint_grants id) m
      (.done (.error response))) : response.Answers id := by
  unfold resolve_plan at hran
  split at hran
  · obtain ⟨_, h⟩ := Task.ran_done.mp hran
    cases h
    exact answers_error ..
  split at hran
  · obtain ⟨_, h⟩ := Task.ran_done.mp hran
    cases h
    exact answers_error ..
  obtain ⟨k, answer, _, hrest⟩ := hran.bind
  cases answer with
  | ok plan =>
    obtain ⟨_, h⟩ := Task.ran_done.mp hrest
    cases h
  | error e =>
    obtain ⟨_, h⟩ := Task.ran_done.mp hrest
    cases h
    exact answers_error ..

theorem dispatch_method_answers {crate : net.UrlCrate} {json : JsonCrate}
    {sha256_hex : String → String} {endpoint_slug : String} {caller : Caller}
    {endpoint_grants : EndpointGrants} {req : JsonRpcRequest} {st : Nat → AppState} {n m : Nat}
    {response : JsonRpcResponse}
    (hran : Task.Ran st n
      (dispatch_method crate json sha256_hex endpoint_slug caller endpoint_grants req) m
      (.done (.respond response))) : response.Answers req.id := by
  unfold dispatch_method at hran
  split at hran
  · obtain ⟨k, answer, hplan, hrest⟩ := hran.bind
    cases answer with
    | ok plan =>
      obtain ⟨_, h⟩ := Task.ran_done.mp hrest
      cases h
    | error resp =>
      obtain ⟨_, h⟩ := Task.ran_done.mp hrest
      cases h
      exact resolve_plan_answers hplan
  split at hran
  · obtain ⟨k, answer, hplan, hrest⟩ := hran.bind
    cases answer with
    | ok plan =>
      dsimp only at hrest
      split at hrest
      · obtain ⟨_, h⟩ := Task.ran_done.mp hrest
        cases h
      · obtain ⟨_, h⟩ := Task.ran_done.mp hrest
        cases h
    | error resp =>
      obtain ⟨_, h⟩ := Task.ran_done.mp hrest
      cases h
      exact resolve_plan_answers hplan
  · obtain ⟨_, h⟩ := Task.ran_done.mp hran
    cases h
    exact answers_error ..

section

variable {crates : Crates} {engine : script.Engine} {uuid_text : Uuid → String} {policy : SsrfPolicy}

theorem respond_answers (id : Option Value)
    (outcome : Except invoke.DispatchError invoke.ToolCallOutcome) :
    (handlers.respond crates id outcome).Answers id := by
  cases outcome with
  | ok outcome => exact answers_result ..
  | error e => cases e <;> exact answers_error ..

theorem tools_call_answers {id : Option Value} {plan : EndpointPlan} {executor : Executor}
    {caller : Caller} {params : Option Value} {evs : List RunEvent} {response : JsonRpcResponse}
    (hrun : (handlers.tools_call crates engine uuid_text id plan executor caller params).Emits evs
      (.done response)) : response.Answers id := by
  cases params with
  | none =>
    obtain ⟨_, h⟩ := hrun.of_done
    cases h
    exact answers_error ..
  | some params =>
    obtain ⟨outcome, _, _, _, _, hrest⟩ := hrun.done_of_bind
    obtain ⟨_, h⟩ := hrest.of_done
    cases h
    exact respond_answers id outcome

theorem run_answers {caller : Caller} {id : Option Value} {dispatched : Dispatched}
    (hearly : ∀ response, dispatched = .respond response → response.Answers id)
    {evs : List RunEvent} {response : JsonRpcResponse}
    (hrun : (dispatched.run crates engine uuid_text policy caller id).Emits evs (.done response)) :
    response.Answers id := by
  cases dispatched with
  | respond early =>
    obtain ⟨_, h⟩ := hrun.of_done
    cases h
    exact hearly response rfl
  | initialize_result plan =>
    obtain ⟨_, h⟩ := hrun.of_done
    cases h
    exact answers_result ..
  | tools_list plan =>
    obtain ⟨_, h⟩ := hrun.of_done
    cases h
    exact answers_result ..
  | tools_call plan params => exact tools_call_answers hrun

end

namespace control

theorem now_answers {id : Option Value} {early : JsonRpcResponse} (hearly : early.Answers id)
    {st : Nat → AppState} {n m : Nat} {run : Run JsonRpcResponse} {evs : List RunEvent}
    {response : JsonRpcResponse} (hran : Task.Ran st n (now early) m (.done run))
    (hrun : run.Emits evs (.done response)) : response.Answers id := by
  obtain ⟨_, rfl⟩ := Task.ran_done.mp hran
  obtain ⟨_, h⟩ := hrun.of_done
  cases h
  exact hearly

theorem tools_call_answers {resources : List Resource} {id : Option Value} {owner_id : Uuid}
    {params : Option Value} {st : Nat → AppState} {n m : Nat} {run : Run JsonRpcResponse}
    {evs : List RunEvent} {response : JsonRpcResponse}
    (hran : Task.Ran st n (tools_call resources id owner_id params) m (.done run))
    (hrun : run.Emits evs (.done response)) : response.Answers id := by
  cases params with
  | none => exact now_answers (answers_error ..) hran hrun
  | some params =>
    unfold tools_call at hran
    dsimp only at hran
    split at hran
    · exact now_answers (answers_error ..) hran hrun
    · obtain ⟨k, tool, _, hrest⟩ := hran.bind
      obtain ⟨_, rfl⟩ := Task.ran_done.mp hrest
      obtain ⟨outcome, _, _, _, _, hlast⟩ := hrun.done_of_bind
      obtain ⟨_, h⟩ := hlast.of_done
      cases h
      exact answers_result ..

theorem dispatch_method_answers {crate : net.UrlCrate} {resources : List Resource}
    {credential : ResolvedCredential} {req : JsonRpcRequest} {st : Nat → AppState} {n m : Nat}
    {run : Run JsonRpcResponse} {evs : List RunEvent} {response : JsonRpcResponse}
    (hran : Task.Ran st n (dispatch_method crate resources credential req) m (.done run))
    (hrun : run.Emits evs (.done response)) : response.Answers req.id := by
  unfold dispatch_method at hran
  split at hran
  · unfold resolve_control_plane at hran
    cases hcapable : credential.control_plane with
    | false =>
      rw [hcapable] at hran
      exact now_answers (answers_error ..) hran hrun
    | true =>
      rw [hcapable] at hran
      simp only [if_true] at hran
      split at hran
      · exact now_answers (answers_result ..) hran hrun
      split at hran
      · exact now_answers (answers_result ..) hran hrun
      · exact tools_call_answers hran hrun
  · exact now_answers (answers_error ..) hran hrun

end control

/-- What an authenticated request is answered with. -/
inductive Answered (from_slice : List UInt8 → Except String Value) (body : List UInt8) : Reply → Prop
  | refused {resp : JsonRpcResponse} : parse_request from_slice body = .error resp →
      Answered from_slice body (.json resp)
  | initialized {req : JsonRpcRequest} : parse_request from_slice body = .ok req →
      req.method = "notifications/initialized" → Answered from_slice body .accepted
  | dispatched {req : JsonRpcRequest} {resp : JsonRpcResponse} :
      parse_request from_slice body = .ok req → req.method ≠ "notifications/initialized" →
      resp.Answers req.id → Answered from_slice body (.json resp)

section

variable {crates : Crates} {engine : script.Engine} {uuid_text : Uuid → String}
  {sha256_hex : String → String} {base_url : String} {oauth_caller : String → Option Caller}
  {policy : SsrfPolicy} {resources : List control.Resource} {headers : net.HeaderMap}
  {body : List UInt8} {st : Nat → AppState} {n m : Nat} {run : Run Reply} {evs : List RunEvent}
  {reply : Reply}

theorem reply_of_now {early : Reply} (hran : Task.Ran st n (now early) m (.done run))
    (hrun : run.Emits evs (.done reply)) : reply = early := by
  obtain ⟨_, rfl⟩ := Task.ran_done.mp hran
  obtain ⟨_, h⟩ := hrun.of_done
  cases h
  rfl

/-- Both handlers read a request the same way. -/
theorem answered_of_parsed {rest : JsonRpcRequest → AppTask (Run Reply)}
    (hrest : ∀ {req : JsonRpcRequest} {k : Nat}, Task.Ran st k (rest req) m (.done run) →
      ∃ resp, resp.Answers req.id ∧ reply = .json resp)
    {k : Nat} (hran : Task.Ran st k
      (match parse_request crates.json.from_slice body with
        | .error resp => now (.json resp)
        | .ok req => if req.method = "notifications/initialized" then now .accepted else rest req) m
      (.done run)) (hrun : run.Emits evs (.done reply)) :
    Answered crates.json.from_slice body reply := by
  split at hran
  · rename_i resp hparse
    rw [reply_of_now hran hrun]
    exact .refused hparse
  · rename_i req hparse
    split at hran
    · rename_i hmethod
      rw [reply_of_now hran hrun]
      exact .initialized hparse hmethod
    · rename_i hmethod
      obtain ⟨resp, hanswers, rfl⟩ := hrest hran
      exact .dispatched hparse hmethod hanswers

theorem handle_answered {endpoint_slug : String}
    (hran : Task.Ran st n (handle crates engine uuid_text sha256_hex base_url oauth_caller policy
      endpoint_slug headers body) m (.done run))
    (hrun : run.Emits evs (.done reply)) (hauth : reply.status.as_u16 ≠ 401) :
    Answered crates.json.from_slice body reply := by
  obtain ⟨k, answer, _, hrest⟩ := hran.bind
  cases answer with
  | error challenge =>
    rw [reply_of_now hrest hrun] at hauth
    exact absurd rfl hauth
  | ok credential =>
    refine answered_of_parsed ?_ hrest hrun
    intro req k hdispatch
    obtain ⟨_, dispatched, hfirst, hlast⟩ := hdispatch.bind
    obtain ⟨_, rfl⟩ := Task.ran_done.mp hlast
    obtain ⟨resp, _, _, _, hresp, hjson⟩ := hrun.done_of_bind
    obtain ⟨_, h⟩ := hjson.of_done
    cases h
    refine ⟨resp, run_answers ?_ hresp, rfl⟩
    intro early hearly
    rw [hearly] at hfirst
    exact dispatch_method_answers hfirst

theorem handle_control_plane_answered
    (hran : Task.Ran st n (handle_control_plane crates sha256_hex base_url oauth_caller resources
      headers body) m (.done run))
    (hrun : run.Emits evs (.done reply)) (hauth : reply.status.as_u16 ≠ 401) :
    Answered crates.json.from_slice body reply := by
  obtain ⟨k, answer, _, hrest⟩ := hran.bind
  cases answer with
  | error challenge =>
    rw [reply_of_now hrest hrun] at hauth
    exact absurd rfl hauth
  | ok credential =>
    refine answered_of_parsed ?_ hrest hrun
    intro req k hdispatch
    obtain ⟨_, inner, hfirst, hlast⟩ := hdispatch.bind
    obtain ⟨_, rfl⟩ := Task.ran_done.mp hlast
    obtain ⟨resp, _, _, _, hresp, hjson⟩ := hrun.done_of_bind
    obtain ⟨_, h⟩ := hjson.of_done
    cases h
    exact ⟨resp, control.dispatch_method_answers hfirst hresp, rfl⟩

end

theorem recover_id_eq_some {value id : Value} :
    recover_id value = some id ↔ value.get "id" = some id ∧ IsId id := by
  unfold recover_id
  cases hid : value.get "id" with
  | none => simp
  | some found =>
    cases found with
    | null => simp +contextual [IsId, eq_comm]
    | bool b => simp +contextual [IsId, eq_comm]
    | number n => simp +contextual [IsId, eq_comm]
    | string s => simp +contextual [IsId, eq_comm]
    | array items => simp +contextual [IsId, eq_comm]
    | object fields => simp +contextual [IsId, eq_comm]

theorem as_str_eq_some {value : Value} {s : String} : value.as_str = some s ↔ value = .string s := by
  cases value <;> simp [Value.as_str]

/-- What the parser makes of a body that is JSON. -/
theorem parse_request_of_ok {from_slice : List UInt8 → Except String Value} {body : List UInt8}
    {value : Value} (hvalue : from_slice body = .ok value) :
    ((∀ method, ¬WellFormed value method) ∧
      ∃ resp, parse_request from_slice body = .error resp ∧ resp.Answers (recover_id value)) ∨
    ∃ req, parse_request from_slice body = .ok req ∧ WellFormed value req.method ∧
      req.id = recover_id value := by
  unfold parse_request
  rw [hvalue]
  dsimp only
  split
  · rename_i hversion
    refine .inl ⟨fun method hwell => hversion ?_, _, rfl, answers_error ..⟩
    rw [hwell.version]
    rfl
  · rename_i hversion
    obtain ⟨version, hget, hstr⟩ := Option.bind_eq_some_iff.mp (not_not.mp hversion)
    cases hmethod : (value.get "method").bind Value.as_str with
    | none =>
      refine .inl ⟨fun method hwell => ?_, _, rfl, answers_error ..⟩
      rw [hwell.method] at hmethod
      cases hmethod
    | some method =>
      obtain ⟨found, hfound, hname⟩ := Option.bind_eq_some_iff.mp hmethod
      refine .inr ⟨_, rfl, ⟨?_, ?_⟩, rfl⟩
      · rw [hget, as_str_eq_some.mp hstr]
      · rw [hfound, as_str_eq_some.mp hname]

section

variable {from_slice : List UInt8 → Except String Value} {body : List UInt8}

theorem WellFormed.unique {value : Value} {method method' : String} (h : WellFormed value method)
    (h' : WellFormed value method') : method = method' := by
  have hsame := h.method.symm.trans h'.method
  cases hsame
  rfl

/-- A response with an id that was recovered is framed. -/
theorem framed_of_answers {value id : Value} {resp : JsonRpcResponse}
    (hvalue : from_slice body = .ok value) (hid : recover_id value = some id)
    (hanswers : resp.Answers (some id)) : Framed from_slice body (.json resp) := by
  have hget := recover_id_eq_some.mp hid
  constructor
  · rintro ⟨value', method, hvalue', _, habsent⟩
    rw [hvalue] at hvalue'
    cases hvalue'
    rw [hget.1] at habsent
    cases habsent
  · intro _
    exact ⟨id, _, .inl ⟨value, hvalue, hget⟩, rfl, responds_of_answers hanswers⟩

theorem not_framed_of_answers {resp : JsonRpcResponse} (hanswers : resp.Answers none) :
    ¬Framed from_slice body (.json resp) := by
  intro hframed
  by_cases hnotification : Notification from_slice body
  · cases hframed.1 hnotification
  · obtain ⟨id, message, _, hbody, hresponds⟩ := hframed.2 hnotification
    cases hbody
    exact not_responds_of_answers hanswers id hresponds

theorem framed_accepted : Framed from_slice body .accepted ↔ Notification from_slice body := by
  constructor
  · intro hframed
    by_contra hnot
    obtain ⟨_, _, _, hbody, _⟩ := hframed.2 hnot
    cases hbody
  · intro hnotification
    exact ⟨fun _ => rfl, fun hnot => absurd hnotification hnot⟩

theorem framable_iff {value : Value} (hvalue : from_slice body = .ok value) :
    Framable from_slice body ↔
      (value.get "id" = none ∧ WellFormed value "notifications/initialized" ∨
        (recover_id value).isSome = true ∧ ¬WellFormed value "notifications/initialized") := by
  simp only [Framable, hvalue, Except.ok.injEq, exists_eq_left', Option.isSome_iff_exists,
    recover_id_eq_some]

theorem Answered.framed_iff {reply : Reply} (h : Answered from_slice body reply) :
    Framed from_slice body reply ↔ Framable from_slice body := by
  cases hvalue : from_slice body with
  | error e =>
    have hparse : parse_request from_slice body = .error (.of_error none (-32700) "Parse error") := by
      unfold parse_request
      rw [hvalue]
    have hnot : ¬Framable from_slice body := by
      rintro ⟨value, hvalue', _⟩
      rw [hvalue] at hvalue'
      cases hvalue'
    rw [iff_false_right hnot]
    cases h with
    | refused h =>
      rw [hparse] at h
      cases h
      exact not_framed_of_answers (answers_error ..)
    | initialized h _ =>
      rw [hparse] at h
      cases h
    | dispatched h _ _ =>
      rw [hparse] at h
      cases h
  | ok value =>
    -- with an id that was recovered the response is framed, without one it is not
    have hjson : ∀ {resp : JsonRpcResponse}, resp.Answers (recover_id value) →
        (Framed from_slice body (.json resp) ↔ (recover_id value).isSome = true) := by
      intro resp hanswers
      cases hid : recover_id value with
      | none =>
        rw [hid] at hanswers
        simpa using not_framed_of_answers hanswers
      | some id =>
        rw [hid] at hanswers
        simpa using framed_of_answers hvalue hid hanswers
    rw [framable_iff hvalue]
    obtain ⟨hmalformed, resp, hparse, hanswers⟩ | ⟨req, hparse, hwell, hid⟩ :=
      parse_request_of_ok hvalue
    · cases h with
      | refused h =>
        rw [hparse] at h
        cases h
        rw [hjson hanswers]
        simp [hmalformed]
      | initialized h _ =>
        rw [hparse] at h
        cases h
      | dispatched h _ _ =>
        rw [hparse] at h
        cases h
    · cases h with
      | refused h =>
        rw [hparse] at h
        cases h
      | initialized h hmethod =>
        rw [hparse] at h
        cases h
        rw [hmethod] at hwell
        rw [framed_accepted]
        constructor
        · rintro ⟨value', _, hvalue', _, habsent⟩
          rw [hvalue] at hvalue'
          cases hvalue'
          exact .inl ⟨habsent, hwell⟩
        · rintro (⟨habsent, _⟩ | ⟨_, hnot⟩)
          · exact ⟨value, _, hvalue, hwell, habsent⟩
          · exact absurd hwell hnot
      | dispatched h hmethod hanswers =>
        rw [hparse] at h
        cases h
        rw [hid] at hanswers
        have hother : ¬WellFormed value "notifications/initialized" :=
          fun hinit => hmethod (hwell.unique hinit)
        rw [hjson hanswers]
        simp [hother]

end

section

variable {crates : Crates} {engine : script.Engine} {uuid_text : Uuid → String}
  {sha256_hex : String → String} {base_url : String} {oauth_caller : String → Option Caller}
  {policy : SsrfPolicy} {resources : List control.Resource} {headers : net.HeaderMap}
  {body : List UInt8} {st : Nat → AppState} {n m : Nat} {run : Run Reply} {evs : List RunEvent}
  {reply : Reply}

/-- On either route, whatever the server does meanwhile and whatever the world
answers, an authenticated body is framed as JSON-RPC asks exactly if it is an
object with an id that can be echoed and not a `notifications/initialized`
request, or that request without an id. -/
theorem framed_iff_framable (route : Route)
    (hran : Task.Ran st n (route.serve crates engine uuid_text sha256_hex base_url oauth_caller policy
      resources headers body) m (.done run))
    (hrun : run.Emits evs (.done reply)) (hauth : reply.status.as_u16 ≠ 401) :
    Framed crates.json.from_slice body reply ↔ Framable crates.json.from_slice body := by
  cases route with
  | named endpoint_slug => exact (handle_answered hran hrun hauth).framed_iff
  | control_plane => exact (handle_control_plane_answered hran hrun hauth).framed_iff

end

/-! A client with a token, and what it sends. -/

def client : String → Option Caller := fun _ => some { kind := .Oauth, id := 1 }

def client_headers : net.HeaderMap := [(⟨"authorization"⟩, ⟨net.utf8 "Bearer t", false⟩)]

theorem client_token : bearer_token client_headers = some "t" := by decide

/-- A reader that knows one text. -/
def reads (text : String) (value : Value) (body : List UInt8) : Except String Value :=
  if body = net.utf8 text then .ok value else .error "expected value"

theorem reads_text (text : String) (value : Value) :
    reads text value (net.utf8 text) = .ok value := if_pos rfl

/-- What `/mcp/crm` makes of a text of the client. -/
def served (text : String) (value : Value) : AppTask (Run Reply) :=
  (Route.named "crm").serve
    { (default : Crates) with json := { (default : JsonCrate) with from_slice := reads text value } }
    (fun _ _ _ _ => .done (.ok .null)) (fun _ => "") (fun _ => "") "" client ⟨false⟩ [] client_headers
    (net.utf8 text)

/-- A method that the routes do not have is answered at once. -/
theorem served_unknown {text : String} {value : Value} (id : Option Value) (method : String)
    (hparse : ∀ from_slice, from_slice (net.utf8 text) = .ok value →
      parse_request from_slice (net.utf8 text) = .ok { id, method, params := none })
    (hinit : method ≠ "notifications/initialized") (hunknown : ¬(method = "initialize" ∨
      method = "tools/list" ∨ method = "tools/call")) :
    served text value = now (.json (.of_error id (-32601) ("Method not found: " ++ method))) := by
  obtain ⟨hopen, hlist, hcall⟩ := by simpa only [not_or] using hunknown
  unfold served Route.serve handle authenticate_mcp
  rw [client_token]
  show (match parse_request (reads text value) (net.utf8 text) with
    | .error resp => _
    | .ok req => _) = _
  rw [hparse _ (reads_text text value)]
  dsimp only
  rw [if_neg hinit]
  unfold dispatch_method
  simp only [hopen, hlist, hcall, if_false, Bool.or_self, decide_false, Bool.false_eq_true]
  rfl

def ping_text : String := "\x7b\"id\":\"7\",\"jsonrpc\":\"2.0\",\"method\":\"ping\"\x7d"

def ping : Value :=
  .object [("id", .string "7"), ("jsonrpc", .string "2.0"), ("method", .string "ping")]

theorem served_ping : served ping_text ping =
    now (.json (.of_error (some (.string "7")) (-32601) "Method not found: ping")) := by
  refine served_unknown (some (.string "7")) "ping" (fun from_slice hvalue => ?_) (by decide)
    (by decide)
  unfold parse_request
  rw [hvalue]
  rfl

/-- A request for a method that the route does not have is framed. -/
theorem ping_framed :
    Framed (reads ping_text ping) (net.utf8 ping_text)
      (.json (.of_error (some (.string "7")) (-32601) "Method not found: ping")) ∧
    Framable (reads ping_text ping) (net.utf8 ping_text) := by
  let st : Nat → AppState := fun _ => ⟨⟨{}, none, false, 0, []⟩, .empty⟩
  have hran : Task.Ran st 0 (served ping_text ping) 0 (.done (.done
      (.json (.of_error (some (.string "7")) (-32601) "Method not found: ping")))) := by
    rw [served_ping]
    exact .idle (Nat.le_refl 0)
  have hiff := framed_iff_framable _ hran (.nil _) (by decide)
  have hframable : Framable (reads ping_text ping) (net.utf8 ping_text) := by
    refine ⟨ping, reads_text .., .inr ⟨⟨_, rfl, trivial⟩, fun hwell => ?_⟩⟩
    have hping : "ping" = "notifications/initialized" :=
      Value.string.inj (Option.some.inj hwell.method)
    exact absurd hping (by decide)
  exact ⟨hiff.mpr hframable, hframable⟩

def cancelled_text : String :=
  "\x7b\"jsonrpc\":\"2.0\",\"method\":\"notifications/cancelled\"\x7d"

def cancelled : Value :=
  .object [("jsonrpc", .string "2.0"), ("method", .string "notifications/cancelled")]

/-- The notification that a request was cancelled gets a response, and that has
no id. -/
theorem cancelled_answered :
    served cancelled_text cancelled =
      now (.json (.of_error none (-32601) "Method not found: notifications/cancelled")) ∧
    ¬Framed (reads cancelled_text cancelled) (net.utf8 cancelled_text)
      (.json (.of_error none (-32601) "Method not found: notifications/cancelled")) := by
  refine ⟨served_unknown none "notifications/cancelled" (fun from_slice hvalue => ?_) (by decide)
    (by decide), not_framed_of_answers (answers_error ..)⟩
  unfold parse_request
  rw [hvalue]
  rfl

end api2mcp.server.mcp
