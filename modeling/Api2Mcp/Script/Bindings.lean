import Api2Mcp.Http.Redacted
import Api2Mcp.Runtime.Kinds
import Api2Mcp.Script.Marshal
import Api2Mcp.Text.Utf8

namespace api2mcp.script

open btree interact serde_json
open api2mcp.http
open api2mcp.runtime.dispatch api2mcp.runtime.batch
open marshal

/-- What a binding throws: a message that a script may catch, or one that ends
it. -/
inductive EvalAltResult where
  | ErrorRuntime (message : String)
  | ErrorTerminated (message : String)
  deriving DecidableEq

def runtime_err (msg : String) : EvalAltResult := .ErrorRuntime msg

/-- What the bridge's reply is to the binding that waits for it. -/
def entries_of_reply : BridgeReply → Except EvalAltResult (List Value)
  | .Entries entries => .ok entries
  | .Refused msg => .error (runtime_err msg)
  | .Terminated msg => .error (.ErrorTerminated msg)

def send_batch (name : String) (batch : List Value) : Script (Except EvalAltResult (List Value)) :=
  .ask (.call ⟨name, batch⟩) fun reply => .done (entries_of_reply reply)

def first_entry (entries : List Value) (caller : String) : Except EvalAltResult Value :=
  match entries with
  | [] => .error (runtime_err (caller ++ ": empty reply from the host bridge"))
  | entry :: _ => .ok entry

def as_bool : Value → Option Bool
  | .bool b => some b
  | _ => none

def entry_to_value (entry : Value) : Except EvalAltResult marshal.Dynamic :=
  if ((entry.get "ok").bind as_bool).getD false then
    (to_dynamic ((entry.get "value").getD .null)).mapError fun e => runtime_err e.to_string
  else .error (runtime_err (((entry.get "error").bind Value.as_str).getD "api call failed"))

/-- `api`, once its batch was sent. -/
def api_result (sent : Except EvalAltResult (List Value)) : Except EvalAltResult marshal.Dynamic := do
  let entries ← sent
  let entry ← first_entry entries "api"
  entry_to_value entry

/-- `api_try`, once its batch was sent. -/
def api_try_result (sent : Except EvalAltResult (List Value)) : Except EvalAltResult marshal.Dynamic := do
  let entries ← sent
  let entry ← first_entry entries "api_try"
  (to_dynamic entry).mapError fun e => runtime_err e.to_string

/-- `api_many`, once its batch was sent. -/
def api_many_result (sent : Except EvalAltResult (List Value)) : Except EvalAltResult marshal.Dynamic := do
  let entries ← sent
  (to_dynamic (.array entries)).mapError fun e => runtime_err e.to_string

def api_call (name : String) (args : BTreeMap String marshal.Dynamic) : Script (Except EvalAltResult marshal.Dynamic) :=
  match to_json (.map args) with
  | .error e => return .error (runtime_err ("api: " ++ e.to_string))
  | .ok json_args => do
    let sent ← send_batch name [json_args]
    return api_result sent

def api_try_call (name : String) (args : BTreeMap String marshal.Dynamic) : Script (Except EvalAltResult marshal.Dynamic) :=
  match to_json (.map args) with
  | .error e => return .error (runtime_err ("api_try: " ++ e.to_string))
  | .ok json_args => do
    let sent ← send_batch name [json_args]
    return api_try_result sent

def api_many_call (name : String) (args_list : List marshal.Dynamic) : Script (Except EvalAltResult marshal.Dynamic) :=
  match args_list.mapM to_json with
  | .error e => return .error (runtime_err ("api_many: " ++ e.to_string))
  | .ok batch => do
    let sent ← send_batch name batch
    return api_many_result sent

section

variable (crates : Crates) (entry : BatchEntry)

theorem get_ok : (entry_to_json crates entry).get "ok" = some (.bool entry.outcome.is_ok) := by
  unfold entry_to_json
  cases entry.outcome <;> exact Value.get_json_first (by simp)

theorem get_error (h : entry.outcome.is_ok = false) :
    (entry_to_json crates entry).get "error" = some (entry.error_value crates.url) := by
  unfold entry_to_json
  cases houtcome : entry.outcome with
  | Ok outcome =>
    rw [houtcome] at h
    cases h
  | _ => exact Value.get_json_last "error" (entry.error_value crates.url) [_, _]

/-- The error of an entry is an object, and `api` looks for a string. -/
theorem api_result_failed (h : entry.outcome.is_ok = false) :
    api_result (.ok [entry_to_json crates entry]) = .error (.ErrorRuntime "api call failed") := by
  have hobject : ∃ fields, entry.error_value crates.url = .object fields := by
    unfold BatchEntry.error_value
    cases entry.outcome <;> exact ⟨_, rfl⟩
  obtain ⟨fields, hfields⟩ := hobject
  have hentry : entry_to_value (entry_to_json crates entry) = .error (.ErrorRuntime "api call failed") := by
    rw [entry_to_value, get_ok, h, get_error crates entry h, hfields]
    rfl
  exact hentry

theorem begins_append {p : List Char} {s : String} (h : p <+: s.toList) (t : String) :
    p <+: (s ++ t).toList := by
  rw [String.toList_append]
  exact h.trans (List.prefix_append _ _)

/-- No message of a failed call begins as what `api` throws. -/
theorem to_string_begins (e : DispatchError) :
    ∃ p, Word p ∧ p <+: e.to_string.toList ∧ ¬ p <+: "api call failed".toList := by
  have hquote : ∀ name rest, ['"'] <+: (fmt.debug name ++ rest).toList := fun name rest =>
    begins_append (begins_append (begins_append (by decide) _) _) rest
  have hquoted : ¬ ['"'] <+: "api call failed".toList := by decide
  cases e with
  | NotDeclared name => exact ⟨['"'], word_iff.mpr (by decide), hquote name _, hquoted⟩
  | NotAnApiCall name => exact ⟨['"'], word_iff.mpr (by decide), hquote name _, hquoted⟩
  | Args e => exact ⟨['a', 'r'], word_iff.mpr (by decide), begins_append (by decide) _, by decide⟩
  | Bind e => exact ⟨['b'], word_iff.mpr (by decide), begins_append (by decide) _, by decide⟩
  | Send e => exact ⟨['s'], word_iff.mpr (by decide), begins_append (by decide) _, by decide⟩
  | Client message => exact ⟨['b'], word_iff.mpr (by decide), begins_append (by decide) _, by decide⟩
  | HttpStatus status reason detail attempt =>
    have hbegins : ['u'] <+: "upstream returned ".toList := by decide
    exact ⟨['u'], word_iff.mpr (by decide),
      begins_append (begins_append (begins_append (begins_append (begins_append hbegins _) _) _) _) _, by decide⟩
  | ResponseNotJson message attempt =>
    exact ⟨['r'], word_iff.mpr (by decide), begins_append (by decide) _, by decide⟩
  | Projection source attempt =>
    exact ⟨['p'], word_iff.mpr (by decide), begins_append (by decide) _, by decide⟩

theorem redacted_ne (crate : net.UrlCrate) (e : DispatchError) :
    redact_message crate e.to_string ≠ "api call failed" := by
  intro heq
  obtain ⟨p, hp, hbegins, hnot⟩ := to_string_begins e
  obtain h | h := @redact_message_begins crate p hp e.to_string hbegins
  · rw [heq] at h
    exact hnot h
  · rw [heq] at h
    exact absurd h (by decide)

theorem get_budget_message (axis : runtime.budget.BudgetAxis) (attempted : Bool) :
    ∃ message, (budget_error_object axis attempted).get "message" = some (.string message) ∧
      message ≠ "api call failed" := by
  unfold budget_error_object
  refine ⟨_, Value.get_json_last "message" _ [("kind", _), ("axis", _), ("attempted", _)], ?_⟩
  cases attempted <;> cases axis <;> decide

theorem get_dispatch_message (crate : net.UrlCrate) (e : DispatchError) :
    (dispatch_error_object crate e).get "message" = some (.string (redact_message crate e.to_string)) := by
  unfold dispatch_error_object
  exact Value.get_json_last "message" _ _

/-- The error object has a message, and it is not what `api` throws. -/
theorem exists_message (h : entry.outcome.is_ok = false) :
    ∃ message, (entry.error_value crates.url).get "message" = some (.string message) ∧
      message ≠ "api call failed" := by
  unfold BatchEntry.error_value
  cases houtcome : entry.outcome with
  | Ok outcome =>
    rw [houtcome] at h
    cases h
  | Failed e =>
    rw [ItemOutcome.error_object, Option.getD_some]
    exact ⟨_, get_dispatch_message crates.url e, redacted_ne crates.url e⟩
  | NotAttempted axis =>
    rw [ItemOutcome.error_object, Option.getD_some]
    exact get_budget_message axis false
  | BudgetCut axis outcome =>
    rw [ItemOutcome.error_object, Option.getD_some]
    exact get_budget_message axis true

theorem error_value_json : ∃ fields, entry.error_value crates.url = .json fields := by
  unfold BatchEntry.error_value
  cases entry.outcome <;> exact ⟨_, rfl⟩

theorem entry_json : ∃ fields, entry_to_json crates entry = .json fields := by
  unfold entry_to_json
  cases entry.outcome <;> exact ⟨_, rfl⟩

end

/-- The `message` of a reported entry's `error`, as a script reads it. -/
def error_message (reported : marshal.Dynamic) : Option String :=
  match (reported.get "error").bind (·.get "message") with
  | some (.string message) => some message
  | _ => none

section

variable {crates : Crates} {entry : BatchEntry} {message : String}

/-- The engine's value for an entry has the error's message in its place. -/
theorem error_message_dynamic_of (h : entry.outcome.is_ok = false)
    (hmessage : (entry.error_value crates.url).get "message" = some (.string message)) :
    error_message (dynamic_of (entry_to_json crates entry)) = some message := by
  obtain ⟨fields, hentry⟩ := entry_json crates entry
  obtain ⟨error_fields, herror⟩ := error_value_json crates entry
  have houter : (dynamic_of (entry_to_json crates entry)).get "error" =
      some (dynamic_of (entry.error_value crates.url)) := by
    have hget := get_error crates entry h
    rw [hentry] at hget ⊢
    rw [get_dynamic_of_json, hget, Option.map_some]
  have hinner : (dynamic_of (entry.error_value crates.url)).get "message" = some (.string message) := by
    rw [herror] at hmessage ⊢
    rw [get_dynamic_of_json, hmessage, Option.map_some, dynamic_of]
  rw [error_message, houter, Option.bind_some, hinner]

theorem of_api_try {d : marshal.Dynamic}
    (h : api_try_result (.ok [entry_to_json crates entry]) = .ok d) : d = dynamic_of (entry_to_json crates entry) := by
  have hdynamic : to_dynamic (entry_to_json crates entry) = .ok d := except.mapError_eq_ok.mp h
  exact (to_dynamic_iff.mp hdynamic).2

theorem of_api_many {entries : List Value} {d : marshal.Dynamic} (h : api_many_result (.ok entries) = .ok d) :
    d = .array (entries.map dynamic_of) := by
  have hdynamic : to_dynamic (.array entries) = .ok d := except.mapError_eq_ok.mp h
  rw [(to_dynamic_iff.mp hdynamic).2, dynamic_of, dynamic_items_eq]

end

/-- For a call that did not succeed, what `api` throws is never the message that
`api_try` and `api_many` report. -/
theorem api_never_throws_message (crates : Crates) (entry : BatchEntry) (h : entry.outcome.is_ok = false) :
    ∃ thrown message, api_result (.ok [entry_to_json crates entry]) = .error (.ErrorRuntime thrown) ∧
      (entry.error_value crates.url).get "message" = some (.string message) ∧
      (∀ d, api_try_result (.ok [entry_to_json crates entry]) = .ok d → error_message d = some message) ∧
      (∀ (entries : List BatchEntry) (i : Nat), entries[i]? = some entry → ∀ items,
        api_many_result (.ok (entries.map (entry_to_json crates))) = .ok (.array items) →
          ∃ d, items[i]? = some d ∧ error_message d = some message) ∧
      thrown ≠ message := by
  obtain ⟨message, hmessage, hne⟩ := exists_message crates entry h
  have hreported := error_message_dynamic_of h hmessage
  refine ⟨"api call failed", message, api_result_failed crates entry h, hmessage, fun d hd => ?_,
    fun entries i hi items hitems => ?_, hne.symm⟩
  · rw [of_api_try hd, hreported]
  · obtain rfl := marshal.Dynamic.array.inj (of_api_many hitems)
    exact ⟨_, by simp [hi], hreported⟩

/-- The entry of a call that the endpoint does not declare. -/
def undeclared_entry : BatchEntry where
  index := 0
  name := "nope"
  outcome := .Failed (.NotDeclared "nope")

theorem api_never_throws_message_undeclared :
    ∃ thrown message, api_result (.ok [entry_to_json default undeclared_entry]) = .error (.ErrorRuntime thrown) ∧
      (undeclared_entry.error_value (default : Crates).url).get "message" = some (.string message) ∧
      thrown ≠ message := by
  obtain ⟨thrown, message, hthrown, hmessage, -, -, hne⟩ :=
    api_never_throws_message default undeclared_entry rfl
  exact ⟨thrown, message, hthrown, hmessage, hne⟩

/-- `api` throws `api call failed` for every failure. -/
theorem api_throws_no_message :
    ¬ ∀ (crates : Crates) (entry : BatchEntry), entry.outcome.is_ok = false → ∀ thrown,
      api_result (.ok [entry_to_json crates entry]) = .error (.ErrorRuntime thrown) →
        (entry.error_value crates.url).get "message" = some (.string thrown) := by
  intro h
  have hagree := h default undeclared_entry rfl _ (api_result_failed default undeclared_entry rfl)
  obtain ⟨message, hmessage, hne⟩ := exists_message default undeclared_entry rfl
  rw [hmessage] at hagree
  exact hne (Value.string.inj (Option.some.inj hagree))

end api2mcp.script
