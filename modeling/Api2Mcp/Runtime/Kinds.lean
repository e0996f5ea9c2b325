import Api2Mcp.Runtime.Recorder
import Api2Mcp.Script.Bridge

namespace serde_json.Value

/-- A member that is named once is kept. -/
theorem get_json_first {key : String} {value : Value} {fields : List (String × Value)}
    (h : ∀ field ∈ fields, field.1 ≠ key) : (json ((key, value) :: fields)).get key = some value := by
  rw [get_json, List.foldl_cons, if_pos rfl]
  induction fields with
  | nil => rfl
  | cons field fields ih =>
    obtain ⟨hfield, hfields⟩ := List.forall_mem_cons.mp h
    rw [List.foldl_cons, if_neg hfield.symm]
    exact ih hfields

theorem get_json_last (key : String) (value : Value) (fields : List (String × Value)) :
    (json (fields ++ [(key, value)])).get key = some value := by
  rw [get_json, List.foldl_append, List.foldl_cons, if_pos rfl, List.foldl_nil]

end serde_json.Value

namespace api2mcp

open serde_json

/-- No member takes the place of an error's kind. -/
def Fields.Kindless (fields : Fields) : Prop := ∀ field ∈ fields, field.1 ≠ "kind"

theorem Fields.Kindless.cons {name : String} {value : Value} {fields : Fields} (hname : name ≠ "kind")
    (h : Fields.Kindless fields) : Fields.Kindless ((name, value) :: fields) :=
  List.forall_mem_cons.mpr ⟨hname, h⟩

theorem CredError.fields_kindless (e : CredError) : Fields.Kindless e.fields := by
  cases e <;> simp [CredError.fields, Fields.Kindless]

theorem schema.ValidationError.fields_kindless (e : schema.ValidationError) : Fields.Kindless e.fields := by
  cases e <;> simp [ValidationError.fields, Fields.Kindless]

namespace http

theorem GuardError.fields_kindless (e : GuardError) : Fields.Kindless e.fields := by
  cases e <;> simp [GuardError.fields, Fields.Kindless]

theorem AuthError.fields_kindless (e : AuthError) : Fields.Kindless e.fields := by
  cases e with
  | Credential e => exact e.fields_kindless.cons (by decide)
  | InvalidHeaderName name => simp [AuthError.fields, Fields.Kindless]

theorem BodyError.fields_kindless (e : BodyError) : Fields.Kindless e.fields := by
  cases e <;> simp [BodyError.fields, Fields.Kindless]

theorem CallError.fields_kindless (e : CallError) : Fields.Kindless e.fields := by
  cases e with
  | Guard e => exact e.fields_kindless.cons (by decide)
  | Auth e => exact e.fields_kindless.cons (by decide)
  | Body e => exact e.fields_kindless.cons (by decide)
  | _ => simp [CallError.fields, Fields.Kindless]

theorem PaginateError.fields_kindless (e : PaginateError) : Fields.Kindless e.fields := by
  cases e with
  | Call e => exact e.fields_kindless.cons (by decide)
  | _ => simp [PaginateError.fields, Fields.Kindless]

/-- An error that holds no bare text where its tag would have to stand. -/
def BindError.keeps_tag : BindError → Bool
  | .Template .EmptySegment => true
  | .Template _ => false
  | .UrlParse _ => false
  | _ => true

theorem BindError.fields_of_tag {e : BindError} (h : e.keeps_tag = true) :
    ∃ fields, e.fields = some fields ∧ Fields.Kindless fields := by
  cases e with
  | Template e =>
    cases e with
    | EmptySegment => exact ⟨_, rfl, by simp [Fields.Kindless]⟩
    | _ => cases h
  | UrlParse message => cases h
  | _ => exact ⟨_, rfl, by simp [Fields.Kindless]⟩

theorem BindError.fields_of_no_tag {e : BindError} (h : e.keeps_tag = false) : e.fields = none := by
  cases e with
  | Template e =>
    cases e with
    | EmptySegment => cases h
    | _ => rfl
  | UrlParse message => rfl
  | _ => cases h

end http

namespace runtime

open api2mcp.http
open api2mcp.runtime.dispatch

/-- The kind that scripts are told to branch on. -/
def dispatch.DispatchError.documented_kind : DispatchError → String
  | .NotDeclared _ => "not_declared"
  | .NotAnApiCall _ => "not_an_api_call"
  | .Args _ => "args"
  | .Bind _ => "bind"
  | .Send _ => "send"
  | .Client _ => "client"
  | .HttpStatus .. => "http_status"
  | .ResponseNotJson .. => "response_not_json"
  | .Projection .. => "projection"

theorem dispatch.DispatchError.documented_kind_ne (e : DispatchError) : e.documented_kind ≠ "internal" := by
  cases e <;> simp [documented_kind]

/-- Whether each of the nested errors can carry its tag. -/
def dispatch.DispatchError.keeps_tag : DispatchError → Bool
  | .Bind e => e.keeps_tag
  | .Client _ => false
  | _ => true

theorem dispatch.DispatchError.fields_of_tag {e : DispatchError} (h : e.keeps_tag = true) :
    ∃ fields, e.fields = some (("kind", .string e.documented_kind) :: fields) ∧ Fields.Kindless fields := by
  cases e with
  | Args e => exact ⟨_, rfl, e.fields_kindless⟩
  | Bind e =>
    obtain ⟨fields, hfields, hkindless⟩ := BindError.fields_of_tag h
    refine ⟨fields, ?_, hkindless⟩
    rw [DispatchError.fields, hfields]
    rfl
  | Send e => exact ⟨_, rfl, e.fields_kindless⟩
  | Client message => cases h
  | _ => exact ⟨_, rfl, by simp [Fields.Kindless]⟩

theorem dispatch.DispatchError.fields_of_no_tag {e : DispatchError} (h : e.keeps_tag = false) :
    e.fields = none := by
  cases e with
  | Bind e => rw [DispatchError.fields, BindError.fields_of_no_tag h, Option.map_none]
  | Client message => rfl
  | _ => cases h

namespace batch

variable {crates : Crates} {entry : BatchEntry} {e : DispatchError}

/-- An object whose error is of a kind and has a message. -/
def tells (kind : String) (told : Value) : Prop :=
  ∃ error message, told.get "error" = some error ∧ error.get "kind" = some (.string kind) ∧
    error.get "message" = some (.string message)

theorem tells_unique {kind other : String} {told : Value} (h : tells kind told) (hother : tells other told) :
    kind = other := by
  obtain ⟨error, _, herror, hkind, _⟩ := h
  obtain ⟨error', _, herror', hkind', _⟩ := hother
  obtain rfl := Option.some.inj (herror.symm.trans herror')
  exact Value.string.inj (Option.some.inj (hkind.symm.trans hkind'))

/-- The kind that an error is serialized with. -/
def told_kind (e : DispatchError) : String := if e.keeps_tag then e.documented_kind else "internal"

theorem told_kind_eq_iff (e : DispatchError) : told_kind e = e.documented_kind ↔ e.keeps_tag = true := by
  unfold told_kind
  split <;> rename_i h
  · exact ⟨fun _ => h, fun _ => rfl⟩
  · exact ⟨fun heq => absurd heq.symm e.documented_kind_ne, fun h' => absurd h' h⟩

theorem dispatch_error_object_kind (crate : net.UrlCrate) (e : DispatchError) :
    (dispatch_error_object crate e).get "kind" = some (.string (told_kind e)) := by
  have hmessage : Fields.Kindless [("message", .string (redact_message crate e.to_string))] := by
    simp [Fields.Kindless]
  unfold dispatch_error_object told_kind
  by_cases h : e.keeps_tag = true
  · obtain ⟨fields, hfields, hkindless⟩ := DispatchError.fields_of_tag h
    rw [if_pos h, hfields]
    refine Value.get_json_first fun field hfield => ?_
    rcases List.mem_append.mp hfield with hfield | hfield
    · exact hkindless field hfield
    · exact hmessage field hfield
  · rw [if_neg h, DispatchError.fields_of_no_tag (Bool.eq_false_iff.mpr h)]
    exact Value.get_json_first hmessage

theorem tells_of_error {told : Value} (h : told.get "error" = some (dispatch_error_object crates.url e)) :
    tells (told_kind e) told :=
  ⟨_, _, h, dispatch_error_object_kind crates.url e, Value.get_json_last ..⟩

theorem tells_iff {told : Value} (h : told.get "error" = some (dispatch_error_object crates.url e)) :
    tells e.documented_kind told ↔ e.keeps_tag = true := by
  rw [← told_kind_eq_iff]
  constructor
  · intro htells
    exact tells_unique (tells_of_error h) htells
  · intro hkind
    exact hkind ▸ tells_of_error h

variable (crates) in
theorem error_value_failed (h : entry.outcome = .Failed e) :
    entry.error_value crates.url = dispatch_error_object crates.url e := by
  simp only [BatchEntry.error_value, ItemOutcome.error_object, h, Option.getD_some]

/-- What a script is told of an item that failed. -/
theorem entry_error (h : entry.outcome = .Failed e) :
    (script.entry_to_json crates entry).get "error" = some (dispatch_error_object crates.url e) := by
  have hvalue := error_value_failed crates h
  unfold script.entry_to_json
  rw [h, hvalue]
  exact Value.get_json_last "error" _ [("ok", .bool false), ("index", .of_nat entry.index)]

variable (crates) in
/-- What is recorded of an item that failed stands after what is recorded of the
failures before it. -/
theorem recorded_error (h : entry.outcome = .Failed e) (before after : List BatchEntry) :
    ∃ recorded told, recorder.errors_json crates (before ++ entry :: after) = some (.array recorded) ∧
      recorded[(before.filter fun e => !e.outcome.is_ok).length]? = some told ∧
      told.get "error" = some (dispatch_error_object crates.url e) := by
  have hfailed : (!entry.outcome.is_ok) = true := by rw [h]; rfl
  have hsplit : (before ++ entry :: after).filter (fun e => !e.outcome.is_ok) =
      before.filter (fun e => !e.outcome.is_ok) ++ entry :: after.filter fun e => !e.outcome.is_ok := by
    rw [List.filter_append, List.filter_cons_of_pos (p := fun e : BatchEntry => !e.outcome.is_ok) hfailed]
  unfold recorder.errors_json
  rw [hsplit]
  refine ⟨_, .json [("index", .of_nat entry.index), ("name", .string entry.name),
    ("error", entry.error_value crates.url)], if_neg ?_, ?_, ?_⟩
  · simp
  · rw [List.map_append, List.map_cons, List.getElem?_append_right (by simp)]
    simp only [List.length_map, Nat.sub_self, List.getElem?_cons_zero]
  · rw [← error_value_failed crates h]
    exact Value.get_json_last "error" _ [("index", .of_nat entry.index), ("name", .string entry.name)]

/-- A failed item carries its documented kind and a message, to its script and in
the record of its run, exactly when no bare text is left where a tag of its error
would have to stand. -/
theorem documented_kind_iff (crates : Crates) (entry : BatchEntry) (e : DispatchError)
    (hfailed : entry.outcome = .Failed e) :
    (tells e.documented_kind (script.entry_to_json crates entry) ↔ e.keeps_tag = true) ∧
      ∀ before after, ∃ recorded told,
        recorder.errors_json crates (before ++ entry :: after) = some (.array recorded) ∧
          recorded[(before.filter fun e => !e.outcome.is_ok).length]? = some told ∧
          (tells e.documented_kind told ↔ e.keeps_tag = true) := by
  refine ⟨tells_iff (entry_error hfailed), fun before after => ?_⟩
  obtain ⟨recorded, told, herrors, hat, herror⟩ := recorded_error crates hfailed before after
  exact ⟨recorded, told, herrors, hat, tells_iff herror⟩

/-- A request that timed out is told of as `send`. -/
theorem timeout_told :
    tells "send" (script.entry_to_json sample_crates ⟨0, "ping", .Failed (.Send (.Call .Timeout))⟩) :=
  (documented_kind_iff sample_crates ⟨0, "ping", .Failed (.Send (.Call .Timeout))⟩ _ rfl).1.mpr rfl

/-- An api_call whose path takes a value. -/
def sample_item : resolve.PlannedApiCall :=
  { sample_planned with
    api_call := { sample_call with
      path_template := "/{id}"
      params := [{ name := "id", location := .Path, ty := .String, required := true, default := none
                   fixed := none, enum_values := none, description := none, position := 0 }] } }

def item_plan : resolve.EndpointPlan := { sample_plan with calls := [(sample_slug, sample_item)] }

/-- A dispatch refuses a value that is a dot segment, and the error it returns has
lost its kind. -/
theorem dot_value_internal :
    ¬ ∀ (args : Value) (budget : CallBudget) (evs : List DispatchEvent) (e : DispatchError),
      (dispatch sample_crates item_plan sample_context none "ping" args budget).Emits evs (.done (.error e)) →
        tells e.documented_kind (script.entry_to_json sample_crates ⟨0, "ping", .Failed e⟩) := by
  intro h
  have hdispatch : dispatch sample_crates item_plan sample_context none "ping" (.object [("id", .string "..")])
      ⟨1000, 5, 1000⟩ = .done (.error (.Bind (.Template (.DotValue "id")))) := rfl
  have htells := h _ _ [] _ (by rw [hdispatch]; exact .nil _)
  have htag := (tells_iff (entry_error rfl)).mp htells
  cases htag

end batch

end runtime

end api2mcp
