import Api2Mcp.Runtime.Executor
import Api2Mcp.Server.Auth
import Api2Mcp.Server.Mcp.Rpc

namespace api2mcp.server

/-- `impl From<CallerKind> for RunCallerKind`. -/
def CallerKind.to_run_caller_kind : CallerKind → store.RunCallerKind
  | .Session => .Session
  | .ServiceToken => .ServiceToken
  | .Oauth => .Oauth
  | .Cli => .Cli

namespace mcp

open serde_json
open api2mcp.http api2mcp.resolve api2mcp.runtime api2mcp.runtime.fanout
open api2mcp.runtime.dispatch (Crates)

namespace invoke

structure ToolCallOutcome where
  text : String
  is_error : Bool

def ToolCallOutcome.ok (text : String) : ToolCallOutcome := { text, is_error := false }

def ToolCallOutcome.error (text : String) : ToolCallOutcome := { text, is_error := true }

/-- What keeps a call from an outcome. -/
inductive DispatchError where
  | UnknownTool (name : String)
  | MissingToolName
  | Internal (message : String)

section

variable (crates : Crates)

def run_result_outcome (result : RunResult) : ToolCallOutcome :=
  let text := match result.value with
    | some v => crates.json.to_text v
    | none => result.error.getD ""
  if result.status = .Ok then .ok text else .error text

/-- What a run comes to for the caller of its tool. -/
def executed : Except ExecutorError RunResult → Except DispatchError ToolCallOutcome
  | .ok result => .ok (run_result_outcome crates result)
  | .error (.ToolNotFound name) => .error (.UnknownTool name)
  | .error (.ScriptNotOnPlan name) => .ok (.error
      ("tool " ++ fmt.debug name ++ " names a script that is not on this endpoint's plan"))
  | .error e => .error (.Internal (redact_message crates.url e.to_string))

def list_tools_text (plan : EndpointPlan) : String := crates.json.to_text (registry.tool_list plan)

variable (engine : script.Engine) (executor : Executor) (plan : EndpointPlan)

def run_named_tool (name : String) (args : Value) (caller_kind : store.RunCallerKind)
    (caller_id : String) : Run (Except DispatchError ToolCallOutcome) :=
  if (plan.tool name).isNone then return .error (.UnknownTool name)
  else do
    let result ← executor.run_tool crates engine plan name args caller_kind caller_id
    return executed crates result

/-- The two names that every endpoint has go before those of the plan. -/
def dispatch (name : String) (arguments : Value) (caller_kind : store.RunCallerKind)
    (caller_id : String) : Run (Except DispatchError ToolCallOutcome) :=
  if name = registry.LIST_TOOLS_NAME then return .ok (.ok (list_tools_text crates plan))
  else if name = registry.INVOKE_TOOL_NAME then
    match (arguments.get "tool_name").bind Value.as_str with
    | none => return .error .MissingToolName
    | some tool_name =>
      run_named_tool crates engine executor plan tool_name ((arguments.get "args").getD (.json []))
        caller_kind caller_id
  else run_named_tool crates engine executor plan name arguments caller_kind caller_id

end

end invoke

namespace handlers

open invoke

def tools_list (id : Option Value) (plan : EndpointPlan) : JsonRpcResponse :=
  .of_result id (registry.tool_list plan)

/-- `isError` is there only on failure. -/
def tool_envelope (outcome : ToolCallOutcome) : Value :=
  let content := ("content", Value.array
    [.json [("type", .string "text"), ("text", .string outcome.text)]])
  .json (if outcome.is_error then [content, ("isError", .bool true)] else [content])

section

variable (crates : Crates)

def respond (id : Option Value) : Except DispatchError ToolCallOutcome → JsonRpcResponse
  | .ok outcome => .of_result id (tool_envelope outcome)
  | .error (.UnknownTool name) => .of_error id (-32602) ("Unknown tool: " ++ name)
  | .error .MissingToolName =>
    .of_error id (-32602) (registry.INVOKE_TOOL_NAME ++ " requires a `tool_name` argument")
  | .error (.Internal message) => .of_error id (-32000) (redact_message crates.url message)

/-- `uuid_text` is how an id is written. -/
def tools_call (engine : script.Engine) (uuid_text : Uuid → String) (id : Option Value)
    (plan : EndpointPlan) (executor : Executor) (caller : Caller) (params : Option Value) :
    Run JsonRpcResponse :=
  match params with
  | none => return .of_error id (-32602) "Missing params"
  | some params => do
    let name := ((params.get "name").bind Value.as_str).getD ""
    let arguments := (params.get "arguments").getD (.json [])
    let outcome ← invoke.dispatch crates engine executor plan name arguments
      caller.kind.to_run_caller_kind (uuid_text caller.id)
    return respond crates id outcome

end

end handlers

end mcp

end api2mcp.server
