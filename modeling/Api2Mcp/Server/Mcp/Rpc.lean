import Api2Mcp.Json.Value
import Api2Mcp.Resolve.Checks

namespace api2mcp.server.mcp.registry

open btree serde_json
open api2mcp.model api2mcp.resolve

def INVOKE_TOOL_NAME : String := "invoke"

def LIST_TOOLS_NAME : String := "list_tools"

/-- The description a definer wrote, or else one that is made up. -/
def describe (plan : EndpointPlan) (tool : PlannedTool) : String :=
  match tool.target with
  | .ApiCall slug =>
    match plan.calls.get slug with
    | none => tool.name
    | some planned => planned.api_call.description.getD
        (digest.method_str planned.api_call.method ++ " " ++ planned.api_call.path_template ++ " (" ++
          digest.access_str planned.api_call.access ++ " api call on " ++
          planned.service.slug.as_str ++ ")")
  | .Script slug =>
    ((plan.scripts.get slug).bind (·.description)).getD ("script: " ++ tool.name)

def tool_descriptor (plan : EndpointPlan) (tool : PlannedTool) : Value :=
  .json [("name", .string tool.name), ("description", .string (describe plan tool)),
    ("inputSchema", tool.input_schema)]

def invoke_descriptor : Value :=
  .json [("name", .string INVOKE_TOOL_NAME),
    ("description", .string ("Call another tool on this endpoint by name. Prefer this to relying " ++
      "on a tools/list_changed notification, which not every client re-fetches on — call " ++
      "list_tools instead if the tool set might have changed.")),
    ("inputSchema", .json [("type", .string "object"),
      ("properties", .json [
        ("tool_name", .json [("type", .string "string"),
          ("description", .string "Name of the tool to call, exactly as tools/list reports it.")]),
        ("args", .json [("type", .string "object"),
          ("description", .string "Arguments for that tool, as if calling it directly.")])]),
      ("required", .array [.string "tool_name"])])]

def list_tools_descriptor : Value :=
  .json [("name", .string LIST_TOOLS_NAME),
    ("description", .string ("Lists every tool this endpoint exposes, with its description and " ++
      "input schema — the same information tools/list returns, callable as an ordinary tool call " ++
      "when a client doesn't re-run tools/list mid-session.")),
    ("inputSchema", .json [("type", .string "object"), ("properties", .json []),
      ("required", .array [])])]

/-- What `tools/list` answers: the tools of the plan, and the two that every
endpoint has. -/
def tool_list (plan : EndpointPlan) : Value :=
  .json [("tools", .array
    (plan.tools.map (tool_descriptor plan) ++ [invoke_descriptor, list_tools_descriptor]))]

end api2mcp.server.mcp.registry

namespace api2mcp.server.mcp

open serde_json

structure JsonRpcRequest where
  id : Option Value
  method : String
  params : Option Value

structure JsonRpcError where
  code : Int
  message : String
  deriving DecidableEq, Repr

structure JsonRpcResponse where
  id : Option Value
  result : Option Value
  error : Option JsonRpcError

def JsonRpcResponse.of_result (id : Option Value) (result : Value) : JsonRpcResponse :=
  { id, result := some result, error := none }

def JsonRpcResponse.of_error (id : Option Value) (code : Int) (message : String) :
    JsonRpcResponse :=
  { id, result := none, error := some { code, message } }

def JsonRpcError.to_value (e : JsonRpcError) : Value :=
  .json [("code", .of_int e.code), ("message", .string e.message)]

/-- `impl Serialize for JsonRpcResponse`: a member that is absent is left out. -/
def JsonRpcResponse.to_value (response : JsonRpcResponse) : Value :=
  .json ([("jsonrpc", .string "2.0")] ++
    (response.id.map fun id => ("id", id)).toList ++
    (response.result.map fun result => ("result", result)).toList ++
    (response.error.map fun e => ("error", e.to_value)).toList)

/-- The id of a request, valid or not: one that is no scalar is dropped. -/
def recover_id (value : Value) : Option Value :=
  match value.get "id" with
  | some (.string s) => some (.string s)
  | some (.number n) => some (.number n)
  | some .null => some .null
  | _ => none

def parse_request (from_slice : List UInt8 → Except String Value) (body : List UInt8) :
    Except JsonRpcResponse JsonRpcRequest :=
  match from_slice body with
  | .error _ => .error (.of_error none (-32700) "Parse error")
  | .ok value =>
    let id := recover_id value
    if (value.get "jsonrpc").bind Value.as_str ≠ some "2.0" then
      .error (.of_error id (-32600) "Invalid Request")
    else match (value.get "method").bind Value.as_str with
      | none => .error (.of_error id (-32600) "Invalid Request")
      | some method =>
        .ok { id, method, params := (value.get "params").filter fun p => !p.is_null }

end api2mcp.server.mcp
