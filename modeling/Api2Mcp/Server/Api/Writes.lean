import Api2Mcp.Store.Definitions

namespace api2mcp.server.api

open btree concurrent
open api2mcp.model api2mcp.entity api2mcp.store

inductive ApiError where
  | NotFound (message : String)
  | BadRequest (message : String)
  | Forbidden (message : String)
  | Validation (errors : List String)
  | Internal
  deriving DecidableEq, Repr

def ApiError.from_store : StoreError → ApiError
  | .NotFound => .NotFound "not found"
  | .Conflict message => .BadRequest message
  | .Malformed _ | .Db | .Internal _ => .Internal

/-- The edit a write makes to the snapshot it is validated against. The bodies
of the requests are held converted. -/
inductive PendingChange where
  | UpsertService (service : Service)
  | RemoveService (slug : Slug)
  | UpsertApiCall (call : ApiCall) (tags : BTreeSet Tag)
  | RemoveApiCall (slug : Slug)
  | UpsertScript (script : ScriptDef) (tags : BTreeSet Tag)
  | RemoveScript (slug : Slug)
  | UpsertEndpoint (endpoint : EndpointDef)
  | RemoveEndpoint (slug : Slug)

/-- `validate_change`: the reads of the snapshot, and what `pack::validate`
finds against it. -/
abbrev Validator := Uuid → PendingChange → Query Rows (Except (List String) Unit)

section

variable (validate_change : Validator)

/-- Every write is validated first and stored then, in a transaction of its own. -/
def persist (owner_id : Uuid) (change : PendingChange) (write : Fetch Write) :
    DbTask (Except ApiError Unit) := do
  match ← (validate_change owner_id change).task .select Db.rows with
  | .error errors => return .error (.Validation errors)
  | .ok () =>
    match ← write_after write with
    | .error e => return .error (.from_store e)
    | .ok () => return .ok ()

namespace services

def create_for_owner (service : Service) (id : Uuid) : DbTask (Except ApiError Unit) :=
  persist validate_change service.owner_id (.UpsertService service) (store.service.create service id)

def update_for_owner (service : Service) : DbTask (Except ApiError Unit) :=
  persist validate_change service.owner_id (.UpsertService service) (store.service.update service)

def delete_for_owner (owner_id : Uuid) (slug : Slug) : DbTask (Except ApiError Unit) :=
  persist validate_change owner_id (.RemoveService slug) (store.service.remove owner_id slug)

end services

namespace api_calls

def find (owner_id : Uuid) (slug : Slug) : DbTask (Except ApiError api_call.TaggedApiCall) := do
  match ← fetch (api_call.list_all owner_id) with
  | .error e => return .error (.from_store e)
  | .ok all =>
    match all.find? fun t => t.api_call.slug = slug with
    | some tagged => return .ok tagged
    | none => return .error (.NotFound ("api_call " ++ fmt.debug slug.as_str ++ " not found"))

def create_for_owner (tag_id : Tag → Uuid) (call : ApiCall) (tags : BTreeSet Tag) (id : Uuid) :
    DbTask (Except ApiError Unit) :=
  persist validate_change call.owner_id (.UpsertApiCall call tags)
    (api_call.create tag_id call tags id)

def update_for_owner (tag_id : Tag → Uuid) (call : ApiCall) (tags : BTreeSet Tag) :
    DbTask (Except ApiError Unit) := do
  match ← find call.owner_id call.slug with
  | .error e => return .error e
  | .ok existing =>
    if existing.api_call.service_slug ≠ call.service_slug then
      return .error (.BadRequest ("cannot move an api_call to a different service via update; " ++
        "delete and recreate it instead"))
    else
      persist validate_change call.owner_id (.UpsertApiCall call tags)
        (api_call.update tag_id call tags)

def delete_for_owner (owner_id : Uuid) (slug : Slug) : DbTask (Except ApiError Unit) := do
  match ← find owner_id slug with
  | .error e => return .error e
  | .ok existing =>
    persist validate_change owner_id (.RemoveApiCall slug)
      (api_call.remove owner_id existing.api_call.service_slug existing.api_call.slug)

end api_calls

namespace scripts

def create_for_owner (tag_id : Tag → Uuid) (script : ScriptDef) (tags : BTreeSet Tag) (id : Uuid) :
    DbTask (Except ApiError Unit) :=
  persist validate_change script.owner_id (.UpsertScript script tags)
    (store.script.create tag_id script tags id)

def update_for_owner (tag_id : Tag → Uuid) (script : ScriptDef) (tags : BTreeSet Tag) :
    DbTask (Except ApiError Unit) :=
  persist validate_change script.owner_id (.UpsertScript script tags)
    (store.script.update tag_id script tags)

def delete_for_owner (owner_id : Uuid) (slug : Slug) : DbTask (Except ApiError Unit) :=
  persist validate_change owner_id (.RemoveScript slug) (store.script.remove owner_id slug)

end scripts

namespace endpoints

def get_by_owner (owner_id : Uuid) (slug : Slug) : DbTask (Except ApiError EndpointDef) := do
  match ← fetch (endpoint.get owner_id slug) with
  | .error e => return .error (.from_store e)
  | .ok none =>
    return .error (.NotFound ("endpoint " ++ fmt.debug slug.as_str ++ " not found"))
  | .ok (some endpoint) => return .ok endpoint

def create_for_owner (endpoint : EndpointDef) (id : Uuid) : DbTask (Except ApiError Unit) :=
  persist validate_change endpoint.owner_id (.UpsertEndpoint endpoint)
    (store.endpoint.create endpoint id)

def update_for_owner (endpoint : EndpointDef) : DbTask (Except ApiError Unit) :=
  persist validate_change endpoint.owner_id (.UpsertEndpoint endpoint)
    (store.endpoint.update endpoint)

def delete_for_owner (owner_id : Uuid) (slug : Slug) : DbTask (Except ApiError Unit) :=
  persist validate_change owner_id (.RemoveEndpoint slug) (store.endpoint.remove owner_id slug)

end endpoints

end

end api2mcp.server.api
