import Api2Mcp.Server.Api.Writes

namespace api2mcp.server.mcp.control

open btree concurrent
open api2mcp.model api2mcp.store api2mcp.server.api

/-- The tools of the control plane, with their parsed arguments and the keys
they draw. The tools that list, get, plan or test read definitions only. -/
inductive Tool where
  | service_create (service : Service) (id : Uuid)
  | service_update (service : Service)
  | service_delete (owner_id : Uuid) (slug : Slug)
  | api_call_create (tag_id : Tag → Uuid) (call : ApiCall) (tags : BTreeSet Tag) (id : Uuid)
  | api_call_update (tag_id : Tag → Uuid) (call : ApiCall) (tags : BTreeSet Tag)
  | api_call_delete (owner_id : Uuid) (slug : Slug)
  | script_create (tag_id : Tag → Uuid) (script : ScriptDef) (tags : BTreeSet Tag) (id : Uuid)
  | script_update (tag_id : Tag → Uuid) (script : ScriptDef) (tags : BTreeSet Tag)
  | script_delete (owner_id : Uuid) (slug : Slug)
  | endpoint_create (endpoint : EndpointDef) (id : Uuid)
  | endpoint_update (endpoint : EndpointDef)
  | endpoint_delete (owner_id : Uuid) (slug : Slug)
  | inspect (reads : Query entity.Rows (Except ApiError Unit))

section

variable (validate_change : Validator)

namespace endpoints

/-- I5: the permissive empty default, never a caller-supplied set. -/
def create (endpoint : EndpointDef) (id : Uuid) : DbTask (Except ApiError Unit) :=
  api.endpoints.create_for_owner validate_change { endpoint with auth_providers := [] } id

/-- I5: whatever is already on the row stays exactly as it was. -/
def update (endpoint : EndpointDef) : DbTask (Except ApiError Unit) := do
  match ← api.endpoints.get_by_owner endpoint.owner_id endpoint.slug with
  | .error e => return .error e
  | .ok existing =>
    api.endpoints.update_for_owner validate_change
      { endpoint with auth_providers := existing.auth_providers }

end endpoints

def dispatch : Tool → DbTask (Except ApiError Unit)
  | .service_create service id => services.create_for_owner validate_change service id
  | .service_update service => services.update_for_owner validate_change service
  | .service_delete owner_id slug => services.delete_for_owner validate_change owner_id slug
  | .api_call_create tag_id call tags id =>
    api_calls.create_for_owner validate_change tag_id call tags id
  | .api_call_update tag_id call tags => api_calls.update_for_owner validate_change tag_id call tags
  | .api_call_delete owner_id slug => api_calls.delete_for_owner validate_change owner_id slug
  | .script_create tag_id script tags id =>
    scripts.create_for_owner validate_change tag_id script tags id
  | .script_update tag_id script tags => scripts.update_for_owner validate_change tag_id script tags
  | .script_delete owner_id slug => scripts.delete_for_owner validate_change owner_id slug
  | .endpoint_create endpoint id => endpoints.create validate_change endpoint id
  | .endpoint_update endpoint => endpoints.update validate_change endpoint
  | .endpoint_delete owner_id slug => api.endpoints.delete_for_owner validate_change owner_id slug
  | .inspect reads => reads.task .select Db.rows

end

end api2mcp.server.mcp.control
