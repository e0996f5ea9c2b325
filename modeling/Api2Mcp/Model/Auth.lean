import Api2Mcp.Model.Origin
import Api2Mcp.Model.Slug
import Api2Mcp.Secret
import Api2Mcp.Store.Basic

namespace api2mcp.model

/-- Where a provider's credential comes from: a variable of the environment,
or its own row, which may have none yet. -/
inductive CredentialSource where
  | Env (key : String)
  | Stored (credential : Option Secret)
  deriving DecidableEq

inductive AuthKind where
  | StaticHeader
  | OAuth2ClientCredentials
  deriving DecidableEq, Repr

structure AuthProvider where
  owner_id : Uuid
  slug : Slug
  service_slug : Slug
  kind : AuthKind
  credential : CredentialSource
  header_name : String
  value_template : String
  scopes : List String
  token_url : Option net.Url
  bound_origin : Origin
  deriving DecidableEq

end api2mcp.model
