import TeamAccess.Resource

/-!
# The hierarchy — environments, tenants, ODSs and education organizations

An environment holds tenants, a tenant holds ODSs (operational data stores), and an ODS holds
education organizations, which form trees by their parent links. All rows come with their ids
from outside.
-/

namespace TeamAccess

/-- The generation of the administration interface that an environment speaks. -/
inductive ApiVersion where
  /-- One ODS a tenant: an organization's own id is enough within the tenant. -/
  | v1
  /-- Many ODS instances a tenant: an organization's id counts together with its instance. -/
  | v2
  deriving DecidableEq, Repr

namespace ApiVersion

/-- The version's name. -/
def name : ApiVersion → String
  | v1 => "v1"
  | v2 => "v2"

/-- The version of a name. -/
def ofName? : String → Option ApiVersion
  | "v1" => some v1
  | "v2" => some v2
  | _ => none

end ApiVersion

/-- A deployment that holds tenants. -/
structure Environment where
  id : ResourceId
  name : String
  version : ApiVersion
  deriving DecidableEq

/-- A tenant of an environment. -/
structure Tenant where
  id : ResourceId
  environment : ResourceId
  name : String
  deriving DecidableEq

/-- An operational data store of a tenant. -/
structure Ods where
  id : ResourceId
  tenant : ResourceId
  name : String
  /-- The instance id that the administration interface of version 2 knows the ODS by. -/
  instanceId : Option Int64
  deriving DecidableEq

/-- An education organization of an ODS. -/
structure EdOrg where
  id : ResourceId
  ods : ResourceId
  /-- The organization's own id, as the administration interface reports it. -/
  organization : Int64
  name : String
  parent : Option ResourceId
  deriving DecidableEq

end TeamAccess
