import TeamAccess.Hierarchy
import TeamAccess.Json.Decode

/-!
# JSON forms of the hierarchy

Rows are objects with a member for each field; an absent instance id or parent is left out when
written. They are read from such objects or from arrays of all fields in order.
-/

namespace TeamAccess

open Decode

namespace ApiVersion

/-- The version's name in JSON. -/
def tag : ApiVersion → String
  | v1 => "v1"
  | v2 => "v2"

/-- The version of a name in JSON. -/
def ofTag? (s : String) : Option ApiVersion := [v1, v2].find? (·.tag = s)

/-- The version as a JSON value. -/
def toJson (v : ApiVersion) : Json := .str v.tag

/-- The reader of versions. -/
def decode : Decoder ApiVersion := enum ofTag?

end ApiVersion

/-- The environment as a JSON value. -/
def Environment.toJson (e : Environment) : Json :=
  .obj [("id", .int64 e.id), ("name", .str e.name), ("version", e.version.toJson)]

/-- The reader of environments. -/
def Environment.decode : Decoder Environment :=
  (Environment.mk <$> .required "id" int64 <*> .required "name" string <*>
    .required "version" ApiVersion.decode : Record Environment).read

/-- The tenant as a JSON value. -/
def Tenant.toJson (t : Tenant) : Json :=
  .obj [("id", .int64 t.id), ("environment_id", .int64 t.environment), ("name", .str t.name)]

/-- The reader of tenants. -/
def Tenant.decode : Decoder Tenant :=
  (Tenant.mk <$> .required "id" int64 <*> .required "environment_id" int64 <*>
    .required "name" string : Record Tenant).read

/-- The ODS as a JSON value. -/
def Ods.toJson (o : Ods) : Json :=
  .obj ([("id", .int64 o.id), ("tenant_id", .int64 o.tenant), ("name", .str o.name)] ++
    Json.member? "ods_instance_id" .int64 o.instanceId)

/-- The reader of ODSs. -/
def Ods.decode : Decoder Ods :=
  (Ods.mk <$> .required "id" int64 <*> .required "tenant_id" int64 <*>
    .required "name" string <*> .optional "ods_instance_id" int64 : Record Ods).read

/-- The education organization as a JSON value. -/
def EdOrg.toJson (e : EdOrg) : Json :=
  .obj ([("id", .int64 e.id), ("ods_id", .int64 e.ods),
      ("education_organization_id", .int64 e.organization), ("name", .str e.name)] ++
    Json.member? "parent_id" .int64 e.parent)

/-- The reader of education organizations. -/
def EdOrg.decode : Decoder EdOrg :=
  (EdOrg.mk <$> .required "id" int64 <*> .required "ods_id" int64 <*>
    .required "education_organization_id" int64 <*> .required "name" string <*>
    .optional "parent_id" int64 : Record EdOrg).read

end TeamAccess
