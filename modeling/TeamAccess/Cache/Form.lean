import TeamAccess.Cache
import TeamAccess.Ids.Check
import TeamAccess.Json.Decode

/-!
# JSON forms of id sets and caches

An id set is `true` for everything, and otherwise an array of its entries in order: ids as
numbers, keys as texts. A cache has its team and an object of entries in catalog order, each with
its shape; scopes are members named by their numbers.
-/

namespace TeamAccess

open Decode

/-- The entry as a JSON value. -/
def AccessKey.toJson : AccessKey → Json
  | id n => .int64 n
  | edOrg k => .str k.text

/-- The id set as a JSON value. -/
def IdSet.toJson : IdSet → Json
  | all => .bool true
  | only ks => .arr (ks.rows.map AccessKey.toJson)

/-- The filed id sets as a JSON value; what there is none of is left out. -/
def ScopedIds.toJson (s : ScopedIds) : Json :=
  .obj ((if s.isEverywhere then [("all_scopes", .bool true)] else []) ++
    if s.scopes.rows.isEmpty then []
    else [("scopes", .obj (s.scopes.rows.map fun (k, ids) => (Decimal.text k, ids.toJson)))])

/-- The ids of an entry as a JSON value. -/
def CacheEntry.idsJson : CacheEntry → Json
  | unscoped ids => ids.toJson
  | byEnvironment ids | byTenant ids => ids.toJson

/-- The entry as a JSON value. -/
def CacheEntry.toJson (e : CacheEntry) : Json :=
  .obj [("shape", .str e.shape.name), ("ids", e.idsJson)]

/-- The cache as a JSON value. -/
def Cache.toJson (c : Cache) : Json :=
  .obj [("team_id", .int64 c.team),
    ("entries", .obj (c.entries.rows.map fun (p, e) => (p.code, e.toJson)))]

/-- The reader of scope parameters. -/
def ScopeParams.decode : Decoder ScopeParams :=
  (ScopeParams.mk <$> .optional "environment_id" int64 <*> .optional "tenant_id" int64 :
    Record ScopeParams).read

/-- The reader of pairs of an ODS instance and an organization. -/
def EdOrgPair.decode : Decoder EdOrgPair :=
  (EdOrgPair.mk <$> .optional "ods_instance_id" int64 <*>
    .required "education_organization_id" int64 : Record EdOrgPair).read

end TeamAccess
