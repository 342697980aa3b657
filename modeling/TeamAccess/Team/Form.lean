import TeamAccess.Fault
import TeamAccess.Json.Decode
import TeamAccess.Team
import TeamAccess.Timestamp.Reader

/-!
# JSON forms of teams, roles and ownerships

A resource reference is its kind under `type` with its id under `id`, in either order, or an array
of the two; a reference to everything has no id or a null one. A role's scope has the same form
under `kind` and `team_id`. A role's privileges are their codes in catalog order.
-/

namespace TeamAccess

open Decode

/-- The reader of subjects. -/
def Subject.decode : Decoder Subject := enum Subject.ofName?

/-- The reader of actions. -/
def Action.decode : Decoder Action := enum Action.ofName?

/-- The reader of shapes. -/
def Shape.decode : Decoder Shape := enum Shape.ofName?

/-- The reader of privileges. -/
def Privilege.decode : Decoder Privilege := named Privilege.ofCode?

/-- The privilege as a JSON value. -/
def Privilege.toJson (p : Privilege) : Json := .str p.code

namespace ResourceKind

/-- The kind's name in JSON. -/
def tag : ResourceKind → String
  | global => "global"
  | environment => "environment"
  | tenant => "tenant"
  | ods => "ods"
  | edOrg => "edorg"

/-- The kind of a name in JSON. -/
def ofTag? (s : String) : Option ResourceKind :=
  [global, environment, tenant, ods, edOrg].find? (·.tag = s)

/-- The reader of resource kinds. -/
def decode : Decoder ResourceKind := enum ofTag?

end ResourceKind

namespace ResourceRef

/-- The reference as a JSON value. -/
def toJson (r : ResourceRef) : Json :=
  .obj (("type", .str r.kind.tag) :: Json.member? "id" .int64 r.id?)

/-- The reader of what stands beside a kind. -/
def decodeId : ResourceKind → Decoder ResourceRef
  | .global => fun d => (fun () => global) <$> unit d
  | .environment => fun d => environment <$> int64 d
  | .tenant => fun d => tenant <$> int64 d
  | .ods => fun d => ods <$> int64 d
  | .edOrg => fun d => edOrg <$> int64 d

/-- The reference of a kind that needs no id. -/
def bare? : ResourceKind → Option ResourceRef
  | .global => some global
  | _ => none

/-- The reader of resource references. -/
def decode : Decoder ResourceRef :=
  tagged "type" "id" ResourceKind.ofTag? decodeId bare?

end ResourceRef

namespace RoleScope

/-- The scope as a JSON value. -/
def toJson : RoleScope → Json
  | global => .obj [("kind", .str "global")]
  | team id => .obj [("kind", .str "team"), ("team_id", .int64 id)]

/-- Whether a scope's name is that of one team's scope. -/
def ofTeam (s : String) : Option Bool :=
  if s = "global" then some false else if s = "team" then some true else none

/-- The reader of what stands beside a scope's name. -/
def decodeTeam : Bool → Decoder RoleScope
  | false => fun d => (fun () => global) <$> unit d
  | true => fun d => team <$> int64 d

/-- The scope that needs no team. -/
def bare? : Bool → Option RoleScope
  | false => some global
  | true => none

/-- The reader of scopes. -/
def decode : Decoder RoleScope := tagged "kind" "team_id" ofTeam decodeTeam bare?

end RoleScope

/-- The team as a JSON value. -/
def Team.toJson (t : Team) : Json := .obj [("id", .int64 t.id), ("name", .str t.name)]

/-- The reader of teams. -/
def Team.decode : Decoder Team :=
  (Team.mk <$> .required "id" int64 <*> .required "name" string : Record Team).read

/-- The privileges as a JSON value, in catalog order. -/
def privilegesJson (ps : KeySet Privilege) : Json := .arr (ps.rows.map Privilege.toJson)

/-- The reader of sets of privileges. -/
def decodePrivileges : Decoder (KeySet Privilege) := fun d =>
  Index.ofList <$> list Privilege.decode d

/-- The role as a JSON value. -/
def Role.toJson (r : Role) : Json :=
  .obj [("id", .int64 r.id), ("name", .str r.name), ("scope", r.scope.toJson),
    ("privileges", privilegesJson r.privileges)]

/-- The reader of roles. -/
def Role.decode : Decoder Role :=
  (Role.mk <$> .required "id" int64 <*> .required "name" string <*>
    .required "scope" RoleScope.decode <*> .required "privileges" decodePrivileges :
      Record Role).read

/-- The reader of timestamps. -/
def Timestamp.decode : Decoder Timestamp := named Timestamp.ofText?

/-- The ownership as a JSON value. -/
def Ownership.toJson (o : Ownership) : Json :=
  .obj [("id", .int64 o.id), ("team_id", .int64 o.team), ("role_id", .int64 o.role),
    ("resource", o.resource.toJson), ("created_at", .str o.createdAt.text)]

/-- The reader of ownerships. -/
def Ownership.decode : Decoder Ownership :=
  (Ownership.mk <$> .required "id" int64 <*> .required "team_id" int64 <*>
    .required "role_id" int64 <*> .required "resource" ResourceRef.decode <*>
    .required "created_at" Timestamp.decode : Record Ownership).read

/-- The new ownership as a JSON value. -/
def NewOwnership.toJson (o : NewOwnership) : Json :=
  .obj [("team_id", .int64 o.team), ("role_id", .int64 o.role), ("resource", o.resource.toJson)]

/-- The reader of new ownerships. -/
def NewOwnership.decode : Decoder NewOwnership :=
  (NewOwnership.mk <$> .required "team_id" int64 <*> .required "role_id" int64 <*>
    .required "resource" ResourceRef.decode : Record NewOwnership).read

end TeamAccess
