import TeamAccess.Hierarchy
import TeamAccess.Store.Cell
import TeamAccess.Team
import TeamAccess.Timestamp.Reader

/-!
# Rows — what tables hold

Rows hold what can be stored, which is more than what can be read back: a name may be bytes, a
version, a resource kind or a privilege is any text, a reference need not be an integer, and an
ownership's time may be absent. Each kind of row has a `load`, which reads it back or says that it
cannot be.
-/

namespace TeamAccess

/-! ## Hierarchy -/

/-- A stored environment. -/
structure EnvironmentRow where
  id : ResourceId
  name : TextCell
  version : TextCell
  deriving DecidableEq

/-- The environment of a row, if its version is known. -/
def EnvironmentRow.load (r : EnvironmentRow) : Except Fault Environment := do
  let version ← r.version.load
  let name ← r.name.load
  match ApiVersion.ofName? version with
  | none => .error .storage
  | some version => .ok ⟨r.id, name, version⟩

/-- The row of an environment. -/
def Environment.row (e : Environment) : EnvironmentRow :=
  ⟨e.id, .text e.name, .text e.version.name⟩

/-- A stored tenant. -/
structure TenantRow where
  id : ResourceId
  environment : IntCell
  name : TextCell
  deriving DecidableEq

/-- The tenant of a row. -/
def TenantRow.load (r : TenantRow) : Except Fault Tenant := do
  return ⟨r.id, ← r.environment.load, ← r.name.load⟩

/-- The row of a tenant. -/
def Tenant.row (t : Tenant) : TenantRow := ⟨t.id, .int t.environment, .text t.name⟩

/-- A stored ODS. -/
structure OdsRow where
  id : ResourceId
  tenant : IntCell
  name : TextCell
  instanceId : Option IntCell
  deriving DecidableEq

/-- The ODS of a row. -/
def OdsRow.load (r : OdsRow) : Except Fault Ods := do
  return ⟨r.id, ← r.tenant.load, ← r.name.load, ← IntCell.load? r.instanceId⟩

/-- The row of an ODS. -/
def Ods.row (o : Ods) : OdsRow := ⟨o.id, .int o.tenant, .text o.name, o.instanceId.map .int⟩

/-- A stored education organization. -/
structure EdOrgRow where
  id : ResourceId
  ods : IntCell
  organization : IntCell
  name : TextCell
  parent : Option IntCell
  deriving DecidableEq

/-- The education organization of a row. -/
def EdOrgRow.load (r : EdOrgRow) : Except Fault EdOrg := do
  return ⟨r.id, ← r.ods.load, ← r.organization.load, ← r.name.load, ← IntCell.load? r.parent⟩

/-- The row of an education organization. -/
def EdOrg.row (e : EdOrg) : EdOrgRow :=
  ⟨e.id, .int e.ods, .int e.organization, .text e.name, e.parent.map .int⟩

/-- A stored fact that one organization lies below another, or is it, so many links away. -/
structure ClosureRow where
  ancestor : IntCell
  descendant : IntCell
  depth : IntCell
  deriving DecidableEq

/-- Closure rows are known by their two ends. -/
def ClosureRow.ends (r : ClosureRow) : IntCell × IntCell :=
  (r.ancestor.number, r.descendant.number)

/-! ## Teams and roles -/

/-- A stored team. -/
structure TeamRow where
  id : TeamId
  name : TextCell
  deriving DecidableEq

/-- The team of a row. -/
def TeamRow.load (r : TeamRow) : Except Fault Team := do
  return ⟨r.id, ← r.name.load⟩

/-- The row of a team. -/
def Team.row (t : Team) : TeamRow := ⟨t.id, .text t.name⟩

/-- A stored role, without its privileges. -/
structure RoleRow where
  id : RoleId
  name : TextCell
  team : Option IntCell
  deriving DecidableEq

/-- Whether a role's row is in a scope. -/
def RoleRow.isIn (r : RoleRow) (scope : RoleScope) : Bool :=
  r.team.map IntCell.number = scope.team?.map .int

/-- The scope of a role's row. -/
def RoleRow.loadScope (r : RoleRow) : Except Fault RoleScope := do
  return .ofTeam? (← IntCell.load? r.team)

/-- A stored privilege of a role. -/
structure PrivilegeRow where
  role : IntCell
  code : TextCell
  deriving DecidableEq

/-- Privilege rows are known by role and code. -/
def PrivilegeRow.key (r : PrivilegeRow) : IntCell × TextCell := (r.role.number, r.code)

/-! ## Ownerships -/

/-- A stored ownership. -/
structure OwnershipRow where
  id : OwnershipId
  team : IntCell
  role : IntCell
  kind : TextCell
  resource : Option IntCell
  createdAt : Option TextCell
  deriving DecidableEq

namespace OwnershipRow

/-- The time of a row; a text that names no time counts as now. -/
def time (r : OwnershipRow) (now : Timestamp) : Except Fault Timestamp :=
  match r.createdAt with
  | none => .error .storage
  | some c => do return (Timestamp.ofRow? (← c.load)).getD now

/-- The ownership of a row. Its columns are read before kind and id of the resource are looked at
together. -/
def load (r : OwnershipRow) (now : Timestamp) : Except Fault Ownership := do
  let team ← r.team.load
  let role ← r.role.load
  let kind ← r.kind.load
  let id ← IntCell.load? r.resource
  let createdAt ← r.time now
  match ResourceRef.ofParts kind id with
  | .error cause => .error (.resource cause)
  | .ok resource => .ok ⟨r.id, team, role, resource, createdAt⟩

/-- Whether every column of a row can be read. -/
def isReadable (r : OwnershipRow) : Bool :=
  r.team.int?.isSome && r.role.int?.isSome && r.kind.text?.isSome &&
    r.resource.all (·.int?.isSome) && r.createdAt.any (·.text?.isSome)

end OwnershipRow

/-- The row of an ownership. -/
def NewOwnership.row (o : NewOwnership) (id : OwnershipId) (now : Timestamp) : OwnershipRow :=
  ⟨id, .int o.team, .int o.role, .text o.resource.kind.name, o.resource.id?.map .int,
    some (.text now.rowText)⟩

/-- The ownership with an id and a time. -/
def NewOwnership.stored (o : NewOwnership) (id : OwnershipId) (now : Timestamp) : Ownership :=
  ⟨id, o.team, o.role, o.resource, now⟩

end TeamAccess
