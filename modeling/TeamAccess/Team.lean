import TeamAccess.Index
import TeamAccess.Privilege
import TeamAccess.Resource
import TeamAccess.Timestamp.Basic

/-!
# Teams, roles and ownerships

A role is a named set of privileges, either for every team or for one. An ownership gives a team
a role over one resource or over everything. Three roles are built in.
-/

namespace TeamAccess

/-- A team. -/
structure Team where
  id : TeamId
  name : String
  deriving DecidableEq

/-- Who may use a role. -/
inductive RoleScope where
  /-- Every team. -/
  | global
  /-- The team that the role was made for. -/
  | team (id : TeamId)
  deriving DecidableEq

namespace RoleScope

/-- The team that the role is for, if for one. -/
def team? : RoleScope → Option TeamId
  | global => none
  | team id => some id

/-- The scope of a role for one team, or for all where none is given. -/
def ofTeam? : Option TeamId → RoleScope
  | none => global
  | some id => team id

/-- Whether a team may use a role of this scope. -/
def admits (scope : RoleScope) (t : TeamId) : Bool :=
  match scope with
  | global => true
  | team owner => owner = t

end RoleScope

/-- A named set of privileges. -/
structure Role where
  id : RoleId
  name : String
  scope : RoleScope
  privileges : KeySet Privilege
  deriving DecidableEq

/-- A team's role over a resource. -/
structure Ownership where
  id : OwnershipId
  team : TeamId
  role : RoleId
  resource : ResourceRef
  createdAt : Timestamp
  deriving DecidableEq

/-- An ownership that is not stored yet. -/
structure NewOwnership where
  team : TeamId
  role : RoleId
  resource : ResourceRef
  deriving DecidableEq

/-- A role for every team that each store begins with. -/
structure BuiltinRole where
  name : String
  /-- Whether the role has a privilege. -/
  includes : Privilege → Bool

namespace BuiltinRole

/-- The role's privileges. -/
def privileges (r : BuiltinRole) : KeySet Privilege :=
  Index.ofList (Privilege.all.filter r.includes)

/-- Every privilege. -/
def environmentOwner : BuiltinRole := ⟨"Environment Owner", fun _ => true⟩

/-- Everything inside tenants, and reading. -/
def tenantAdmin : BuiltinRole :=
  ⟨"Tenant Admin", fun p => p.shape = .byTenant || p.action = .read⟩

/-- Reading. -/
def readOnly : BuiltinRole := ⟨"Read Only", fun p => p.action = .read⟩

/-- The built-in roles, in the order of their ids in a new store. -/
def all : List BuiltinRole := [environmentOwner, tenantAdmin, readOnly]

end BuiltinRole

end TeamAccess
