import TeamAccess.Store.Transaction

/-!
# Teams and roles of the store

Team names are unique, and role names are unique within their scope; roles for every team share
one scope. A role is added together with its privileges or not at all, and it is read back only if
all of its codes are in the catalog. `setUp` makes the missing tables and adds the built-in
roles that are not there by name.
-/

namespace TeamAccess.Store

/-- Inserts a team. -/
def insertTeam (s : Store) (name : String) : Except Refusal (Team × Store) := do
  let teams ← available s.teams
  let id ← available teams.next?
  holds (!teams.rows.rows.any fun t => t.name = .text name)
  let team : Team := ⟨id, name⟩
  return (team, { s with teams := some (teams.push team.row) })

/-- Adds a team. -/
def createTeam (s : Store) (name : String) : Except Fault (Team × Store) :=
  (s.insertTeam name).mapError Refusal.asKnown

/-- The team with an id. -/
def team? (s : Store) (id : TeamId) : Except Fault (Option Team) := do
  lookUp (← need s.teams).rows TeamRow.load id

/-- The stored privileges of a role. All codes are read before the first one outside the catalog is
an error. -/
def loadPrivileges (s : Store) (id : RoleId) : Except Fault (KeySet Privilege) := do
  let rows := (← need s.privileges).rows.filter fun r => r.role.equals id
  let codes ← rows.mapM fun r => r.code.load
  return Index.ofList (← Privilege.parseAll codes)

/-- The role of a row. -/
def loadRole (s : Store) (r : RoleRow) : Except Fault Role := do
  return ⟨r.id, ← r.name.load, ← r.loadScope, ← s.loadPrivileges r.id⟩

/-- The role with an id. -/
def role? (s : Store) (id : RoleId) : Except Fault (Option Role) := do
  lookUp (← need s.roles).rows s.loadRole id

/-- The role with a name in a scope. -/
def roleNamed? (s : Store) (scope : RoleScope) (name : String) : Except Fault (Option Role) := do
  match (← need s.roles).rows.rows.find? fun r => r.isIn scope ∧ r.name = .text name with
  | none => return none
  | some r => return some (← s.loadRole r)

/-- Whether a scope has a role of a name. -/
def hasRoleNamed (s : Store) (scope : RoleScope) (name : String) : Except Fault Bool := do
  return (← need s.roles).rows.rows.any fun r => r.isIn scope ∧ r.name = .text name

/-- Inserts the row of a role. -/
def insertRole (s : Store) (name : String) (scope : RoleScope) :
    Except Refusal (RoleId × Store) := do
  let roles ← available s.roles
  let teams ← available s.teams
  let id ← available roles.next?
  holds (scope.team?.all teams.rows.hasKey)
  return (id, { s with roles := some (roles.push ⟨id, .text name, scope.team?.map .int⟩) })

/-- Inserts a privilege of a role. -/
def insertPrivilege (s : Store) (role : RoleId) (p : Privilege) : Except Refusal Store := do
  let rows ← available s.privileges
  let roles ← available s.roles
  let row : PrivilegeRow := ⟨.int role, .text p.code⟩
  holds (!rows.hasKey row.key)
  holds (roles.rows.hasKey role)
  return { s with privileges := some (rows.insert row) }

/-- Adds a role and then its privileges one by one, unless there is one of its name. If a privilege
cannot be added, the role is taken back. -/
def addingRole (name : String) (scope : RoleScope) (privileges : KeySet Privilege) :
    Statements Role :=
  Statements.transaction do
    if ← .query fun s => s.hasRoleNamed scope name then throw .alreadyExists
    let id ← .one fun s => (s.insertRole name scope).mapError Refusal.asFailure
    privileges.rows.forM fun p =>
      .change fun s => (s.insertPrivilege id p).mapError Refusal.asFailure
    return ⟨id, name, scope, privileges⟩

/-- A role is added with all of its privileges or not at all. -/
theorem atomic_addingRole (name : String) (scope : RoleScope) (privileges : KeySet Privilege) :
    (addingRole name scope privileges).Atomic :=
  Statements.atomic_transaction _

/-- Adds a role. -/
def createRole (s : Store) (name : String) (scope : RoleScope) (privileges : KeySet Privilege) :
    Except Fault (Role × Store) :=
  (addingRole name scope privileges).written s

/-- The store with an empty table in place of every missing one. -/
def withTables (s : Store) : Store where
  now := s.now
  environments := s.environments.orElse fun _ => some Index.empty
  tenants := s.tenants.orElse fun _ => some Index.empty
  odss := s.odss.orElse fun _ => some Index.empty
  edOrgs := s.edOrgs.orElse fun _ => some Index.empty
  closure := s.closure.orElse fun _ => some Index.empty
  teams := s.teams.orElse fun _ => some Numbered.empty
  roles := s.roles.orElse fun _ => some Numbered.empty
  privileges := s.privileges.orElse fun _ => some Index.empty
  ownerships := s.ownerships.orElse fun _ => some Numbered.empty

/-- Adds a built-in role if there is no role of its name for every team. -/
def seed (s : Store) (r : BuiltinRole) : Except Fault Store := do
  match ← s.roleNamed? .global r.name with
  | some _ => return s
  | none => return (← s.createRole r.name .global r.privileges).2

/-- Adds built-in roles one after the other, up to the first failure. -/
def seedAll (s : Store) : List BuiltinRole → Except Fault Unit × Store
  | [] => (.ok (), s)
  | r :: rs =>
    match s.seed r with
    | .error e => (.error e, s)
    | .ok s => s.seedAll rs

/-- Makes the missing tables and adds the missing built-in roles. What was done before a failure
stays. -/
def setUp (s : Store) : Except Fault Unit × Store := s.withTables.seedAll BuiltinRole.all

/-- The store once it was set up, as far as that went. -/
def afterSetUp (s : Store) : Store := s.setUp.2

/-- A store as it is first made. -/
def fresh (now : Timestamp) : Store := (blank now).afterSetUp

end TeamAccess.Store
