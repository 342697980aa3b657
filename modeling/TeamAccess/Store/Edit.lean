import TeamAccess.Store.Removal

/-!
# Edits behind the store's operations

Whoever can reach the tables can change them directly: set a column of a row, remove a row, add a
row, or remove a table. A checked edit keeps every constraint of the tables, takes along what
refers to removed rows, and fails without a change otherwise. References are counted: a row that
gets another id may leave those to its old id behind if at least as many waited for the new one.
An unchecked edit keeps keys, unique columns and required columns only, and leaves rows that refer
to nothing.
-/

namespace TeamAccess

/-- The tables of the store. -/
inductive TableName where
  | environments
  | tenants
  | odss
  | edOrgs
  | closure
  | teams
  | roles
  | privileges
  | ownerships
  deriving DecidableEq, Repr

/-- The table of a name, in letters of either case. -/
def TableName.ofName? (name : String) : Option TableName :=
  match name.toLower with
  | "environments" => some environments
  | "tenants" => some tenants
  | "odss" => some odss
  | "edorgs" => some edOrgs
  | "edorg_closure" => some closure
  | "teams" => some teams
  | "roles" => some roles
  | "role_privileges" => some privileges
  | "ownerships" => some ownerships
  | _ => none

/-- Whether an ownership's kind and resource are those of a reference. -/
def OwnershipRow.isReference (r : OwnershipRow) : Bool :=
  (["global", "environment", "tenant", "ods", "edorg"].map TextCell.text).contains r.kind &&
    (r.kind == .text "global") == r.resource.isNone

namespace Store

/-- The number of rows that an edit is about, and the store after it. -/
abbrev Edited := Except Fault (Nat × Store)

/-- The table with the row at a key, if one is meant, changed, unless the row loses its key to
another or does not fit among the others. -/
def changeRow {ρ κ : Type} [Ord κ] [Std.TransOrd κ] {key : ρ → κ} (t : Index key)
    (k : Option κ) (f : ρ → Option ρ) (fits : Index key → ρ → Bool) :
    Except Fault (Nat × Index key) :=
  match k.bind t.find? with
  | none => .ok (0, t)
  | some r =>
    match f r with
    | none => .error .storage
    | some new =>
      let others := t.erase (key r)
      if others.hasKey (key new) || !fits others new then .error .storage
      else .ok (1, others.insert new)

/-- How many rows of a table, if there is one, pass a test. -/
def countIn {ρ κ : Type} [Ord κ] {key : ρ → κ} (t : Option (Index key)) (p : ρ → Bool) : Nat :=
  t.elim 0 fun t => t.rows.countP p

/-- Whether a table, if there is one, has the row that a cell refers to. -/
def refersIn {ρ : Type} {key : ρ → Int64} (t : Option (Index key)) (c : IntCell) : Bool :=
  t.any fun t => refersTo c t

/-- The rows of a numbered table. -/
def rowsOf {ρ : Type} {key : ρ → Int64} (t : Option (Numbered key)) : Option (Index key) :=
  t.map Numbered.rows

/-- Sets a column of an environment. -/
def setEnvironment (s : Store) (checked : Bool) (id : Option Int64) (column : String)
    (c : Cell) : Edited := do
  let t ← need s.environments
  let (n, t) ←
    match column with
    | "id" =>
      changeRow t id (fun r => c.id?.map fun id => { r with id }) fun _ new =>
        let users (id : ResourceId) := countIn s.tenants fun t => t.environment.equals id
        !checked || id.all fun id => users id ≤ users new.id
    | "name" => changeRow t id (fun r => c.text?.map fun name => { r with name }) fun _ _ => true
    | "version" =>
      changeRow t id (fun r => c.text?.map fun version => { r with version }) fun _ new =>
        !checked || (new.version.text?.bind ApiVersion.ofName?).isSome
    | _ => .error .storage
  return (n, { s with environments := some t })

/-- Sets a column of a tenant. -/
def setTenant (s : Store) (checked : Bool) (id : Option Int64) (column : String)
    (c : Cell) : Edited := do
  let t ← need s.tenants
  let unique (others : Index TenantRow.id) (new : TenantRow) : Bool :=
    !others.rows.any fun u => u.environment.number = new.environment.number ∧ u.name = new.name
  let (n, t) ←
    match column with
    | "id" =>
      changeRow t id (fun r => c.id?.map fun id => { r with id }) fun _ new =>
        let users (id : ResourceId) := countIn s.odss fun o => o.tenant.equals id
        !checked || id.all fun id => users id ≤ users new.id
    | "environment_id" =>
      if checked then discard (need s.environments)
      changeRow t id (fun r => c.int?.map fun environment => { r with environment })
        fun others new =>
          unique others new && (!checked || refersIn s.environments new.environment)
    | "name" => changeRow t id (fun r => c.text?.map fun name => { r with name }) unique
    | _ => .error .storage
  return (n, { s with tenants := some t })

/-- Sets a column of an ODS. -/
def setOds (s : Store) (checked : Bool) (id : Option Int64) (column : String)
    (c : Cell) : Edited := do
  let t ← need s.odss
  let (n, t) ←
    match column with
    | "id" =>
      changeRow t id (fun r => c.id?.map fun id => { r with id }) fun _ new =>
        let users (id : ResourceId) := countIn s.edOrgs fun e => e.ods.equals id
        !checked || id.all fun id => users id ≤ users new.id
    | "tenant_id" =>
      if checked then discard (need s.tenants)
      changeRow t id (fun r => c.int?.map fun tenant => { r with tenant }) fun _ new =>
        !checked || refersIn s.tenants new.tenant
    | "name" => changeRow t id (fun r => c.text?.map fun name => { r with name }) fun _ _ => true
    | "ods_instance_id" =>
      changeRow t id (fun r => some { r with instanceId := c.int? })
        fun _ _ => true
    | _ => .error .storage
  return (n, { s with odss := some t })

/-- Sets a column of an organization. A checked edit that moves a row, to another id or ODS, needs
the row's parent to be there. -/
def setEdOrg (s : Store) (checked : Bool) (id : Option Int64) (column : String)
    (c : Cell) : Edited := do
  let t ← need s.edOrgs
  let unique (others : Index EdOrgRow.id) (new : EdOrgRow) : Bool :=
    !others.rows.any fun e => e.ods.number = new.ods.number ∧
      e.organization.number = new.organization.number
  let linked (others : Index EdOrgRow.id) (new : EdOrgRow) : Bool :=
    new.parent.all fun p => p = .int new.id || refersTo p others
  let (n, t) ←
    match column with
    | "id" =>
      changeRow t id (fun r => c.id?.map fun id => { r with id }) fun others new =>
        let users (id : ResourceId) :=
          (countIn (some others) fun e => e.parent.any (·.equals id)) +
            (countIn s.closure fun r => r.ancestor.equals id) +
            countIn s.closure fun r => r.descendant.equals id
        !checked || id.all fun id =>
          users id + (if linked others new then 0 else 1) ≤ users new.id
    | "ods_id" =>
      if checked then discard (need s.odss)
      changeRow t id (fun r => c.int?.map fun ods => { r with ods }) fun others new =>
        unique others new && (!checked || (refersIn s.odss new.ods && linked others new))
    | "education_organization_id" =>
      changeRow t id (fun r => c.int?.map fun organization => { r with organization }) unique
    | "name" => changeRow t id (fun r => c.text?.map fun name => { r with name }) fun _ _ => true
    | "parent_id" =>
      changeRow t id (fun r => some { r with parent := c.int? })
        fun others new => !checked || linked others new
    | _ => .error .storage
  return (n, { s with edOrgs := some t })

/-- Sets a column of a team. -/
def setTeam (s : Store) (checked : Bool) (id : Option Int64) (column : String)
    (c : Cell) : Edited := do
  let t ← need s.teams
  let (n, rows) ←
    match column with
    | "id" =>
      changeRow t.rows id (fun r => c.id?.map fun id => { r with id }) fun _ new =>
        let users (id : TeamId) :=
          (countIn (rowsOf s.roles) fun r => r.team.any (·.equals id)) +
            countIn (rowsOf s.ownerships) fun o => o.team.equals id
        !checked || id.all fun id => users id ≤ users new.id
    | "name" =>
      changeRow t.rows id (fun r => c.text?.map fun name => { r with name }) fun others new =>
        !others.rows.any fun u => u.name = new.name
    | _ => .error .storage
  return (n, { s with teams := some (t.withRows rows) })

/-- Sets a column of a role. -/
def setRole (s : Store) (checked : Bool) (id : Option Int64) (column : String)
    (c : Cell) : Edited := do
  let t ← need s.roles
  let unique (others : Index RoleRow.id) (new : RoleRow) : Bool :=
    new.team.isNone || !others.rows.any fun r =>
      r.team.map IntCell.number = new.team.map IntCell.number ∧ r.name = new.name
  let (n, rows) ←
    match column with
    | "id" =>
      changeRow t.rows id (fun r => c.id?.map fun id => { r with id }) fun _ new =>
        let users (id : RoleId) :=
          (countIn s.privileges fun r => r.role.equals id) +
            countIn (rowsOf s.ownerships) fun o => o.role.equals id
        !checked || id.all fun id => users id ≤ users new.id
    | "name" => changeRow t.rows id (fun r => c.text?.map fun name => { r with name }) unique
    | "team_id" =>
      if checked then discard (need s.teams)
      changeRow t.rows id (fun r => some { r with team := c.int? })
        fun others new =>
          unique others new && (!checked || new.team.all (refersIn (rowsOf s.teams)))
    | _ => .error .storage
  return (n, { s with roles := some (t.withRows rows) })

/-- Sets a column of an ownership. -/
def setOwnership (s : Store) (checked : Bool) (id : Option Int64) (column : String)
    (c : Cell) : Edited := do
  let t ← need s.ownerships
  let (n, rows) ←
    match column with
    | "id" => changeRow t.rows id (fun r => c.id?.map fun id => { r with id }) fun _ _ => true
    | "team_id" =>
      if checked then discard (need s.teams)
      changeRow t.rows id (fun r => c.int?.map fun team => { r with team }) fun _ new =>
        !checked || refersIn (rowsOf s.teams) new.team
    | "role_id" =>
      if checked then discard (need s.roles)
      changeRow t.rows id (fun r => c.int?.map fun role => { r with role }) fun _ new =>
        !checked || refersIn (rowsOf s.roles) new.role
    | "resource_type" =>
      changeRow t.rows id (fun r => c.text?.map fun kind => { r with kind }) fun _ new =>
        !checked || new.isReference
    | "resource_id" =>
      changeRow t.rows id (fun r => some { r with resource := c.int? })
        fun _ new => !checked || (new.kind == .text "global") == new.resource.isNone
    | "created_at" =>
      changeRow t.rows id (fun r => some { r with createdAt := c.text? })
        fun _ _ => true
    | _ => .error .storage
  return (n, { s with ownerships := some (t.withRows rows) })

/-- A column's name in lower case; the number by which a table knows a row is its id. -/
def columnName (name : String) : String :=
  let name := name.toLower
  if ["rowid", "oid", "_rowid_"].contains name then "id" else name

/-- Sets a column, named in letters of either case, of the row whose id is equal to a value. -/
def setColumn (s : Store) (checked : Bool) (table : TableName) (id : Cell) (column : String)
    (c : Cell) : Edited :=
  let column := columnName column
  let id := id.id?
  match table with
  | .environments => s.setEnvironment checked id column c
  | .tenants => s.setTenant checked id column c
  | .odss => s.setOds checked id column c
  | .edOrgs => s.setEdOrg checked id column c
  | .teams => s.setTeam checked id column c
  | .roles => s.setRole checked id column c
  | .ownerships => s.setOwnership checked id column c
  | .closure | .privileges => .error .storage

/-- Whether a table is there. -/
def hasTable (s : Store) : TableName → Bool
  | .environments => s.environments.isSome
  | .tenants => s.tenants.isSome
  | .odss => s.odss.isSome
  | .edOrgs => s.edOrgs.isSome
  | .closure => s.closure.isSome
  | .teams => s.teams.isSome
  | .roles => s.roles.isSome
  | .privileges => s.privileges.isSome
  | .ownerships => s.ownerships.isSome

/-- The tables that the rows of a table refer to. -/
def parents : TableName → List TableName
  | .environments | .teams => []
  | .tenants => [.environments]
  | .odss => [.tenants]
  | .edOrgs => [.odss]
  | .closure => [.edOrgs]
  | .roles => [.teams]
  | .privileges => [.roles]
  | .ownerships => [.teams, .roles]

/-- The tables that lose rows with those of a table. -/
def children : TableName → List TableName
  | .environments => [.tenants]
  | .tenants => [.odss]
  | .odss => [.edOrgs]
  | .edOrgs => [.closure]
  | .teams => [.roles, .ownerships]
  | .roles => [.privileges, .ownerships]
  | .closure | .privileges | .ownerships => []

/-- The tables below a table that removals from it reach, in at most so many steps; a missing table
passes nothing on. -/
def below (s : Store) : Nat → TableName → List TableName
  | 0, _ => []
  | n + 1, table =>
    ((children table).filter s.hasTable).flatMap fun child => child :: s.below n child

/-- Whether rows of a table can be removed with what refers to them: wherever rows go, the tables
that they refer to must be there. -/
def canCascade (s : Store) (tables : List TableName) : Bool :=
  tables.all fun table => (parents table).all s.hasTable

/-- How many steps removals go down at most. -/
def cascadeSteps : Nat := 4

/-- How many rows of a table have a key, if one is meant: one or none. -/
def countOf {ρ κ : Type} [Ord κ] {key : ρ → κ} (t : Index key) (k : Option κ) : Nat :=
  if k.any t.hasKey then 1 else 0

/-- All rows but the one with a key, if one is meant. -/
def allBut {ρ κ : Type} [Ord κ] {key : ρ → κ} (t : Index key) (k : Option κ) : Index key :=
  k.elim t t.erase

/-- Removes the row with an id, if one is meant, and what refers to it. -/
def removeChecked (s : Store) (table : TableName) (id : Option Int64) : Edited := do
  if !s.canCascade (table :: s.below cascadeSteps table) then .error .storage
  match table with
  | .environments =>
    return (countOf (← need s.environments) id, s.removeEnvironments fun e => some e.id = id)
  | .tenants => return (countOf (← need s.tenants) id, s.removeTenants fun t => some t.id = id)
  | .odss => return (countOf (← need s.odss) id, s.removeOdss fun o => some o.id = id)
  | .edOrgs => return (countOf (← need s.edOrgs) id, s.removeEdOrgs fun e => some e.id = id)
  | .teams => return (countOf (← need s.teams).rows id, s.removeTeams fun t => some t.id = id)
  | .roles => return (countOf (← need s.roles).rows id, s.removeRoles fun r => some r.id = id)
  | .ownerships =>
    return (countOf (← need s.ownerships).rows id, s.removeOwnerships fun o => some o.id = id)
  | .closure | .privileges => .error .storage

/-- Removes the row with an id, if one is meant, alone. -/
def removeUnchecked (s : Store) (table : TableName) (id : Option Int64) : Edited := do
  match table with
  | .environments =>
    let t ← need s.environments
    return (countOf t id, { s with environments := some (allBut t id) })
  | .tenants =>
    let t ← need s.tenants
    return (countOf t id, { s with tenants := some (allBut t id) })
  | .odss =>
    let t ← need s.odss
    return (countOf t id, { s with odss := some (allBut t id) })
  | .edOrgs =>
    let t ← need s.edOrgs
    return (countOf t id, { s with edOrgs := some (allBut t id) })
  | .teams =>
    let t ← need s.teams
    return (countOf t.rows id, { s with teams := some (t.withRows (allBut t.rows id)) })
  | .roles =>
    let t ← need s.roles
    return (countOf t.rows id, { s with roles := some (t.withRows (allBut t.rows id)) })
  | .ownerships =>
    let t ← need s.ownerships
    return (countOf t.rows id, { s with ownerships := some (t.withRows (allBut t.rows id)) })
  | .closure | .privileges => .error .storage

/-- Removes the row whose id is equal to a value. -/
def removeRow (s : Store) (checked : Bool) (table : TableName) (id : Cell) : Edited :=
  if checked then s.removeChecked table id.id? else s.removeUnchecked table id.id?

/-- Adds a privilege to a role. -/
def addPrivilege (s : Store) (checked : Bool) (role code : Cell) : Edited := do
  let t ← need s.privileges
  if checked then discard (need s.roles)
  let r : PrivilegeRow := ⟨← need role.int?, ← need code.text?⟩
  if t.hasKey r.key || (checked && !refersIn (rowsOf s.roles) r.role) then .error .storage
  else return (1, { s with privileges := some (t.insert r) })

/-- Adds a closure row. -/
def addClosure (s : Store) (checked : Bool) (ancestor descendant depth : Cell) : Edited := do
  let t ← need s.closure
  if checked then discard (need s.edOrgs)
  let r : ClosureRow :=
    ⟨← need ancestor.int?, ← need descendant.int?, ← need depth.int?⟩
  if t.hasKey r.ends ||
      (checked && !(refersIn s.edOrgs r.ancestor && refersIn s.edOrgs r.descendant)) then
    .error .storage
  else return (1, { s with closure := some (t.insert r) })

/-- Adds an ownership; without a time it is stamped with the clock. -/
def addOwnership (s : Store) (checked : Bool) (team role kind resource : Cell)
    (time : Option TextCell) : Edited := do
  let t ← need s.ownerships
  if checked then
    discard (need s.teams)
    discard (need s.roles)
  let id ← need t.next?
  let r : OwnershipRow :=
    ⟨id, ← need team.int?, ← need role.int?, ← need kind.text?, resource.int?,
      some (time.getD (.text s.now.rowText))⟩
  if checked &&
      !(r.isReference && refersIn (rowsOf s.teams) r.team && refersIn (rowsOf s.roles) r.role)
  then
    .error .storage
  else return (1, { s with ownerships := some (t.push r) })

/-- The store without a table. -/
def without (s : Store) : TableName → Store
  | .environments => { s with environments := none }
  | .tenants => { s with tenants := none }
  | .odss => { s with odss := none }
  | .edOrgs => { s with edOrgs := none }
  | .closure => { s with closure := none }
  | .teams => { s with teams := none }
  | .roles => { s with roles := none }
  | .privileges => { s with privileges := none }
  | .ownerships => { s with ownerships := none }

/-- The store without the rows of a table and without what refers to them. -/
def emptied (s : Store) : TableName → Store
  | .environments => s.removeEnvironments fun _ => true
  | .tenants => s.removeTenants fun _ => true
  | .odss => s.removeOdss fun _ => true
  | .edOrgs => s.removeEdOrgs fun _ => true
  | .teams => s.removeTeams fun _ => true
  | .roles => s.removeRoles fun _ => true
  | .closure | .privileges | .ownerships => s

/-- Removes a table, with its rows and what refers to them. -/
def dropTable (s : Store) (checked : Bool) (table : TableName) : Except Fault Store :=
  if !s.hasTable table then .error .storage
  else if !checked then .ok (s.without table)
  else if s.canCascade (s.below cascadeSteps table) then .ok ((s.emptied table).without table)
  else .error .storage

end TeamAccess.Store
