import TeamAccess.Store.Basic

/-!
# Removing rows together with what refers to them

A row that goes takes along the rows that refer to it: the hierarchy below it, the closure rows
with it at an end, a team's roles and ownerships, a role's privileges and ownerships. Only a
parent link is cut instead: the children of an organization stay, without a parent.
-/

namespace TeamAccess.Store

/-- Removes organizations, the closure rows with one at an end, and the links to them. -/
def removeEdOrgs (s : Store) (gone : EdOrgRow → Bool) : Store :=
  match s.edOrgs with
  | none => s
  | some edOrgs =>
    let ids := (edOrgs.rows.filter gone).map EdOrgRow.id
    let cut (e : EdOrgRow) : EdOrgRow :=
      { e with parent := e.parent.filter fun p => !p.isOneOf ids }
    { s with
      edOrgs := some ((edOrgs.filter fun e => !gone e).mapRows cut fun _ => rfl)
      closure := s.closure.map fun closure =>
        closure.filter fun r => !r.ancestor.isOneOf ids && !r.descendant.isOneOf ids }

/-- Removes ODSs and what is in them. -/
def removeOdss (s : Store) (gone : OdsRow → Bool) : Store :=
  match s.odss with
  | none => s
  | some odss =>
    let ids := (odss.rows.filter gone).map OdsRow.id
    ({ s with odss := some (odss.filter fun o => !gone o) } : Store).removeEdOrgs fun e =>
      e.ods.isOneOf ids

/-- Removes tenants and what is in them. -/
def removeTenants (s : Store) (gone : TenantRow → Bool) : Store :=
  match s.tenants with
  | none => s
  | some tenants =>
    let ids := (tenants.rows.filter gone).map TenantRow.id
    ({ s with tenants := some (tenants.filter fun t => !gone t) } : Store).removeOdss fun o =>
      o.tenant.isOneOf ids

/-- Removes environments and what is in them. -/
def removeEnvironments (s : Store) (gone : EnvironmentRow → Bool) : Store :=
  match s.environments with
  | none => s
  | some environments =>
    let ids := (environments.rows.filter gone).map EnvironmentRow.id
    ({ s with environments := some (environments.filter fun e => !gone e) } :
      Store).removeTenants fun t => t.environment.isOneOf ids

/-- Removes ownerships. -/
def removeOwnerships (s : Store) (gone : OwnershipRow → Bool) : Store :=
  { s with ownerships := s.ownerships.map fun t => t.withRows (t.rows.filter fun o => !gone o) }

/-- Removes roles, their privileges and the ownerships with them. -/
def removeRoles (s : Store) (gone : RoleRow → Bool) : Store :=
  match s.roles with
  | none => s
  | some roles =>
    let ids := (roles.rows.rows.filter gone).map RoleRow.id
    ({ s with
      roles := some (roles.withRows (roles.rows.filter fun r => !gone r))
      privileges := s.privileges.map fun rows => rows.filter fun r => !r.role.isOneOf ids } :
      Store).removeOwnerships fun o => o.role.isOneOf ids

/-- Removes teams, their roles and their ownerships. -/
def removeTeams (s : Store) (gone : TeamRow → Bool) : Store :=
  match s.teams with
  | none => s
  | some teams =>
    let ids := (teams.rows.rows.filter gone).map TeamRow.id
    (({ s with teams := some (teams.withRows (teams.rows.filter fun t => !gone t)) } :
      Store).removeRoles fun r => r.team.any (·.isOneOf ids)).removeOwnerships fun o =>
        o.team.isOneOf ids

end TeamAccess.Store
