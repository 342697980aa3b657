import TeamAccess.Store.Basic

/-!
# Hierarchy rows of the store

Rows of the hierarchy are inserted under their own ids, read by id, and listed within their
parent in ascending id order under a filter. An insertion fails as already existing whenever a
constraint is broken: the id, a name unique in its environment, an organization unique in its ODS,
or the row's parent. Each operation either succeeds or leaves the store as it was. A read fails if
one of the rows that it is about cannot be read back.

The keys of a filter are bound to the statement of a list one by one. An engine binds only so many
values to one statement (32766) and refuses a list under a filter of more; this limit is left out
here, and filters are of any size.
-/

namespace TeamAccess.Store

/-! ## Environments -/

/-- Inserts an environment. -/
def insertEnvironment (s : Store) (e : Environment) : Except Refusal Store := do
  let environments ← available s.environments
  holds (!environments.hasKey e.id)
  return { s with environments := some (environments.insert e.row) }

/-- Adds an environment. -/
def createEnvironment (s : Store) (e : Environment) : Except Fault Store :=
  (s.insertEnvironment e).mapError Refusal.asKnown

/-- The environment with an id. -/
def environment? (s : Store) (id : ResourceId) : Except Fault (Option Environment) := do
  lookUp (← need s.environments) EnvironmentRow.load id

/-- The environments that pass a filter. -/
def listEnvironments (s : Store) (f : RowFilter) : Except Fault (List Environment) := do
  ((← need s.environments).rows.filter fun r => f.admits r.id).mapM EnvironmentRow.load

/-! ## Tenants -/

/-- Inserts a tenant. -/
def insertTenant (s : Store) (t : Tenant) : Except Refusal Store := do
  let tenants ← available s.tenants
  let environments ← available s.environments
  holds (!tenants.hasKey t.id)
  holds (!tenants.rows.any fun u => u.environment.equals t.environment ∧ u.name = .text t.name)
  holds (environments.hasKey t.environment)
  return { s with tenants := some (tenants.insert t.row) }

/-- Adds a tenant. -/
def createTenant (s : Store) (t : Tenant) : Except Fault Store :=
  (s.insertTenant t).mapError Refusal.asKnown

/-- The tenant with an id. -/
def tenant? (s : Store) (id : ResourceId) : Except Fault (Option Tenant) := do
  lookUp (← need s.tenants) TenantRow.load id

/-- The tenants of an environment that pass a filter. -/
def listTenants (s : Store) (environment : ResourceId) (f : RowFilter) :
    Except Fault (List Tenant) := do
  ((← need s.tenants).rows.filter fun r =>
    r.environment.equals environment && f.admits r.id).mapM TenantRow.load

/-! ## ODSs -/

/-- Inserts an ODS. -/
def insertOds (s : Store) (o : Ods) : Except Refusal Store := do
  let odss ← available s.odss
  let tenants ← available s.tenants
  holds (!odss.hasKey o.id)
  holds (tenants.hasKey o.tenant)
  return { s with odss := some (odss.insert o.row) }

/-- Adds an ODS. -/
def createOds (s : Store) (o : Ods) : Except Fault Store :=
  (s.insertOds o).mapError Refusal.asKnown

/-- The ODS with an id. -/
def ods? (s : Store) (id : ResourceId) : Except Fault (Option Ods) := do
  lookUp (← need s.odss) OdsRow.load id

/-- The ODSs of a tenant that pass a filter. -/
def listOdss (s : Store) (tenant : ResourceId) (f : RowFilter) : Except Fault (List Ods) := do
  ((← need s.odss).rows.filter fun r =>
    r.tenant.equals tenant && f.admits r.id).mapM OdsRow.load

/-! ## Education organizations -/

/-- Inserts an education organization, which may be its own parent. -/
def insertEdOrg (s : Store) (e : EdOrg) : Except Refusal Store := do
  let edOrgs ← available s.edOrgs
  let odss ← available s.odss
  holds (!edOrgs.hasKey e.id)
  holds (!edOrgs.rows.any fun f => f.ods.equals e.ods ∧ f.organization.equals e.organization)
  holds (odss.hasKey e.ods)
  holds (e.parent.all fun p => p = e.id || edOrgs.hasKey p)
  return { s with edOrgs := some (edOrgs.insert e.row) }

/-- Adds an education organization. -/
def createEdOrg (s : Store) (e : EdOrg) : Except Fault Store :=
  (s.insertEdOrg e).mapError Refusal.asKnown

/-- The education organization with an id. -/
def edOrg? (s : Store) (id : ResourceId) : Except Fault (Option EdOrg) := do
  lookUp (← need s.edOrgs) EdOrgRow.load id

/-- The education organizations of a tenant's ODSs that pass a filter. For a row that is looked up,
its ODS is looked up too, which takes an integer; otherwise the two are compared. -/
def listEdOrgs (s : Store) (tenant : ResourceId) (f : RowFilter) :
    Except Fault (List EdOrg) := do
  let edOrgs ← need s.edOrgs
  let odss ← need s.odss
  let owner? (r : EdOrgRow) : Option OdsRow :=
    ((if f.isLookup then r.ods else r.ods.number).int?).bind odss.find?
  (edOrgs.rows.filter fun r =>
    (owner? r).any (fun o => o.tenant.equals tenant) && f.admits r.id).mapM EdOrgRow.load

/-- The education organizations of an ODS. -/
def listOdsEdOrgs (s : Store) (ods : ResourceId) : Except Fault (List EdOrg) := do
  ((← need s.edOrgs).rows.filter fun r => r.ods.equals ods).mapM EdOrgRow.load

end TeamAccess.Store
