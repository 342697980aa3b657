import TeamAccess.Service.Basic

/-!
# Writes to the hierarchy

Each write first asks for the row's parent, then inserts the row, then drops every cache. A new
organization also has the closure of its ODS rebuilt, which is a step of its own.
-/

namespace TeamAccess.Service

/-- The service after a hierarchy write: the store changed and every cache dropped. -/
def afterWrite (v : Service) (s : Store) : Service := ⟨s, v.registry.invalidateAll⟩

/-- The service after a hierarchy write that fails without a trace. -/
def commit (v : Service) (written : Except Fault Store) : Outcome Unit :=
  match written with
  | .error e => (.error e, v)
  | .ok s => (.ok (), v.afterWrite s)

/-- A parent that a row names. -/
def parent (kind : ResourceKind) (id : ResourceId) (found : Except Fault (Option α)) :
    Except Fault α := do
  (← found).elim (.error (.resource (.noParent kind id))) .ok

/-- Adds an environment. -/
def addEnvironment (v : Service) (e : Environment) : Outcome Unit :=
  v.commit (v.store.createEnvironment e)

/-- Adds a tenant of a stored environment. -/
def addTenant (v : Service) (t : Tenant) : Outcome Unit :=
  v.commit do
    let _ ← parent .environment t.environment (v.store.environment? t.environment)
    v.store.createTenant t

/-- Adds an ODS of a stored tenant. -/
def addOds (v : Service) (o : Ods) : Outcome Unit :=
  v.commit do
    let _ ← parent .tenant o.tenant (v.store.tenant? o.tenant)
    v.store.createOds o

/-- The organization's ODS is stored, and so is its parent, in the same ODS. -/
def checkEdOrg (s : Store) (e : EdOrg) : Except Fault Unit := do
  let _ ← parent .ods e.ods (s.ods? e.ods)
  match e.parent with
  | none => return ()
  | some id =>
    let above ← parent .edOrg id (s.edOrg? id)
    if above.ods = e.ods then return () else .error (.request (.foreignParent id))

/-- Adds an organization, and then rebuilds the closure of its ODS. If the rebuild fails, the
organization stays and the caches too. -/
def addEdOrg (v : Service) (e : EdOrg) : Outcome Unit :=
  match (do checkEdOrg v.store e; v.store.createEdOrg e) with
  | .error fault => (.error fault, v)
  | .ok s => ({ v with store := s } : Service).commit (s.rebuildClosure e.ods)

/-- Rebuilds the closure of a stored ODS. -/
def rebuildClosure (v : Service) (ods : ResourceId) : Outcome Unit :=
  v.commit do
    match ← v.store.ods? ods with
    | none => .error .notFound
    | some _ => v.store.rebuildClosure ods

end TeamAccess.Service
