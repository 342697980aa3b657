import TeamAccess.Store.Transaction

/-!
# Ownerships of the store

An ownership names a team and a role by reference, which must be stored; its resource is not a
reference, so the resource may disappear. Ownerships are never changed in place: `replaceOwnership`
adds the new one and removes the old one, or does neither.
-/

namespace TeamAccess.Store

/-- Inserts an ownership. -/
def insertOwnership (s : Store) (o : NewOwnership) : Except Refusal (Ownership × Store) := do
  let ownerships ← available s.ownerships
  let teams ← available s.teams
  let roles ← available s.roles
  let id ← available ownerships.next?
  holds (teams.rows.hasKey o.team)
  holds (roles.rows.hasKey o.role)
  return (o.stored id s.now, { s with ownerships := some (ownerships.push (o.row id s.now)) })

/-- Adds an ownership. -/
def createOwnership (s : Store) (o : NewOwnership) : Except Fault (Ownership × Store) :=
  (s.insertOwnership o).mapError Refusal.asFailure

/-- The ownership with an id. -/
def ownership? (s : Store) (id : OwnershipId) : Except Fault (Option Ownership) := do
  lookUp (← need s.ownerships).rows (·.load s.now) id

/-- The ownerships of a team. A row with a column that cannot be read fails the whole list before
any row's resource is looked at. -/
def listOwnerships (s : Store) (team : TeamId) : Except Fault (List Ownership) := do
  let rows := (← need s.ownerships).rows.rows.filter fun r => r.team.equals team
  if rows.all OwnershipRow.isReadable then rows.mapM fun r => r.load s.now
  else .error .storage

/-- Removes an ownership; says whether it was there. -/
def deleteOwnership (s : Store) (id : OwnershipId) : Except Fault (Bool × Store) := do
  let ownerships ← need s.ownerships
  let _ ← need s.teams
  let _ ← need s.roles
  return (ownerships.rows.hasKey id,
    { s with ownerships := some (ownerships.withRows (ownerships.rows.erase id)) })

/-- Adds an ownership and then removes another by id. If there is none to remove, the addition is
taken back. -/
def replacingOwnership (id : OwnershipId) (o : NewOwnership) : Statements Ownership :=
  Statements.transaction do
    let created ← .one fun s => s.createOwnership o
    let deleted ← .one fun s => s.deleteOwnership id
    if deleted then return created else throw .notFound

/-- A replacement is made as a whole or not at all. -/
theorem atomic_replacingOwnership (id : OwnershipId) (o : NewOwnership) :
    (replacingOwnership id o).Atomic :=
  Statements.atomic_transaction _

/-- Replaces an ownership. -/
def replaceOwnership (s : Store) (id : OwnershipId) (o : NewOwnership) :
    Except Fault (Ownership × Store) :=
  (replacingOwnership id o).written s

end TeamAccess.Store
