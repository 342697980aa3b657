import TeamAccess.Service.Basic

/-!
# Writes to ownerships

An ownership is added only for a stored team, with a stored role that the team may use, over a
stored resource. Every successful write drops the caches of the teams whose ownerships changed.
-/

namespace TeamAccess.Service

/-- Whether a resource is stored; everything always is. -/
def resourceExists (s : Store) : ResourceRef → Except Fault Bool
  | .global => return true
  | .environment id => return (← s.environment? id).isSome
  | .tenant id => return (← s.tenant? id).isSome
  | .ods id => return (← s.ods? id).isSome
  | .edOrg id => return (← s.edOrg? id).isSome

/-- The ownership's team, role and resource are stored, and the team may use the role. -/
def checkOwnership (s : Store) (o : NewOwnership) : Except Fault Unit := do
  if (← s.team? o.team).isNone then .error .notFound
  match ← s.role? o.role with
  | none => .error .notFound
  | some role =>
    if !role.scope.admits o.team then .error (.request (.foreignRole role.id))
    else if ← resourceExists s o.resource then return ()
    else .error (.resource (.absent o.resource))

/-- Adds an ownership. -/
def addOwnership (v : Service) (o : NewOwnership) : Outcome Ownership :=
  match (do checkOwnership v.store o; v.store.createOwnership o) with
  | .error e => (.error e, v)
  | .ok (created, s) => (.ok created, ⟨s, v.registry.invalidate created.team⟩)

/-- Removes an ownership; says whether it was there. -/
def removeOwnership (v : Service) (id : OwnershipId) : Outcome Bool :=
  match v.store.ownership? id with
  | .error e => (.error e, v)
  | .ok none => (.ok false, v)
  | .ok (some existing) =>
    match v.store.deleteOwnership id with
    | .error e => (.error e, v)
    | .ok (false, s) => (.ok false, { v with store := s })
    | .ok (true, s) => (.ok true, ⟨s, v.registry.invalidate existing.team⟩)

/-- Replaces an ownership by another. -/
def replaceOwnership (v : Service) (id : OwnershipId) (o : NewOwnership) : Outcome Ownership :=
  let replaced : Except Fault (Ownership × Ownership × Store) := do
    match ← v.store.ownership? id with
    | none => .error .notFound
    | some existing =>
      checkOwnership v.store o
      let (created, s) ← v.store.replaceOwnership id o
      return (existing, created, s)
  match replaced with
  | .error e => (.error e, v)
  | .ok (existing, created, s) =>
    (.ok created, ⟨s, (v.registry.invalidate existing.team).invalidate created.team⟩)

end TeamAccess.Service
