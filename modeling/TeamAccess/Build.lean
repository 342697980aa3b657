import TeamAccess.Resolver
import TeamAccess.Store.Ownerships

/-!
# Building a team's cache

A team's cache is the sum of what its ownerships add, each for the privileges of its role. An
ownership whose role is for another team adds nothing, nor does one whose resource is not stored.
Any failure of a read fails the whole build: a cache is complete or there is none.
-/

namespace TeamAccess

/-- The cache with grants for a privilege. -/
def Cache.grantAll (c : Cache) (p : Privilege) (gs : List Grant) : Except Fault Cache :=
  gs.foldlM (fun c g => c.grant p g) c

/-- The cache with what an expansion adds to privileges. -/
def Cache.addExpansion (c : Cache) (e : Expansion) (ps : List Privilege) : Except Fault Cache :=
  ps.foldlM (fun c p => c.grantAll p (e.grants p)) c

namespace Resolver

/-- The cache with what an ownership of the team adds. -/
def addOwnership (s : Store) (c : Cache) (o : Ownership) : Resolver Cache := do
  match ← role? s o.role with
  | none => throw .notFound
  | some role =>
    if role.scope.admits c.team then
      read (c.addExpansion (← expand s o.resource) role.privileges.rows)
    else return c

/-- The cache with what ownerships of the team add, in their order. -/
def addOwnerships (s : Store) (c : Cache) : List Ownership → Resolver Cache
  | [] => return c
  | o :: os => do addOwnerships s (← addOwnership s c o) os

end Resolver

/-- The cache of a team. -/
def Store.buildCache (s : Store) (team : TeamId) : Except Fault Cache := do
  let ownerships ← s.listOwnerships team
  (Resolver.addOwnerships s (.empty team) ownerships Memo.empty).1

end TeamAccess
