import TeamAccess.Build
import TeamAccess.CacheMode

/-!
# The registry of caches

The registry hands out teams' caches. In shared mode each team has a slot: it is made when the
team's cache is first asked for, even if the build then fails, and holds the cache once one was
built, until it is invalidated. Otherwise every request builds anew. A `Handle` tells which build
a cache comes from, so that the same cache can be told from an equal one.
-/

namespace TeamAccess

/-- A cache and the number of its build. -/
structure Handle where
  serial : Nat
  cache : Cache
  deriving DecidableEq

/-- The caches of teams. -/
structure Registry where
  mode : CacheMode
  /-- The slots of teams, empty where no build has succeeded yet. -/
  slots : KeyMap TeamId (Option Handle)
  /-- How many builds have succeeded. -/
  builds : Nat

namespace Registry

/-- The registry without slots. -/
def empty (mode : CacheMode) : Registry := ⟨mode, Index.empty, 0⟩

/-- A new build of a team's cache. -/
def build (r : Registry) (s : Store) (team : TeamId) : Except Fault Handle :=
  (s.buildCache team).map fun cache => ⟨r.builds, cache⟩

/-- The cache of a team, built if none is kept. -/
def get (r : Registry) (s : Store) (team : TeamId) : Except Fault Handle × Registry :=
  match r.mode with
  | .perRequest =>
    match r.build s team with
    | .error e => (.error e, r)
    | .ok h => (.ok h, { r with builds := r.builds + 1 })
  | .shared =>
    match r.slots.get? team with
    | some (some h) => (.ok h, r)
    | _ =>
      match r.build s team with
      | .error e => (.error e, { r with slots := r.slots.put team none })
      | .ok h => (.ok h, { r with slots := r.slots.put team (some h), builds := r.builds + 1 })

/-- The registry without the team's slot. -/
def invalidate (r : Registry) (team : TeamId) : Registry :=
  { r with slots := r.slots.erase team }

/-- The registry without slots. -/
def invalidateAll (r : Registry) : Registry := { r with slots := Index.empty }

/-- How many teams have a slot. -/
def size (r : Registry) : Nat := r.slots.size

end Registry

end TeamAccess
