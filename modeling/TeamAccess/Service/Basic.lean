import TeamAccess.Registry

/-!
# The service — a store with its caches

All writes that can change what a team may do go through the service, which drops the caches that
the write may have made stale before it reports success: an ownership's write those of its teams,
a hierarchy write every team's, since an ownership reaches whatever lies below its resource.
-/

namespace TeamAccess

/-- A store and the caches built from it. -/
structure Service where
  store : Store
  registry : Registry

namespace Service

/-- The result of an operation, with the service after it. -/
abbrev Outcome (α : Type) := Except Fault α × Service

/-- The cache of a team. -/
def cache (v : Service) (team : TeamId) : Outcome Handle :=
  let (result, registry) := v.registry.get v.store team
  (result, { v with registry })

end Service

end TeamAccess
