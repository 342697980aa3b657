import TeamAccess.Fault
import TeamAccess.Ids.Basic

/-!
# Authorization caches — a team's ids by privilege

A cache files, for one team, the ids of each privilege in the privilege's shape. Empty sets are
never kept, so a privilege without an entry is the only form of no access. A cache is built by
grants; a grant that has not the shape of its privilege is refused. `Cache.extract` answers a
request's question: the ids of a privilege in the scope that the request names.
-/

namespace TeamAccess

/-- The ids of one privilege, filed in a shape. -/
inductive CacheEntry where
  | unscoped (ids : IdSet)
  | byEnvironment (ids : ScopedIds)
  | byTenant (ids : ScopedIds)
  deriving DecidableEq

namespace CacheEntry

/-- The entry of a shape with no ids. -/
def blank : Shape → CacheEntry
  | .unscoped => unscoped .empty
  | .byEnvironment => byEnvironment .empty
  | .byTenant => byTenant .empty

/-- The entry's shape. -/
def shape : CacheEntry → Shape
  | unscoped _ => .unscoped
  | byEnvironment _ => .byEnvironment
  | byTenant _ => .byTenant

/-- Whether the entry has no ids. -/
def isEmpty : CacheEntry → Bool
  | unscoped ids => ids.isEmpty
  | byEnvironment ids | byTenant ids => ids.isEmpty

end CacheEntry

/-- What one ownership adds to one privilege. -/
inductive Grant where
  /-- Everything in every scope. -/
  | everything
  /-- Ids of a privilege without scopes. -/
  | ids (ids : IdSet)
  /-- Ids in one scope. -/
  | within (scope : ResourceId) (ids : IdSet)
  deriving DecidableEq

/-- The entry with a grant added, if the grant has its shape. -/
def CacheEntry.add? : CacheEntry → Grant → Option CacheEntry
  | unscoped _, .everything => some (unscoped .all)
  | unscoped ids, .ids more => some (unscoped (ids.union more))
  | byEnvironment ids, .everything => some (byEnvironment ids.grantAll)
  | byEnvironment ids, .within scope more => some (byEnvironment (ids.grant scope more))
  | byTenant ids, .everything => some (byTenant ids.grantAll)
  | byTenant ids, .within scope more => some (byTenant (ids.grant scope more))
  | unscoped _, .within _ _ => none
  | byEnvironment _, .ids _ => none
  | byTenant _, .ids _ => none

/-- The scope that a request names. -/
structure ScopeParams where
  environment : Option ResourceId
  tenant : Option ResourceId
  deriving DecidableEq

/-- A team's ids by privilege. -/
structure Cache where
  team : TeamId
  entries : KeyMap Privilege CacheEntry
  deriving DecidableEq

namespace Cache

/-- The cache of a team with no access. -/
def empty (team : TeamId) : Cache := ⟨team, Index.empty⟩

/-- The privilege's entry. -/
def entry? (c : Cache) (p : Privilege) : Option CacheEntry := c.entries.get? p

/-- The privileges that have an entry, in catalog order. -/
def privileges (c : Cache) : List Privilege := c.entries.keys

/-- The cache with a grant for a privilege. -/
def grant (c : Cache) (p : Privilege) (g : Grant) : Except Fault Cache :=
  match ((c.entry? p).getD (.blank p.shape)).add? g with
  | none => .error (.misfit p)
  | some e => .ok { c with entries := if e.isEmpty then c.entries.erase p else c.entries.put p e }

/-- The ids of a privilege in a request's scope; without the scope of its shape there are none. -/
def extract (c : Cache) (p : Privilege) (params : ScopeParams) : IdSet :=
  match c.entry? p with
  | none => .empty
  | some (.unscoped ids) => ids
  | some (.byEnvironment ids) => params.environment.elim .empty ids.get
  | some (.byTenant ids) => params.tenant.elim .empty ids.get

end Cache

end TeamAccess
