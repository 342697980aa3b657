import TeamAccess.Ids.Basic

/-!
# Checks of several keys at once

A resource of the administration interface implicates several education organizations. Reading it
takes access to one of them; anything else takes access to all of them, and a resource that
implicates none can only be changed with access to everything.
-/

namespace TeamAccess

/-- An organization that a resource implicates, with its ODS instance where it is known. -/
structure EdOrgPair where
  instance? : Option Int64
  organization : Int64
  deriving DecidableEq

/-- The pair's key under a version. -/
def EdOrgPair.key? (p : EdOrgPair) (version : ApiVersion) : Option EdOrgKey :=
  EdOrgKey.under? version p.instance? p.organization

namespace IdSet

/-- Whether the set has one of the keys. -/
def allowsAny (s : IdSet) (keys : List EdOrgKey) : Bool :=
  s.isAll || keys.any fun k => s.has (.edOrg k)

/-- Whether the set has all of the keys, at least one. -/
def allowsEvery (s : IdSet) (keys : List EdOrgKey) : Bool :=
  s.isAll || (!keys.isEmpty && keys.all fun k => s.has (.edOrg k))

/-- Whether the set allows an action on something that implicates the keys. -/
def allows (s : IdSet) (action : Action) (keys : List EdOrgKey) : Bool :=
  if action.isSafe then s.allowsAny keys else s.allowsEvery keys

end IdSet

end TeamAccess
