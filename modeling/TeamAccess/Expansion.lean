import TeamAccess.Cache

/-!
# Expansions — what an ownership reaches

An ownership of a resource reaches down the hierarchy, and it lets its team read the way up. The
expansion of a resource says what is reached; `Expansion.grants` says what that adds to one
privilege. Vendors and claim sets belong to a whole tenant, so an ODS or an organization reaches
none of them; and what lies above the owned resource is granted for reading only, as the single
ids on the way.
-/

namespace TeamAccess

/-- A part of one tenant: an ODS, or an organization with those below it. -/
structure Part where
  environment : ResourceId
  tenant : ResourceId
  ods : ResourceId
  /-- The ODS itself is owned, not only something in it. -/
  ownsOds : Bool
  edOrgs : KeySet ResourceId
  /-- The keys of the organizations that have one. -/
  keys : KeySet EdOrgKey
  deriving DecidableEq

/-- What an ownership reaches. -/
inductive Expansion where
  | everything
  /-- An environment with its tenants. -/
  | environment (id : ResourceId) (tenants : List ResourceId)
  /-- A tenant in its environment. -/
  | tenant (environment : ResourceId) (id : ResourceId)
  | part (p : Part)
  /-- The resource, or something above it, is not stored. -/
  | dangling
  deriving DecidableEq

/-- The grant where the action changes nothing, and none otherwise. -/
def Grant.ifSafe (a : Action) (g : Grant) : List Grant := if a.isSafe then [g] else []

/-- What the expansion of a part adds to a privilege. -/
def Part.grants (c : Part) (p : Privilege) : List Grant :=
  match p.subject with
  | .environment => Grant.ifSafe p.action (.ids (.one c.environment))
  | .tenant => Grant.ifSafe p.action (.within c.environment (.one c.tenant))
  | .ods =>
    let grant := Grant.within c.tenant (.one c.ods)
    if c.ownsOds then [grant] else grant.ifSafe p.action
  | .edOrg => [.within c.tenant (.ofIds c.edOrgs.rows)]
  | .application => [.within c.tenant (.ofKeys (c.keys.rows.map .edOrg))]
  | .vendor | .claimSet => []

/-- What an expansion adds to a privilege. -/
def Expansion.grants (e : Expansion) (p : Privilege) : List Grant :=
  match e with
  | dangling => []
  | everything => [.everything]
  | environment id tenants =>
    match p.subject with
    | .environment => [.ids (.one id)]
    | .tenant => [.within id .all]
    | _ => tenants.map fun t => .within t .all
  | tenant env id =>
    match p.subject with
    | .environment => Grant.ifSafe p.action (.ids (.one env))
    | .tenant => [.within env (.one id)]
    | _ => [.within id .all]
  | part c => c.grants p

end TeamAccess
