import TeamAccess.Http.Message
import TeamAccess.Text.Percent
import TeamAccess.Text.Split

/-!
# Routes — from targets to operations

A target names an operation by its path, before which it may have a scheme and a host. The segments
between slashes are compared one by one with those of a route, where a parameter stands for any
segment, and for an empty one too unless the path ends there. Segments are compared as sent; only
the segments that parameters stand for are decoded, from percent codes and UTF-8, so a parameter
may have no text.

Paths are told apart first and methods second: a path without the method is answered otherwise
than an unknown path. An operation under GET is offered under HEAD too.
-/

namespace TeamAccess.Http

/-- The operations of the service. -/
inductive Operation where
  | health
  | authorizationCache
  | listEnvironments
  | listTenants
  | listOdss
  | listEdOrgs
  | checkApplication
  | addEnvironment
  | addTenant
  | addOds
  | rebuildClosure
  | addEdOrg
  | addTeam
  | addRole
  | addOwnership
  | removeOwnership
  | replaceOwnership
  deriving DecidableEq, Repr

/-- A part of a route's path. -/
inductive Segment where
  /-- Exactly this text. -/
  | lit (s : String)
  /-- Any text, known by a name; at the end of a path it is not empty. -/
  | param (name : String)
  deriving DecidableEq

/-- A path and what is offered there. -/
structure Route where
  path : List Segment
  operations : List (Method × Operation)

/-- The path of what belongs to a team. -/
def teamPath (rest : List Segment) : List Segment :=
  [.lit "api", .lit "teams", .param "team_id"] ++ rest

/-- The path of what belongs to a tenant, asked for by a team. -/
def tenantPath (rest : List Segment) : List Segment :=
  teamPath ([.lit "edfi-tenants", .param "tenant_id"] ++ rest)

/-- The path of what is administered. -/
def adminPath (rest : List Segment) : List Segment := [.lit "api", .lit "admin"] ++ rest

/-- The routes of the service. -/
def routes : List Route :=
  [⟨[.lit "health"], [(.get, .health)]⟩,
    ⟨teamPath [.lit "authorization-cache"], [(.get, .authorizationCache)]⟩,
    ⟨teamPath [.lit "sb-environments"], [(.get, .listEnvironments)]⟩,
    ⟨teamPath [.lit "sb-environments", .param "environment_id", .lit "edfi-tenants"],
      [(.get, .listTenants)]⟩,
    ⟨tenantPath [.lit "odss"], [(.get, .listOdss)]⟩,
    ⟨tenantPath [.lit "edorgs"], [(.get, .listEdOrgs)]⟩,
    ⟨tenantPath [.lit "applications", .lit "check"], [(.post, .checkApplication)]⟩,
    ⟨adminPath [.lit "environments"], [(.post, .addEnvironment)]⟩,
    ⟨adminPath [.lit "tenants"], [(.post, .addTenant)]⟩,
    ⟨adminPath [.lit "odss"], [(.post, .addOds)]⟩,
    ⟨adminPath [.lit "odss", .param "ods_id", .lit "edorg-closure"], [(.post, .rebuildClosure)]⟩,
    ⟨adminPath [.lit "edorgs"], [(.post, .addEdOrg)]⟩,
    ⟨adminPath [.lit "teams"], [(.post, .addTeam)]⟩,
    ⟨adminPath [.lit "teams", .param "team_id", .lit "roles"], [(.post, .addRole)]⟩,
    ⟨adminPath [.lit "ownerships"], [(.post, .addOwnership)]⟩,
    ⟨adminPath [.lit "ownerships", .param "id"],
      [(.delete, .removeOwnership), (.put, .replaceOwnership)]⟩]

/-! ## Matching -/

/-- Parameters by name, in the order of the path; those without a text are no UTF-8. -/
abbrev Params := List (String × Option String)

/-- Whether a character may stand in the name of a scheme. -/
def isSchemeChar (c : Char) : Bool := c.isAlphanum || "+-.".toList.contains c

/-- What follows the host of a target that names one with a scheme; other targets as they are. -/
def afterHost (target : List Char) : List Char :=
  match target.dropWhile isSchemeChar with
  | ':' :: '/' :: '/' :: rest => rest.dropWhile fun c => !"/?#".toList.contains c
  | _ => target

/-- The path of a target as segments, without the query; it begins with a slash. -/
def pathSegments (target : String) : Option (List (List Char)) :=
  match (afterHost target.toList).takeWhile fun c => c != '?' && c != '#' with
  | '/' :: cs => some (Text.split '/' cs)
  | _ => none

/-- The parameters of a path along a route, if it matches. -/
def matchPath : List Segment → List (List Char) → Option Params
  | [], [] => some []
  | .lit s :: route, seg :: path => if s.toList = seg then matchPath route path else none
  | .param name :: route, seg :: path =>
    if seg.isEmpty && path.isEmpty then none
    else (matchPath route path).map fun ps => (name, Percent.decode? seg) :: ps
  | _, _ => none

/-- The route of a target and its parameters. -/
def findRoute (target : String) : Option (Route × Params) := do
  let path ← pathSegments target
  routes.findSome? fun route => (matchPath route.path path).map fun ps => (route, ps)

/-- The operation that a route offers under a method. -/
def Route.operation? (r : Route) (m : Method) : Option Operation :=
  r.operations.lookup (if m = .head then .get else m)

end TeamAccess.Http
