import TeamAccess.Cache.Form
import TeamAccess.Http.Handler
import TeamAccess.Hierarchy.Form
import TeamAccess.Ids.Check
import TeamAccess.Team.Form

/-!
# What teams ask

Every request of a team first identifies the team, gets its cache, and reads the scope from the
path; then it lists the rows that the team may read, or checks an action on an application.
-/

namespace TeamAccess.Http

/-- The team that asks, its cache, and the scope that its request names. -/
structure Caller where
  team : Team
  cache : Cache
  params : ScopeParams

namespace Caller

/-- The ids of a privilege in the request's scope. -/
def ids (c : Caller) (p : Privilege) : IdSet := c.cache.extract p c.params

/-- The reply to a path whose parameter is no UTF-8. -/
def badText (name : String) : Reply := .error 400 ("Invalid URL: Invalid UTF-8 in `" ++ name ++ "`")

/-- The id that a parameter names, where the path has it. -/
def pathId (ps : Params) (name : String) : Except Reply (Option ResourceId) :=
  match ps.lookup name with
  | none => .ok none
  | some none => .error (badText name)
  | some (some raw) =>
    match Decimal.readInt64? raw.toList with
    | some id => .ok (some id)
    | none => .error (.error 400 ("Invalid " ++ name ++ ": " ++ raw))

/-- Who asks. A reply for a bad path, an unknown team or a failed build ends the request. -/
def identify (ps : Params) : Handler Caller := do
  match ps.find? fun p => p.2.isNone with
  | some (name, _) => throw (badText name)
  | none =>
    match ← Handler.check (pathId ps "team_id") with
    | none => throw (.error 400 "Missing team_id")
    | some id =>
      let team ← Handler.find "Failed to get team" "Team not found" fun s => s.team? id
      let handle ← Handler.perform
        (fun _ => .error 500 "Failed to load authorization cache") fun v => v.cache team.id
      let environment ← Handler.check (pathId ps "environment_id")
      let tenant ← Handler.check (pathId ps "tenant_id")
      return ⟨team, handle.cache, ⟨environment, tenant⟩⟩

/-- The filter for the rows that a privilege reaches. -/
def filter (c : Caller) (p : Privilege) : RowFilter := (c.ids p).toFilter

end Caller

/-- The rows as data. -/
def listed (toJson : α → Json) (rows : List α) : Reply := .data 200 (.arr (rows.map toJson))

/-- The team's cache. -/
def authorizationCache (ps : Params) : Handler Reply := do
  let c ← Caller.identify ps
  return .data 200 c.cache.toJson

/-- The environments that the team may read. -/
def listEnvironments (ps : Params) : Handler Reply := do
  let c ← Caller.identify ps
  let rows ← Handler.load "Failed to list environments" fun s =>
    s.listEnvironments (c.filter .environmentRead)
  return listed Environment.toJson rows

/-- The tenants of an environment that the team may read. -/
def listTenants (ps : Params) : Handler Reply := do
  let c ← Caller.identify ps
  let environment ← Handler.check (ps.id "environment_id")
  let rows ← Handler.load "Failed to list tenants" fun s =>
    s.listTenants environment (c.filter .tenantRead)
  return listed Tenant.toJson rows

/-- The ODSs of a tenant that the team may read. -/
def listOdss (ps : Params) : Handler Reply := do
  let c ← Caller.identify ps
  let tenant ← Handler.check (ps.id "tenant_id")
  let rows ← Handler.load "Failed to list ODSs" fun s => s.listOdss tenant (c.filter .odsRead)
  return listed Ods.toJson rows

/-- The organizations of a tenant that the team may read. -/
def listEdOrgs (ps : Params) : Handler Reply := do
  let c ← Caller.identify ps
  let tenant ← Handler.check (ps.id "tenant_id")
  let rows ← Handler.load "Failed to list edorgs" fun s =>
    s.listEdOrgs tenant (c.filter .edOrgRead)
  return listed EdOrg.toJson rows

/-- A question about an application: what is to be done, and the organizations it implicates. -/
structure ApplicationCheck where
  action : Action
  edOrgs : List EdOrgPair

/-- The reader of questions about applications. -/
def ApplicationCheck.decode : Decoder ApplicationCheck :=
  (ApplicationCheck.mk <$> .required "action" Action.decode <*>
    .required "edorgs" (Decode.list EdOrgPair.decode) : Decode.Record ApplicationCheck).read

/-- The keys of pairs under a version; the first pair without one is refused. -/
def pairKeys (version : ApiVersion) (pairs : List EdOrgPair) : Except Reply (List EdOrgKey) :=
  pairs.mapM fun p =>
    (p.key? version).elim
      (.error (.error 400 ("edorg " ++ Decimal.text p.organization ++
        " needs an ods_instance_id in a " ++ version.name ++ " environment"))) .ok

/-- Whether the team may do something to an application of a tenant. -/
def checkApplication (ps : Params) (r : Request) : Handler Reply := do
  let c ← Caller.identify ps
  let id ← Handler.check (ps.id "tenant_id")
  let question ← Handler.check (r.json ApplicationCheck.decode)
  let tenant ← Handler.find "Failed to get tenant" "Tenant not found" fun s => s.tenant? id
  let environment ← Handler.find "Failed to get environment" "Environment not found" fun s =>
    s.environment? tenant.environment
  let keys ← Handler.check (pairKeys environment.version question.edOrgs)
  let privilege := Privilege.onApplications question.action
  return .data 200 (.obj [
    ("allowed", .bool ((c.ids privilege).allows question.action keys)),
    ("privilege", privilege.toJson),
    ("keys", .arr (keys.map fun k => .str k.text))])

end TeamAccess.Http
