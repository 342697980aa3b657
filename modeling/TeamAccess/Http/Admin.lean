import TeamAccess.Hierarchy.Form
import TeamAccess.Http.Handler
import TeamAccess.Service.Hierarchy
import TeamAccess.Service.Ownerships
import TeamAccess.Team.Form
import TeamAccess.Text.Blank

/-!
# What administrators ask

Rows of the hierarchy, teams, roles and ownerships are written here. A row is answered as it was
read, and a failed write with the message of its kind.
-/

namespace TeamAccess.Http

/-- The row of the body, written to the hierarchy. -/
def written (r : Request) (dec : Decoder α) (toJson : α → Json) (message : String)
    (add : Service → α → Service.Outcome Unit) : Handler Reply := do
  let row ← Handler.check (r.json dec)
  Handler.perform (writeFault message) fun v => add v row
  return .data 201 (toJson row)

/-- Adds an environment. -/
def addEnvironment (r : Request) : Handler Reply :=
  written r Environment.decode Environment.toJson "Failed to sync environment"
    Service.addEnvironment

/-- Adds a tenant. -/
def addTenant (r : Request) : Handler Reply :=
  written r Tenant.decode Tenant.toJson "Failed to sync tenant" Service.addTenant

/-- Adds an ODS. -/
def addOds (r : Request) : Handler Reply :=
  written r Ods.decode Ods.toJson "Failed to sync ods" Service.addOds

/-- Adds an education organization. -/
def addEdOrg (r : Request) : Handler Reply :=
  written r EdOrg.decode EdOrg.toJson "Failed to sync edorg" Service.addEdOrg

/-- The reply to the fault of a rebuild. -/
def rebuildFault : Fault → Reply
  | .notFound => .error 404 "ODS not found"
  | e => writeFault "Failed to rebuild edorg closure" e

/-- Rebuilds the closure of an ODS. -/
def rebuildClosure (ps : Params) : Handler Reply := do
  let ods ← Handler.check (ps.id "ods_id")
  Handler.perform rebuildFault fun v => v.rebuildClosure ods
  return .bare 204

/-- The reader of requests for a team: its name. -/
def decodeTeamName : Decoder String := (Decode.Record.required "name" Decode.string).read

/-- Adds a team under its name without the blanks around it. -/
def addTeam (r : Request) : Handler Reply := do
  let name := Text.trim (← Handler.check (r.json decodeTeamName)).toList
  if name.isEmpty then throw (.error 400 "Team name cannot be empty")
  let (team, store) ← Handler.check
    (((← get).store.createTeam (String.ofList name)).mapError (writeFault "Failed to create team"))
  modify fun v => { v with store }
  return .data 201 team.toJson

/-- A request for a role: its name and the codes of its privileges. -/
structure RoleRequest where
  name : String
  codes : List String

/-- The reader of requests for a role. -/
def RoleRequest.decode : Decoder RoleRequest :=
  (RoleRequest.mk <$> .required "name" Decode.string <*>
    .required "privileges" (Decode.list Decode.string) : Decode.Record RoleRequest).read

/-- Adds a role for one team. -/
def addRole (ps : Params) (r : Request) : Handler Reply := do
  let id ← Handler.check (ps.id "team_id")
  let request ← Handler.check (r.json RoleRequest.decode)
  let _ ← Handler.find "Failed to get team" "Team not found" fun s => s.team? id
  let privileges ← Handler.check
    ((Privilege.parseAll request.codes).mapError fun e => .error 400 e.message)
  let (role, store) ← Handler.check
    (((← get).store.createRole request.name (.team id) (Index.ofList privileges)).mapError
      (writeFault "Failed to create role"))
  modify fun v => { v with store }
  return .data 201 role.toJson

/-- Adds an ownership. -/
def addOwnership (r : Request) : Handler Reply := do
  let new ← Handler.check (r.json NewOwnership.decode)
  let ownership ← Handler.perform (writeFault "Failed to create ownership") fun v =>
    v.addOwnership new
  return .data 201 ownership.toJson

/-- Replaces an ownership. -/
def replaceOwnership (ps : Params) (r : Request) : Handler Reply := do
  let id ← Handler.check (ps.id "id")
  let new ← Handler.check (r.json NewOwnership.decode)
  let ownership ← Handler.perform (writeFault "Failed to replace ownership") fun v =>
    v.replaceOwnership id new
  return .data 200 ownership.toJson

/-- Removes an ownership. -/
def removeOwnership (ps : Params) : Handler Reply := do
  let id ← Handler.check (ps.id "id")
  let deleted ← Handler.perform (writeFault "Failed to delete ownership") fun v =>
    v.removeOwnership id
  if deleted then return .bare 204 else throw (.error 404 "Ownership not found")

end TeamAccess.Http
