import TeamAccess.Http.Admin
import TeamAccess.Http.Teams

/-!
# Answering requests

`Service.answer` is the whole of the service as its clients see it: a request and the service
before it determine the reply and the service after it.
-/

namespace TeamAccess

open Http

/-- The handler of an operation. -/
def Http.Operation.handler (ps : Params) (r : Request) : Operation → Handler Reply
  | .health => return ⟨200, .text "OK"⟩
  | .authorizationCache => Http.authorizationCache ps
  | .listEnvironments => Http.listEnvironments ps
  | .listTenants => Http.listTenants ps
  | .listOdss => Http.listOdss ps
  | .listEdOrgs => Http.listEdOrgs ps
  | .checkApplication => Http.checkApplication ps r
  | .addEnvironment => Http.addEnvironment r
  | .addTenant => Http.addTenant r
  | .addOds => Http.addOds r
  | .rebuildClosure => Http.rebuildClosure ps
  | .addEdOrg => Http.addEdOrg r
  | .addTeam => Http.addTeam r
  | .addRole => Http.addRole ps r
  | .addOwnership => Http.addOwnership r
  | .removeOwnership => Http.removeOwnership ps
  | .replaceOwnership => Http.replaceOwnership ps r

/-- The reply to a request, and the service after it. -/
def Service.answer (v : Service) (r : Request) : Reply × Service :=
  match findRoute r.target with
  | none => (.bare 404, v)
  | some (route, ps) =>
    match route.operation? r.method with
    | none => (.bare 405, v)
    | some op =>
      let (reply, v) := (op.handler ps r).run v
      -- A reply to HEAD has the status that GET would have, and nothing to read.
      if r.method = .head then (⟨reply.status, .text ""⟩, v) else (reply, v)

end TeamAccess
