import TeamAccess.Http.Route
import TeamAccess.Service.Basic

/-!
# Handlers

A handler answers one request: a computation on the service that may end early with a reply. What
was done to the service before an early end stays. Ids come from path parameters, and faults of the
service become replies here: those of a write tell the caller what was wrong with the request, but
failures of the storage stay opaque.
-/

namespace TeamAccess.Http

/-- A computation on the service that may end early with a reply. -/
abbrev Handler (α : Type) := ExceptT Reply (StateM Service) α

namespace Handler

/-- The reply of a handler, and the service after it. -/
def run (h : Handler Reply) (v : Service) : Reply × Service :=
  match (h v : Except Reply Reply × Service) with
  | (.ok r, v) => (r, v)
  | (.error r, v) => (r, v)

/-- An early end where there is a reply. -/
def check (result : Except Reply α) : Handler α := ExceptT.mk (pure result)

/-- A read of the store; any fault ends with status 500 and the message. -/
def load (message : String) (query : Store → Except Fault α) : Handler α := do
  check ((query (← get).store).mapError fun _ => .error 500 message)

/-- A read of the store for something that ought to be there. -/
def find (failed missing : String) (query : Store → Except Fault (Option α)) : Handler α := do
  match ← load failed query with
  | some a => return a
  | none => throw (.error 404 missing)

/-- An operation on the service, with a reply for its faults. -/
def perform (reply : Fault → Reply) (op : Service → Service.Outcome α) : Handler α := do
  let (result, v) := op (← get)
  set v
  check (result.mapError reply)

end Handler

/-- The reply to the fault of a write. -/
def writeFault (message : String) : Fault → Reply
  | .notFound => .error 404 message
  | .alreadyExists => .error 409 (Fault.message .alreadyExists)
  | .resource cause => .error 400 (Fault.message (.resource cause))
  | .unknownPrivilege code => .error 400 (Fault.message (.unknownPrivilege code))
  | .request cause => .error 400 (Fault.message (.request cause))
  | .storage | .config _ | .misfit _ => .error 500 message

/-- The id that a parameter of a plain route names. -/
def Params.id (ps : Params) (name : String) : Except Reply Int64 :=
  match ps.lookup name with
  | some (some raw) => (Decimal.readInt64? raw.toList).elim (.error (.bare 400)) .ok
  | _ => .error (.bare 400)

end TeamAccess.Http
