import TeamAccess.Command.Arguments
import TeamAccess.Command.Run
import TeamAccess.Store.Snapshot

/-!
# The program

Runs the command of its arguments on the files of the machine, where a database is a file that
holds a snapshot of the store.
-/

namespace TeamAccess

/-- The fault that an error of the system stands for. -/
def pathFault : IO.Error → PathFault
  | .noFileOrDirectory .. => .absent
  | .alreadyExists .. => .present
  | .inappropriateType .. => .notDirectory
  | _ => .notText

/-- The result of an action, with the errors of the system as faults. -/
def faultsOf (action : IO α) : IO (Except PathFault α) := do
  try return .ok (← action)
  catch e => return .error (pathFault e)

/-- The store of a database file, which may be made where there is none. -/
def openFile (path : String) (mayMake : Bool) : IO Store := do
  match ← faultsOf (IO.FS.readFile path), mayMake with
  | .ok text, _ => IO.ofExcept ((Store.ofSnapshot .epoch text).mapError Fault.message)
  | .error .absent, true =>
    IO.FS.writeFile path ""
    return .blank .epoch
  | .error e, _ => throw (IO.userError e.message)

/-- The files of the machine. -/
def machine : Disk IO where
  isThere path := return (← faultsOf (IO.FS.realPath path)).isOk
  readText path := faultsOf (IO.FS.readFile path)
  makeDirectory path := faultsOf (IO.FS.createDir path)
  openDatabase path mayMake := do
    return (← faultsOf (openFile path mayMake)).mapError fun _ => .storage
  saveDatabase path s := IO.FS.writeFile path s.snapshot

end TeamAccess

open TeamAccess

/-- Runs the command of the arguments. -/
def main (args : List String) : IO UInt32 := do
  let exit ←
    match Command.ofArguments args with
    | .error misuse => pure misuse.exit
    | .ok command => Exit.ofOutcome <$> command.run machine
  IO.print exit.output
  IO.eprint exit.errors
  return exit.code.toUInt32
