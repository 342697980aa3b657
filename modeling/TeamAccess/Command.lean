import TeamAccess.Disk
import TeamAccess.SocketAddress

/-!
# Commands

The program has three commands: one sets up a database, one serves requests, and one explains what
a team may do. A command ends by printing something, by listening at an address, or with a
`Failure`, whose text names what failed and, where something else is to blame, the cause below it.
An `Exit` is what whoever started the program sees of all that.
-/

namespace TeamAccess

/-- Settings given with the command to serve, which go before those of a file. -/
structure ServeOptions where
  /-- The configuration file. -/
  file : Option String
  host : Option String
  port : Option UInt16
  dataDir : Option String
  cacheMode : Option CacheMode
  deriving DecidableEq

/-- What the program is asked to do. -/
inductive Command where
  /-- Make the database of a data directory. -/
  | setUp (dataDir : String)
  /-- Answer requests. -/
  | serve (options : ServeOptions)
  /-- Print a team's cache. -/
  | explain (team : TeamId) (dataDir : String)
  deriving DecidableEq

/-- How a command ends. -/
inductive Ending where
  /-- With text for the caller. -/
  | printed (output : String)
  /-- With a service that answers at an address. -/
  | listening (address : SocketAddress) (service : Service)

/-- Why a command fails. -/
inductive Failure where
  /-- The data directory cannot be made. -/
  | noDirectory (path : String) (cause : PathFault)
  | noDatabase (path : String)
  | noTeam (id : TeamId)
  /-- The cache of a team of this name cannot be built. -/
  | noCache (team : String) (cause : Fault)
  /-- The configuration file cannot be read. -/
  | unreadable (cause : PathFault)
  /-- Host and port are no address. -/
  | noAddress
  | fault (cause : Fault)
  deriving DecidableEq

namespace Failure

/-- What failed. -/
def summary : Failure → String
  | noDirectory path _ => "failed to create " ++ path
  | noDatabase path => "Database not found at " ++ path ++ ". Run 'tierguard init' first."
  | noTeam id => "Team " ++ Decimal.text id ++ " not found"
  | noCache team _ => "failed to build authorization cache for team " ++ team
  | unreadable cause => "io error: " ++ cause.message
  | noAddress => "invalid socket address syntax"
  | fault cause => cause.message

/-- What is to blame, if not the failure itself. -/
def cause? : Failure → Option String
  | noDirectory _ cause => some cause.message
  | noCache _ cause => some cause.message
  | unreadable cause => some cause.message
  | _ => none

/-- The lines of a cause, each indented. -/
def indented (cause : String) : List Char :=
  "    ".toList ++ cause.toList.flatMap fun c => if c = '\n' then "\n    ".toList else [c]

/-- The failure as it is reported. -/
def text (f : Failure) : String :=
  "Error: " ++ f.summary ++
    match f.cause? with
    | none => ""
    | some cause => "\n\nCaused by:\n" ++ String.ofList (indented cause)

end Failure

/-- Why arguments are no command. -/
inductive Misuse where
  /-- They ask how the program is used. -/
  | help
  /-- They are wrong. -/
  | wrong
  deriving DecidableEq, Repr

/-- What is left of a run for whoever started the program. -/
structure Exit where
  code : Nat
  output : String
  errors : String
  deriving DecidableEq

/-- How the program is used. -/
def usage : String :=
  "Usage: tierguard init [--data-dir <DIR>]\n" ++
  "       tierguard serve [--config <FILE>] [--host <HOST>] [--port <PORT>] [--data-dir <DIR>]\n" ++
  "                       [--cache-mode <MODE>]\n" ++
  "       tierguard explain --team <ID> [--data-dir <DIR>]\n"

/-- The end of a run without a command. -/
def Misuse.exit : Misuse → Exit
  | help => ⟨0, usage, ""⟩
  | wrong => ⟨2, "", usage⟩

/-- The end of a run with a failure. -/
def Failure.exit (f : Failure) : Exit := ⟨1, "", f.text ++ "\n"⟩

/-- The end of a run whose command has ended. Where nothing can listen for it, a service ends
too. -/
def Ending.exit : Ending → Exit
  | printed output => ⟨0, output, ""⟩
  | listening address _ => ⟨1, "", "Error: cannot listen at " ++ address.text ++ "\n"⟩

/-- The end of a run by its outcome. -/
def Exit.ofOutcome (r : Except Failure Ending) : Exit :=
  match r with
  | .ok e => e.exit
  | .error f => f.exit

end TeamAccess
