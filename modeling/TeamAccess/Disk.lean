import TeamAccess.Locator
import TeamAccess.Path
import TeamAccess.Service.Basic

/-!
# The disk — what commands ask of the files around them

Commands make directories, read configuration files and open databases. They do so through a
`Disk`, the few operations they need in a monad of the caller's choice: a program works on real
files, and a `Workspace` keeps all of it in a value.

A directory is made together with those above it. Whether it can be made is asked before anything
above it is made and again after that, so a path that goes on with a dot where nothing is yet
leaves the directories above it made, and fails.
-/

namespace TeamAccess

/-- The operations on files that commands need. -/
structure Disk (m : Type → Type) where
  /-- Whether a path leads to anything. -/
  isThere : String → m Bool
  /-- The text of a file. -/
  readText : String → m (Except PathFault String)
  /-- Makes a directory where nothing is yet. -/
  makeDirectory : String → m (Except PathFault Unit)
  /-- The store of a database in a file. Where there is none, one without tables is made if that
  is asked for. -/
  openDatabase : String → Bool → m (Except Fault Store)
  /-- Keeps the store of an open database. -/
  saveDatabase : String → Store → m Unit

namespace Disk

variable {m : Type → Type} [Monad m] (disk : Disk m)

/-- Whether a path leads to a directory: then, and only then, it can be gone on from. -/
def isDirectory (path : String) : m Bool := disk.isThere (path ++ "/.")

/-- The result, unless what could not be made is there already. -/
def unlessThere (path : String) (result : Except PathFault Unit) : m (Except PathFault Unit) := do
  match result with
  | .ok () => return .ok ()
  | .error e => if ← disk.isDirectory path then return .ok () else return .error e

/-- Makes the first of the directories at paths, and before it as many of the others, each above
the one before, as are missing. -/
def makeFirst : List String → m (Except PathFault Unit)
  | [] => return .ok ()
  | path :: above => do
    match ← disk.makeDirectory path with
    | .error .absent =>
      match ← makeFirst above with
      | .ok () => disk.unlessThere path (← disk.makeDirectory path)
      | .error e => return .error e
    | result => disk.unlessThere path result

/-- Makes a directory and those above it, as far as they are not there. -/
def makeDirectories (path : String) : m (Except PathFault Unit) :=
  if path.isEmpty then return .ok () else disk.makeFirst (path :: Path.above path)

/-- The store of the database at a locator. -/
def openAt (l : Locator) : m (Except Fault Store) :=
  match l.path with
  | none => return .ok (.blank .epoch)
  | some path => disk.openDatabase path l.mayMake

/-- Keeps the store of the open database at a locator, if it has a file. -/
def saveAt (l : Locator) (s : Store) : m Unit := l.path.forM fun path => disk.saveDatabase path s

end Disk

end TeamAccess
