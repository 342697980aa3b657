import TeamAccess.Disk

/-!
# Workspaces — files in a value

A workspace is a working directory with what lies below it: directories, texts and databases, each
at a `Location`, the names that lead to it. A path is followed name by name as far as directories
reach; dots are followed too, and a path from the root of the file system begins at a directory of
its own that is empty at first, as are the directories above the working directory. The path of a
database is shortened first, so it may lead through what is not there and back.

An empty text counts as a database without tables.
-/

namespace TeamAccess

/-- The names that lead from the working directory to a place. -/
abbrev Location := List String

/-- What can be at a place. -/
inductive Entry where
  | directory
  | text (content : String)
  | database (store : Store)

/-- A working directory, with the time by its clock. -/
structure Workspace where
  now : Timestamp
  entries : KeyMap Location Entry

namespace Workspace

/-- The empty working directory. -/
def empty (now : Timestamp) : Workspace := ⟨now, Index.empty⟩

/-- Whether a location is the working directory or one above it. -/
def isUp (l : Location) : Bool := l.all (· = "..")

/-- What is at a location. -/
def entry? (w : Workspace) (l : Location) : Option Entry :=
  if isUp l ∨ l = ["/"] then some .directory else w.entries.get? l

/-- The workspace with something put at a location. -/
def put (w : Workspace) (l : Location) (e : Entry) : Workspace :=
  { w with entries := w.entries.put l e }

/-- Where a path begins. -/
def origin (path : String) : Location := if path.startsWith "/" then ["/"] else []

/-- The location that a name leads to from a directory. -/
def step (here : Location) (name : String) : Location :=
  if Path.stays name then here
  else if name != ".." || isUp here then here ++ [name]
  else if here = ["/"] then here
  else here.dropLast

/-- The location that names lead to; it may be empty, but not what they lead through. -/
def follow (w : Workspace) : Location → List String → Except PathFault Location
  | here, [] => .ok here
  | here, name :: names =>
    match w.entry? here with
    | none => .error .absent
    | some .directory => w.follow (step here name) names
    | some _ => .error .notDirectory

/-- The location of a path. -/
def locate (w : Workspace) (path : String) : Except PathFault Location :=
  if path.isEmpty then .error .absent else w.follow (origin path) (Path.names path)

/-- What a path leads to. -/
def find (w : Workspace) (path : String) : Except PathFault Entry := do
  (w.entry? (← w.locate path)).elim (.error .absent) .ok

/-- The workspace with a directory made where nothing is yet. Slashes may follow the new name; a
name made of dots is always there, in a directory that is. -/
def makeDirectory (w : Workspace) (path : String) : Except PathFault Workspace :=
  match (Path.names path).reverse.dropWhile (· = "") with
  | [] => .error (if path.isEmpty then .absent else .present)
  | name :: above => do
    let here ← w.follow (origin path) (above.reverse ++ ["."])
    let there := step here name
    if name = "." ∨ name = ".." ∨ (w.entry? there).isSome then .error .present
    else return w.put there .directory

/-- The text of the file at a path. -/
def readText (w : Workspace) (path : String) : Except PathFault String := do
  match ← w.find path with
  | .text content => return content
  | .directory => .error .directory
  | .database _ => .error .notText

/-- The location that names are short for: a name with two dots after it is taken back, though
nothing be there, and dots or nothing at the end do not count. There is none below what is no
directory. -/
def shorten? (w : Workspace) : Location → List String → Option Location
  | here, [] => some here
  | here, name :: names =>
    let isFile := !(w.entry? here).all (· matches .directory)
    if isFile && !Path.stays name && name != ".." then none
    else w.shorten? (step here name) names

/-- The location of the database at a path. -/
def databaseAt? (w : Workspace) (path : String) : Option Location :=
  w.shorten? (origin path) (Path.names path)

/-- The store of the database at a path, which may be made where nothing is. -/
def openDatabase (w : Workspace) (path : String) (mayMake : Bool) :
    Except Fault (Store × Workspace) :=
  match w.databaseAt? path with
  | none => .error .storage
  | some l =>
    let made := (Store.blank w.now, w.put l (.database (.blank w.now)))
    match w.entry? l with
    | some (.database s) => .ok ({ s with now := w.now }, w)
    | some (.text content) => if content.isEmpty then .ok made else .error .storage
    | some .directory => .error .storage
    | none =>
      if mayMake && w.entry? l.dropLast matches some .directory then .ok made
      else .error .storage

/-- The workspace with the store of the database at a path replaced. -/
def saveDatabase (w : Workspace) (path : String) (s : Store) : Workspace :=
  match w.databaseAt? path with
  | none => w
  | some l => w.put l (.database s)

/-- The operations of commands on a workspace. -/
def disk : Disk (StateM Workspace) where
  isThere path := return ((← get).find path).isOk
  readText path := return (← get).readText path
  makeDirectory path := do
    match (← get).makeDirectory path with
    | .error e => return .error e
    | .ok w =>
      set w
      return .ok ()
  openDatabase path mayMake := do
    match (← get).openDatabase path mayMake with
    | .error e => return .error e
    | .ok (s, w) =>
      set w
      return .ok s
  saveDatabase path s := modify fun w => w.saveDatabase path s

/-- The workspace with a text at a path, and with the directories that lead there. -/
def write (w : Workspace) (path : String) (content : String) : Except PathFault Workspace := do
  let (made, w) := Id.run ((disk.makeDirectories (Path.parent path)).run w)
  made
  let l ← w.locate path
  if w.entry? l matches some .directory then .error .directory
  else return w.put l (.text content)

end Workspace

end TeamAccess
