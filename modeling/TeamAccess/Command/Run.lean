import TeamAccess.Cache.Form
import TeamAccess.Command
import TeamAccess.Settings.Reader
import TeamAccess.Store.Teams

/-!
# Running commands

A command does its steps in order and stops at the first that fails; what was done before stays
done. To serve and to explain need a database that is there, and only to set one up makes one.
Settings given with the command to serve go before those of its configuration file, and those
before the defaults.
-/

namespace TeamAccess

/-- The settings with those given with the command in their place. -/
def ServeOptions.over (o : ServeOptions) (s : Settings) : Settings where
  server := ⟨o.host.getD s.server.host, o.port.getD s.server.port,
    o.dataDir.getD s.server.dataDir⟩
  authorization := ⟨o.cacheMode.getD s.authorization.cacheMode⟩

namespace Command

/-- Steps of a command on a disk. -/
abbrev Steps (m : Type → Type) := ExceptT Failure m

variable {m : Type → Type} [Monad m] (disk : Disk m)

/-- A result whose faults are failures of the command. -/
def lifted (failure : ε → Failure) (r : Except ε α) : Steps m α :=
  match r with
  | .ok a => pure a
  | .error e => throw (failure e)

/-- The database of a name, with its store. -/
def openNamed (name : String) : Steps m (Locator × Store) := do
  match Locator.ofName? name with
  | none => throw (.fault .storage)
  | some l => return (l, ← lifted .fault (← disk.openAt l))

/-- The database of a name, with its store, if a file is there by this name. -/
def openExisting (name : String) : Steps m (Locator × Store) := do
  if ← disk.isThere name then openNamed disk name else throw (.noDatabase name)

/-- Sets up the store of a database, and gives the store as it is then. -/
def setUpAt (l : Locator) (s : Store) : Steps m Store := do
  let (result, new) := s.setUp
  if !l.mayWrite && new ≠ s then throw (.fault .storage)
  disk.saveAt l new
  lifted .fault result
  return new

/-- Makes the database of a data directory. -/
def runSetUp (dataDir : String) : Steps m Ending := do
  lifted (.noDirectory dataDir) (← disk.makeDirectories dataDir)
  let name := ServerSettings.databaseIn dataDir
  let (l, s) ← openNamed disk name
  discard (setUpAt disk l s)
  return .printed ("Initialized database at " ++ name ++ "\n")

/-- Prints the cache of a team. -/
def runExplain (team : TeamId) (dataDir : String) : Steps m Ending := do
  let (_, s) ← openExisting disk (ServerSettings.databaseIn dataDir)
  match ← lifted .fault (s.team? team) with
  | none => throw (.noTeam team)
  | some t =>
    let cache ← lifted (.noCache t.name) (s.buildCache t.id)
    return .printed (String.ofList cache.toJson.pretty ++ "\n")

/-- The settings of a configuration file, or the defaults. -/
def settingsOf : Option String → Steps m Settings
  | none => return .default
  | some file => do
    let text ← lifted .unreadable (← disk.readText file)
    lifted .fault (Settings.ofText text)

/-- Begins to answer requests. -/
def runServe (o : ServeOptions) : Steps m Ending := do
  let settings := o.over (← settingsOf disk o.file)
  let (l, s) ← openExisting disk settings.server.databasePath
  let s ← setUpAt disk l s
  match settings.server.address? with
  | none => throw .noAddress
  | some address => return .listening address ⟨s, .empty settings.authorization.cacheMode⟩

/-- Runs a command. -/
def run : Command → m (Except Failure Ending)
  | .setUp dataDir => (runSetUp disk dataDir).run
  | .serve options => (runServe disk options).run
  | .explain team dataDir => (runExplain disk team dataDir).run

end Command

end TeamAccess
