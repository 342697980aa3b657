import TeamAccess.CacheMode
import TeamAccess.SocketAddress

/-!
# Settings of the server

Where the server listens, where its database is, and how long it keeps caches. Every setting has a
default. The host and the port become an address only when the server starts, so a host need not
be the text of one.
-/

namespace TeamAccess

/-- Where the server listens and keeps its data. -/
structure ServerSettings where
  host : String
  port : UInt16
  dataDir : String
  deriving DecidableEq

/-- How authorizations are kept. -/
structure AuthorizationSettings where
  cacheMode : CacheMode
  deriving DecidableEq

/-- All settings. -/
structure Settings where
  server : ServerSettings
  authorization : AuthorizationSettings
  deriving DecidableEq

namespace ServerSettings

/-- The settings of a server on its own machine. -/
def default : ServerSettings := ⟨"127.0.0.1", 8080, "./data"⟩

/-- The path of a file in a directory: a slash goes between them where there is none. -/
def within (dir file : String) : String :=
  if dir.isEmpty || dir.endsWith "/" then dir ++ file else dir ++ "/" ++ file

/-- The path of the database in a data directory. -/
def databaseIn (dataDir : String) : String := within dataDir "tierguard.db"

/-- The path of the database. -/
def databasePath (s : ServerSettings) : String := databaseIn s.dataDir

/-- The address to listen at, if host and port are the text of one. -/
def address? (s : ServerSettings) : Option SocketAddress :=
  SocketAddress.ofText? (s.host ++ ":" ++ String.ofList (Decimal.ofNat s.port.toNat))

end ServerSettings

/-- Caches are shared unless something else is asked for. -/
def AuthorizationSettings.default : AuthorizationSettings := ⟨.shared⟩

/-- The settings of an empty configuration. -/
def Settings.default : Settings := ⟨.default, .default⟩

end TeamAccess
