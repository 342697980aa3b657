import TeamAccess.Json.Decode
import TeamAccess.Settings

/-!
# JSON forms of settings

Every member may be absent and then has its default; an array of settings may end early.
-/

namespace TeamAccess

open Decode

/-- The mode as a JSON value. -/
def CacheMode.toJson (m : CacheMode) : Json := .str m.name

/-- The reader of cache modes. -/
def CacheMode.decode : Decoder CacheMode := enum CacheMode.ofName?

namespace ServerSettings

/-- The settings as a JSON value. -/
def toJson (s : ServerSettings) : Json :=
  .obj [("host", .str s.host), ("port", .int s.port.toNat), ("data_dir", .str s.dataDir)]

/-- The reader of server settings. -/
def decode : Decoder ServerSettings :=
  (ServerSettings.mk <$> .defaulted "host" default.host string <*>
    .defaulted "port" default.port Decode.port <*>
    .defaulted "data_dir" default.dataDir string : Record ServerSettings).read

end ServerSettings

namespace AuthorizationSettings

/-- The settings as a JSON value. -/
def toJson (s : AuthorizationSettings) : Json := .obj [("cache_mode", s.cacheMode.toJson)]

/-- The reader of authorization settings. -/
def decode : Decoder AuthorizationSettings :=
  (AuthorizationSettings.mk <$>
    .defaulted "cache_mode" default.cacheMode CacheMode.decode : Record AuthorizationSettings).read

end AuthorizationSettings

namespace Settings

/-- The settings as a JSON value. -/
def toJson (s : Settings) : Json :=
  .obj [("server", s.server.toJson), ("authz", s.authorization.toJson)]

/-- The reader of settings. -/
def decode : Decoder Settings :=
  (Settings.mk <$> .defaulted "server" default.server ServerSettings.decode <*>
    .defaulted "authz" default.authorization AuthorizationSettings.decode : Record Settings).read

end Settings

end TeamAccess
