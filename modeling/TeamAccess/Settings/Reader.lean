import TeamAccess.Settings
import TeamAccess.Toml.Document

/-!
# Settings from a configuration file

A configuration is a TOML document with the tables `server` and `authz`. What it leaves out has
its default, and what it has besides is passed over. A group of settings may also be an array of
its values in order, cut short anywhere and ignored past the last; a time in its place counts as
an empty group. A cache mode may also be a table of one member, named for the mode and empty.
-/

namespace TeamAccess

namespace Toml

/-- A text. -/
def text? : Toml → Option String
  | str s => some s
  | _ => none

/-- A port number. -/
def port? : Toml → Option UInt16
  | int n => if 0 ≤ n ∧ n < 65536 then some n.toInt.toNat.toUInt16 else none
  | _ => none

/-- Whether a value is an array or a table without anything in it. -/
def isVoid : Toml → Bool
  | array [] | table _ [] => true
  | _ => false

/-- A cache mode. -/
def cacheMode? : Toml → Option CacheMode
  | str s => CacheMode.ofName? s
  | table _ [(name, v)] => if v.isVoid then CacheMode.ofName? name else none
  | _ => none

/-- The values of a group of settings with the given names. -/
def group? (names : List String) : Toml → Option Members
  | table _ ms => some ms
  | array vs => some (names.zip vs)
  | tables all => some (names.zip (all.map (table .header)))
  | time => some []
  | _ => none

/-- The setting of a name, or its default where there is none. -/
def setting (read : Toml → Option α) (default : α) (name : String) (ms : Members) : Option α :=
  (ms.lookup name).elim (some default) read

/-- The server settings of a value. -/
def server? (v : Toml) : Option ServerSettings := do
  let ms ← v.group? ["host", "port", "data_dir"]
  let base := ServerSettings.default
  return ⟨← setting text? base.host "host" ms, ← setting port? base.port "port" ms,
    ← setting text? base.dataDir "data_dir" ms⟩

/-- The authorization settings of a value. -/
def authorization? (v : Toml) : Option AuthorizationSettings := do
  let ms ← v.group? ["cache_mode"]
  return ⟨← setting cacheMode? AuthorizationSettings.default.cacheMode "cache_mode" ms⟩

/-- The settings of a document. -/
def settings? (v : Toml) : Option Settings := do
  let ms ← v.group? ["server", "authz"]
  return ⟨← setting server? .default "server" ms, ← setting authorization? .default "authz" ms⟩

end Toml

/-- The settings of a configuration file's text. -/
def Settings.ofText (text : String) : Except Fault Settings :=
  ((Toml.ofText? text).bind Toml.settings?).elim (.error (.config .malformed)) .ok

end TeamAccess
