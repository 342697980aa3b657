import TeamAccess.Fault

/-!
# Cache modes

Whether a team's authorization cache outlives the request that built it. A mode has one name, and
one of the modes may also be spelled with a hyphen where it is given as an argument.
-/

namespace TeamAccess

/-- How long authorization caches live. -/
inductive CacheMode where
  /-- A cache is built for every request. -/
  | perRequest
  /-- A team's cache is kept until a write that may change it. -/
  | shared
  deriving DecidableEq, Repr

namespace CacheMode

/-- The mode's name. -/
def name : CacheMode → String
  | perRequest => "per_request"
  | shared => "shared"

/-- The mode of a name. -/
def ofName? (s : String) : Option CacheMode := [perRequest, shared].find? (·.name = s)

/-- The mode of an argument, which may have a hyphen for the underscore. -/
def parse (s : String) : Except Fault CacheMode :=
  if s = "per-request" then .ok perRequest
  else (ofName? s).elim (.error (.config (.unknownCacheMode s))) .ok

end CacheMode

end TeamAccess
