import TeamAccess.Privilege
import TeamAccess.Resource

/-!
# Faults — why an operation fails

Every operation on the store, the caches and the configuration fails with a `Fault`: a cause, with
what its message needs. `Fault.message` is the one place of the wording. Failures of the storage
itself have no wording here: nothing that is answered depends on more than that they occurred.
-/

namespace TeamAccess

/-- Why a configuration is refused. -/
inductive ConfigFault where
  /-- No cache mode has this name. -/
  | unknownCacheMode (name : String)
  /-- The text is no configuration. -/
  | malformed
  deriving DecidableEq

/-- Why a request is refused though its parts are well-formed. -/
inductive RequestFault where
  /-- The role belongs to another team than the ownership's. -/
  | foreignRole (id : RoleId)
  /-- The parent lies in another ODS than its child. -/
  | foreignParent (id : ResourceId)
  deriving DecidableEq

/-- Why an operation fails. -/
inductive Fault where
  /-- The storage: a missing table, a broken row, a violated constraint. -/
  | storage
  /-- What the operation is about is not stored. -/
  | notFound
  /-- What the operation would add is already stored. -/
  | alreadyExists
  | config (cause : ConfigFault)
  /-- The code is not in the privilege catalog. -/
  | unknownPrivilege (code : String)
  | resource (cause : ResourceFault)
  | request (cause : RequestFault)
  /-- A grant does not have the shape of the privilege it is for. -/
  | misfit (privilege : Privilege)
  deriving DecidableEq

/-- What is added to say which configuration is refused. -/
def ConfigFault.detail : ConfigFault → String
  | unknownCacheMode name => ": unknown cache mode `" ++ name ++ "`"
  | malformed => ""

/-- The reason in words. -/
def RequestFault.message : RequestFault → String
  | foreignRole id => "role " ++ Decimal.text id ++ " belongs to another team"
  | foreignParent id => "parent edorg " ++ Decimal.text id ++ " belongs to another ods"

/-- The fault in words. -/
def Fault.message : Fault → String
  | storage => "database error"
  | notFound => "not found"
  | alreadyExists => "already exists"
  | config cause => "invalid configuration" ++ cause.detail
  | unknownPrivilege code => "invalid privilege: " ++ code
  | resource cause => "invalid resource reference: " ++ cause.message
  | request cause => "bad request: " ++ cause.message
  | misfit privilege => "grant does not fit " ++ privilege.code

namespace Privilege

/-- The privilege of a code that ought to be in the catalog. -/
def parse (code : String) : Except Fault Privilege :=
  (ofCode? code).elim (.error (.unknownPrivilege code)) .ok

/-- The privileges of codes, in their order; the first unknown code counts. -/
def parseAll (codes : List String) : Except Fault (List Privilege) := codes.mapM parse

/-- The shape of a code's privilege. Guessing one for an unknown code could grant or deny the
wrong resources, so there is none. -/
def shapeOf? (code : String) : Option Shape := (ofCode? code).map shape

/-- What is said about a code that `shapeOf?` does not know. -/
def unclassified (code : String) : String :=
  "privilege code `" ++ code ++ "` has no shape classification"

end Privilege

end TeamAccess
