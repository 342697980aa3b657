import TeamAccess.Text.Decimal

/-!
# Resources — what an ownership is about

An ownership is about one environment, tenant, ODS or education organization, or about all of
them. Rows keep such a reference in two columns, a kind and an id; `ResourceRef.ofParts` rebuilds
it and refuses the pairs that no reference has, each with its reason.
-/

namespace TeamAccess

/-- The id of a row of the hierarchy. -/
abbrev ResourceId := Int64

/-- The id of a team. -/
abbrev TeamId := Int64

/-- The id of a role. -/
abbrev RoleId := Int64

/-- The id of an ownership. -/
abbrev OwnershipId := Int64

/-- The kinds of things that an ownership can be about. -/
inductive ResourceKind where
  /-- Everything at once. -/
  | global
  | environment
  | tenant
  | ods
  | edOrg
  deriving DecidableEq, Repr

namespace ResourceKind

/-- The kind's name. -/
def name : ResourceKind → String
  | global => "global"
  | environment => "environment"
  | tenant => "tenant"
  | ods => "ods"
  | edOrg => "edorg"

/-- The kind of a name. -/
def ofName? : String → Option ResourceKind
  | "global" => some global
  | "environment" => some environment
  | "tenant" => some tenant
  | "ods" => some ods
  | "edorg" => some edOrg
  | _ => none

end ResourceKind

/-- What an ownership is about. -/
inductive ResourceRef where
  /-- Everything, including what is added later. -/
  | global
  | environment (id : ResourceId)
  | tenant (id : ResourceId)
  | ods (id : ResourceId)
  | edOrg (id : ResourceId)
  deriving DecidableEq

/-- Why a resource reference is refused. -/
inductive ResourceFault where
  /-- No kind has this name. -/
  | unknownKind (name : String)
  /-- A reference to everything came with an id. -/
  | globalWithId (id : ResourceId)
  /-- A reference to one resource came without an id. -/
  | withoutId (kind : ResourceKind)
  /-- The resource to be owned is not stored. -/
  | absent (resource : ResourceRef)
  /-- The row that a hierarchy row names as its parent is not stored. -/
  | noParent (kind : ResourceKind) (id : ResourceId)
  deriving DecidableEq

namespace ResourceRef

/-- The reference's kind. -/
def kind : ResourceRef → ResourceKind
  | global => .global
  | environment _ => .environment
  | tenant _ => .tenant
  | ods _ => .ods
  | edOrg _ => .edOrg

/-- The id of the one resource that is meant. -/
def id? : ResourceRef → Option ResourceId
  | global => none
  | environment id | tenant id | ods id | edOrg id => some id

/-- The reference with the given kind, by name, and id. -/
def ofParts (kind : String) (id : Option ResourceId) : Except ResourceFault ResourceRef :=
  match ResourceKind.ofName? kind with
  | none => .error (.unknownKind kind)
  | some .global => id.elim (.ok global) fun id => .error (.globalWithId id)
  | some .environment => id.elim (.error (.withoutId .environment)) fun id => .ok (environment id)
  | some .tenant => id.elim (.error (.withoutId .tenant)) fun id => .ok (tenant id)
  | some .ods => id.elim (.error (.withoutId .ods)) fun id => .ok (ods id)
  | some .edOrg => id.elim (.error (.withoutId .edOrg)) fun id => .ok (edOrg id)

/-- The reference in a message: its kind and its id after a colon. -/
def text (r : ResourceRef) : String :=
  match r.id? with
  | none => r.kind.name
  | some id => r.kind.name ++ ":" ++ Decimal.text id

end ResourceRef

/-- The reason in words. -/
def ResourceFault.message : ResourceFault → String
  | unknownKind name => "unknown type `" ++ name ++ "`"
  | globalWithId id => "global ownership cannot name resource " ++ Decimal.text id
  | withoutId kind => kind.name ++ " ownership requires a resource id"
  | absent resource => resource.text ++ " does not exist"
  | noParent kind id => kind.name ++ " " ++ Decimal.text id ++ " does not exist"

end TeamAccess
