import TeamAccess.Expansion
import TeamAccess.Store.Closure
import TeamAccess.Store.Hierarchy
import TeamAccess.Store.Teams

/-!
# Resolving resources against the store

`Resolver.expand` finds what a resource reaches. Many ownerships of one team share the rows above
them, so a resolver remembers the environments, tenants, ODSs and roles it has looked up, those
that are not stored included; a look-up that fails is not remembered, and what was remembered
before a failure stays.
-/

namespace TeamAccess

/-- What a resolver remembers of the store. -/
structure Memo where
  environments : KeyMap ResourceId (Option Environment)
  tenants : KeyMap ResourceId (Option Tenant)
  odss : KeyMap ResourceId (Option Ods)
  roles : KeyMap RoleId (Option Role)

/-- The memory of a new resolver. -/
def Memo.empty : Memo := ⟨Index.empty, Index.empty, Index.empty, Index.empty⟩

/-- A computation that may fail and remembers look-ups. -/
abbrev Resolver (α : Type) := ExceptT Fault (StateM Memo) α

namespace Resolver

/-- The result of a read of the store. -/
def read (result : Except Fault α) : Resolver α := ExceptT.mk (pure result)

/-- A look-up, answered from memory where it was made before. -/
def remembered (known : Memo → KeyMap Int64 (Option α))
    (keep : Memo → KeyMap Int64 (Option α) → Memo) (lookup : Int64 → Except Fault (Option α))
    (id : Int64) : Resolver (Option α) := do
  match (known (← get)).get? id with
  | some found => return found
  | none =>
    let found ← read (lookup id)
    modify fun m => keep m ((known m).put id found)
    return found

/-- The environment with an id. -/
def environment? (s : Store) : ResourceId → Resolver (Option Environment) :=
  remembered Memo.environments (fun m environments => { m with environments }) s.environment?

/-- The tenant with an id. -/
def tenant? (s : Store) : ResourceId → Resolver (Option Tenant) :=
  remembered Memo.tenants (fun m tenants => { m with tenants }) s.tenant?

/-- The ODS with an id. -/
def ods? (s : Store) : ResourceId → Resolver (Option Ods) :=
  remembered Memo.odss (fun m odss => { m with odss }) s.ods?

/-- The role with an id. -/
def role? (s : Store) : RoleId → Resolver (Option Role) :=
  remembered Memo.roles (fun m roles => { m with roles }) s.role?

/-- The key of an organization under a version; version 2 needs the instance of its ODS. -/
def edOrgKey? (s : Store) (version : ApiVersion) (e : EdOrg) : Resolver (Option EdOrgKey) :=
  match version with
  | .v1 => return some (.v1 e.organization)
  | .v2 => return (← ods? s e.ods).bind fun o =>
      EdOrgKey.under? .v2 o.instanceId e.organization

/-- The keys of organizations, in order, without those that have none. -/
def edOrgKeys (s : Store) (version : ApiVersion) : List EdOrg → Resolver (List EdOrgKey)
  | [] => return []
  | e :: es => do
    let key ← edOrgKey? s version e
    let keys ← edOrgKeys s version es
    return key.toList ++ keys

/-- The expansion of a part of an ODS, if everything above it is stored. -/
def part (s : Store) (ods : ResourceId) (ownsOds : Bool) (edOrgs : List EdOrg) :
    Resolver Expansion := do
  match ← ods? s ods with
  | none => return .dangling
  | some o =>
    match ← tenant? s o.tenant with
    | none => return .dangling
    | some t =>
      match ← environment? s t.environment with
      | none => return .dangling
      | some e =>
        let keys ← edOrgKeys s e.version edOrgs
        return .part ⟨e.id, t.id, ods, ownsOds, Index.ofList (edOrgs.map EdOrg.id),
          Index.ofList keys⟩

/-- What a resource reaches. -/
def expand (s : Store) : ResourceRef → Resolver Expansion
  | .global => return .everything
  | .environment id => do
    match ← environment? s id with
    | none => return .dangling
    | some _ => return .environment id ((← read (s.listTenants id .unrestricted)).map Tenant.id)
  | .tenant id => do
    match ← tenant? s id with
    | none => return .dangling
    | some t =>
      match ← environment? s t.environment with
      | none => return .dangling
      | some _ => return .tenant t.environment id
  | .ods id => do part s id true (← read (s.listOdsEdOrgs id))
  | .edOrg id => do
    match ← read (s.edOrg? id) with
    | none => return .dangling
    | some root =>
      let below ← read (s.listDescendants id)
      part s root.ods false
        (if below.any fun e => e.id = root.id then below else below ++ [root])

end Resolver

end TeamAccess
