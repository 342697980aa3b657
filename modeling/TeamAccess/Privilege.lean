/-!
# Privileges — the catalog

A privilege is an action on a subject. The catalog lists every privilege once, in an order that is
also the order of privileges wherever they are sorted. A privilege's `Shape` says how a team's
ids for it are filed: as one set, by environment, or by tenant; the subject alone decides it.
-/

namespace TeamAccess

/-- How the ids of a privilege are filed. -/
inductive Shape where
  /-- One set for the whole team. -/
  | unscoped
  /-- One set for each environment. -/
  | byEnvironment
  /-- One set for each tenant. -/
  | byTenant
  deriving DecidableEq, Repr

/-- The kind of thing that a privilege acts on. -/
inductive Subject where
  | environment
  | tenant
  | ods
  | edOrg
  /-- Applications, known by the keys of their education organizations. -/
  | application
  /-- Vendors, granted for a whole tenant or not at all. -/
  | vendor
  /-- Claim sets, granted for a whole tenant or not at all. -/
  | claimSet
  deriving DecidableEq, Repr

/-- What a privilege allows to do. -/
inductive Action where
  | read
  | create
  | update
  | delete
  | resetCredentials
  deriving DecidableEq, Repr

/-- A privilege of the catalog. -/
inductive Privilege where
  | environmentRead
  | tenantRead
  | tenantCreate
  | tenantDelete
  | odsRead
  | odsCreate
  | odsDelete
  | edOrgRead
  | applicationRead
  | applicationCreate
  | applicationUpdate
  | applicationDelete
  | applicationResetCredentials
  | vendorRead
  | vendorCreate
  | vendorUpdate
  | vendorDelete
  | claimSetRead
  | claimSetCreate
  | claimSetUpdate
  | claimSetDelete
  deriving DecidableEq, Repr

namespace Shape

/-- The shape's name. -/
def name : Shape → String
  | unscoped => "unscoped"
  | byEnvironment => "by_environment"
  | byTenant => "by_tenant"

/-- The shape of a name. -/
def ofName? (s : String) : Option Shape :=
  [unscoped, byEnvironment, byTenant].find? (·.name = s)

end Shape

namespace Subject

/-- The subject's name. -/
def name : Subject → String
  | environment => "environment"
  | tenant => "tenant"
  | ods => "ods"
  | edOrg => "ed_org"
  | application => "application"
  | vendor => "vendor"
  | claimSet => "claim_set"

/-- The subject of a name. -/
def ofName? (s : String) : Option Subject :=
  [environment, tenant, ods, edOrg, application, vendor, claimSet].find? (·.name = s)

/-- How the ids of the subject's privileges are filed. -/
def shape : Subject → Shape
  | environment => .unscoped
  | tenant => .byEnvironment
  | ods | edOrg | application | vendor | claimSet => .byTenant

end Subject

namespace Action

/-- The action's name. -/
def name : Action → String
  | read => "read"
  | create => "create"
  | update => "update"
  | delete => "delete"
  | resetCredentials => "reset-credentials"

/-- The action of a name. -/
def ofName? (s : String) : Option Action :=
  [read, create, update, delete, resetCredentials].find? (·.name = s)

/-- Whether the action changes nothing, so that access to one of several things is enough. -/
def isSafe (a : Action) : Bool := a = .read

end Action

namespace Privilege

/-- Every privilege, in catalog order. -/
def all : List Privilege :=
  [environmentRead, tenantRead, tenantCreate, tenantDelete, odsRead, odsCreate, odsDelete,
    edOrgRead, applicationRead, applicationCreate, applicationUpdate, applicationDelete,
    applicationResetCredentials, vendorRead, vendorCreate, vendorUpdate, vendorDelete,
    claimSetRead, claimSetCreate, claimSetUpdate, claimSetDelete]

/-- The privilege's place in the catalog. -/
def rank (p : Privilege) : Nat := all.idxOf p

/-- The catalog lists every privilege. -/
theorem all_getElem?_rank (p : Privilege) : all[p.rank]? = some p := by cases p <;> rfl

/-- Different privileges have different places. -/
theorem rank_inj {p q : Privilege} (h : p.rank = q.rank) : p = q :=
  Option.some.inj (all_getElem?_rank p ▸ h ▸ all_getElem?_rank q ▸ rfl)

/-- Privileges are ordered as in the catalog. -/
instance : Ord Privilege := ⟨compareOn rank⟩

instance : Std.TransOrd Privilege := inferInstanceAs (Std.TransCmp (compareOn rank))

instance : Std.LawfulEqOrd Privilege where
  eq_of_compare h := rank_inj (Std.LawfulEqOrd.eq_of_compare h)

/-- What the privilege acts on. -/
def subject : Privilege → Subject
  | environmentRead => .environment
  | tenantRead | tenantCreate | tenantDelete => .tenant
  | odsRead | odsCreate | odsDelete => .ods
  | edOrgRead => .edOrg
  | applicationRead | applicationCreate | applicationUpdate | applicationDelete
  | applicationResetCredentials => .application
  | vendorRead | vendorCreate | vendorUpdate | vendorDelete => .vendor
  | claimSetRead | claimSetCreate | claimSetUpdate | claimSetDelete => .claimSet

/-- What the privilege allows to do. -/
def action : Privilege → Action
  | environmentRead | tenantRead | odsRead | edOrgRead | applicationRead | vendorRead
  | claimSetRead => .read
  | tenantCreate | odsCreate | applicationCreate | vendorCreate | claimSetCreate => .create
  | applicationUpdate | vendorUpdate | claimSetUpdate => .update
  | tenantDelete | odsDelete | applicationDelete | vendorDelete | claimSetDelete => .delete
  | applicationResetCredentials => .resetCredentials

/-- How the privilege's ids are filed. -/
def shape (p : Privilege) : Shape := p.subject.shape

/-- Ids are filed by tenant but for environments and tenants themselves. -/
theorem shape_eq_byTenant_iff {p : Privilege} :
    p.shape = .byTenant ↔ p.subject ≠ .environment ∧ p.subject ≠ .tenant := by
  rw [shape]
  cases p.subject <;> simp [Subject.shape]

/-- The text of a subject in privilege codes: where it stands in the hierarchy. -/
def path : Subject → String
  | .environment => "team.sb-environment"
  | .tenant => "team.sb-environment.edfi-tenant"
  | .ods => "team.sb-environment.edfi-tenant.ods"
  | .edOrg => "team.sb-environment.edfi-tenant.ods.edorg"
  | .application => "team.sb-environment.edfi-tenant.ods.edorg.application"
  | .vendor => "team.sb-environment.edfi-tenant.vendor"
  | .claimSet => "team.sb-environment.edfi-tenant.claimset"

/-- The privilege's code: the path of its subject, a colon and its action. -/
def code (p : Privilege) : String := path p.subject ++ ":" ++ p.action.name

/-- The privilege of a code. -/
def ofCode? (s : String) : Option Privilege := all.find? (·.code = s)

/-- The privilege for an action on applications. -/
def onApplications : Action → Privilege
  | .read => applicationRead
  | .create => applicationCreate
  | .update => applicationUpdate
  | .delete => applicationDelete
  | .resetCredentials => applicationResetCredentials

end Privilege

end TeamAccess
