import TeamAccess.Hierarchy
import TeamAccess.Index
import TeamAccess.Privilege

/-!
# Id sets — what a team may act on

An `IdSet` is everything, or a set of keys: ids of rows, and keys of education organizations as
the administration interface knows them. A version 1 key is an organization's own id, a version 2
key has the ODS instance before it; no key of one version is a key of the other. Keys are ordered
with ids first, then version 1 keys, then version 2 keys by instance and organization.

`ScopedIds` files id sets by an environment or tenant id, with a flag for everything everywhere.
-/

namespace TeamAccess

/-- An education organization as the administration interface knows it. -/
structure EdOrgKey where
  /-- The ODS instance, in version 2. -/
  instance? : Option Int64
  organization : Int64
  deriving DecidableEq

namespace EdOrgKey

/-- The key in environments of version 1. -/
def v1 (organization : Int64) : EdOrgKey := ⟨none, organization⟩

/-- The key in environments of version 2. -/
def v2 (inst organization : Int64) : EdOrgKey := ⟨some inst, organization⟩

/-- The key under a version, where an instance may be unknown: version 2 then has no key. -/
def under? (version : ApiVersion) (inst : Option Int64) (organization : Int64) :
    Option EdOrgKey :=
  match version with
  | .v1 => some (v1 organization)
  | .v2 => inst.map fun i => v2 i organization

/-- The key's text: the organization, with the instance and a hyphen before it in version 2. -/
def chars (k : EdOrgKey) : List Char :=
  match k.instance? with
  | none => Decimal.ofInt64 k.organization
  | some i => Decimal.ofInt64 i ++ '-' :: Decimal.ofInt64 k.organization

/-- The key's text as a string. -/
def text (k : EdOrgKey) : String := String.ofList k.chars

/-- The numbers that keys are ordered by. -/
def rank (k : EdOrgKey) : List Int :=
  match k.instance? with
  | none => [0, k.organization.toInt]
  | some i => [1, i.toInt, k.organization.toInt]

/-- Different keys have different ranks. -/
theorem rank_inj {a b : EdOrgKey} (h : a.rank = b.rank) : a = b := by
  obtain ⟨_ | i, m⟩ := a <;> obtain ⟨_ | j, n⟩ := b <;> simp_all [rank, Int64.toInt_inj]

/-- Keys are ordered by their ranks. -/
instance : Ord EdOrgKey := ⟨compareOn rank⟩

instance : Std.TransOrd EdOrgKey := inferInstanceAs (Std.TransCmp (compareOn rank))

instance : Std.LawfulEqOrd EdOrgKey where
  eq_of_compare h := rank_inj (Std.LawfulEqOrd.eq_of_compare h)

end EdOrgKey

/-- One entry of an id set. -/
inductive AccessKey where
  /-- The row with an id. -/
  | id (n : ResourceId)
  | edOrg (k : EdOrgKey)
  deriving DecidableEq

namespace AccessKey

/-- The numbers that entries are ordered by. -/
def rank : AccessKey → List Int
  | id n => [0, n.toInt]
  | edOrg k => 1 :: k.rank

/-- Different entries have different ranks. -/
theorem rank_inj {a b : AccessKey} (h : a.rank = b.rank) : a = b := by
  cases a <;> cases b <;> simp_all [rank, Int64.toInt_inj]
  exact EdOrgKey.rank_inj h

/-- Entries are ordered by their ranks. -/
instance : Ord AccessKey := ⟨compareOn rank⟩

instance : Std.TransOrd AccessKey := inferInstanceAs (Std.TransCmp (compareOn rank))

instance : Std.LawfulEqOrd AccessKey where
  eq_of_compare h := rank_inj (Std.LawfulEqOrd.eq_of_compare h)

end AccessKey

/-- What a team may act on with one privilege. -/
inductive IdSet where
  /-- Everything. -/
  | all
  | only (keys : KeySet AccessKey)
  deriving DecidableEq

namespace IdSet

/-- The set with no entries. -/
def empty : IdSet := only Index.empty

instance : Inhabited IdSet := ⟨empty⟩

/-- The set of the given entries. -/
def ofKeys (ks : List AccessKey) : IdSet := only (Index.ofList ks)

/-- The set of the given ids. -/
def ofIds (ns : List ResourceId) : IdSet := ofKeys (ns.map .id)

/-- The set of one id. -/
def one (n : ResourceId) : IdSet := only (Index.single (.id n))

/-- Whether the set is everything. -/
def isAll : IdSet → Bool
  | all => true
  | only _ => false

/-- Whether the set has no entries. -/
def isEmpty : IdSet → Bool
  | all => false
  | only ks => ks.isEmpty

/-- Whether the set has an entry. -/
def has (s : IdSet) (k : AccessKey) : Bool :=
  match s with
  | all => true
  | only ks => ks.contains k

/-- Whether the set has an id. -/
def contains (s : IdSet) (n : ResourceId) : Bool := s.has (.id n)

/-- What is in either set; everything absorbs all else. -/
def union : IdSet → IdSet → IdSet
  | all, _ => all
  | _, all => all
  | only a, only b => only (Index.union a b)

end IdSet

/-- Id sets filed by an environment or tenant id. -/
structure ScopedIds where
  /-- Set by a grant of everything: every scope has everything, those of the future included. -/
  isEverywhere : Bool
  scopes : KeyMap ResourceId IdSet
  deriving DecidableEq

namespace ScopedIds

/-- Nothing in any scope. -/
def empty : ScopedIds := ⟨false, Index.empty⟩

/-- The id set of a scope. -/
def get (s : ScopedIds) (scope : ResourceId) : IdSet :=
  if s.isEverywhere then .all else (s.scopes.get? scope).getD .empty

/-- With everything in every scope; what the scopes had of their own is dropped. -/
def grantAll (_ : ScopedIds) : ScopedIds := ⟨true, Index.empty⟩

/-- With more ids in a scope; an empty set leaves no trace, and neither does any where everything
is granted. -/
def grant (s : ScopedIds) (scope : ResourceId) (ids : IdSet) : ScopedIds :=
  if s.isEverywhere || ids.isEmpty then s
  else { s with scopes := s.scopes.put scope (((s.scopes.get? scope).getD .empty).union ids) }

/-- The scopes that have a set of their own. -/
def scopeKeys (s : ScopedIds) : List ResourceId := s.scopes.keys

/-- Whether there is nothing in any scope. -/
def isEmpty (s : ScopedIds) : Bool := !s.isEverywhere && s.scopes.rows.isEmpty

end ScopedIds

end TeamAccess
