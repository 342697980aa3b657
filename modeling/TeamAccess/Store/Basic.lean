import TeamAccess.Ids.Filter
import TeamAccess.Store.Row

/-!
# The store — nine tables

The store's value is its tables. A table may be missing, and every operation that touches a
missing table fails as a whole.

Primary keys are the keys of the tables' indexes and so hold by type. Tables whose ids the store
hands out remember the largest id they ever handed out, so that none is used twice.
-/

namespace TeamAccess

/-- A table whose ids are handed out by the store. -/
structure Numbered {ρ : Type} (key : ρ → Int64) where
  rows : Index key
  /-- The largest id handed out so far. -/
  last : Int64
  deriving DecidableEq

namespace Numbered

variable {ρ : Type} {key : ρ → Int64}

/-- The table with no rows, none handed out. -/
def empty : Numbered key := ⟨Index.empty, 0⟩

/-- The larger of two ids. -/
def larger (a b : Int64) : Int64 := if a < b then b else a

/-- The id of the next row: one more than every id handed out or present; ids may run out. -/
def next? (t : Numbered key) : Option Int64 :=
  let top := t.rows.rows.foldl (fun m r => larger m (key r)) t.last
  if top = Int64.maxValue then none else some (top + 1)

/-- The table with a new row, whose id is counted as handed out. -/
def push (t : Numbered key) (r : ρ) : Numbered key := ⟨t.rows.insert r, key r⟩

/-- The table with other rows and the same ids handed out. -/
def withRows (t : Numbered key) (rows : Index key) : Numbered key := { t with rows }

end Numbered

/-- The tables, and the clock that new ownerships are stamped with. -/
structure Store where
  /-- The time of the next operation. -/
  now : Timestamp
  environments : Option (Index EnvironmentRow.id)
  tenants : Option (Index TenantRow.id)
  odss : Option (Index OdsRow.id)
  edOrgs : Option (Index EdOrgRow.id)
  closure : Option (Index ClosureRow.ends)
  teams : Option (Numbered TeamRow.id)
  roles : Option (Numbered RoleRow.id)
  privileges : Option (Index PrivilegeRow.key)
  ownerships : Option (Numbered OwnershipRow.id)
  deriving DecidableEq

namespace Store

/-- The store without any table. -/
def blank (now : Timestamp) : Store :=
  ⟨now, none, none, none, none, none, none, none, none, none⟩

/-- What an operation needs: a table that is there, or a value for a column. -/
def need (a : Option α) : Except Fault α := a.elim (.error .storage) .ok

/-- What the row of an id reads as, if there is one. -/
def lookUp {ρ : Type} {key : ρ → Int64} (t : Index key) (load : ρ → Except Fault α) (id : Int64) :
    Except Fault (Option α) :=
  (t.find? id).mapM load

/-- Whether a table has the row that a cell refers to. -/
def refersTo {ρ : Type} {key : ρ → Int64} (c : IntCell) (t : Index key) : Bool :=
  c.int?.any t.hasKey

/-- Why a row is not inserted. -/
inductive Refusal where
  /-- A table is missing, or the ids have run out. -/
  | unavailable
  /-- A key, a check or a reference to another table. -/
  | constraint
  deriving DecidableEq

/-- A table that an insertion needs. -/
def available (table : Option α) : Except Refusal α := table.elim (.error .unavailable) .ok

/-- A condition that an inserted row must meet. -/
def holds (condition : Bool) : Except Refusal Unit :=
  if condition then .ok () else .error .constraint

/-- What a refused insertion of a row with its own id, or with a unique name, means: a broken
constraint says that the row is there already. -/
def Refusal.asKnown : Refusal → Fault
  | unavailable => .storage
  | constraint => .alreadyExists

/-- What any other refused insertion means. -/
def Refusal.asFailure : Refusal → Fault
  | _ => .storage

end Store

end TeamAccess
