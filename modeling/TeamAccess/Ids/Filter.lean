import TeamAccess.Ids.Basic

/-!
# Row filters — id sets as conditions on rows

A filter is made from an id set only. It has a text as a condition on a column, with values to be
bound to it, and it decides which ids of rows pass. A bound value that is a text counts as the
integer it denotes when it is compared with a column of integers: so a version 1 key passes the
row whose id is its organization, and a version 2 key, whose text has a hyphen inside, none.
-/

namespace TeamAccess

/-- A condition on the ids of rows. -/
inductive RowFilter where
  /-- Every row passes. -/
  | unrestricted
  | oneOf (keys : List AccessKey)
  deriving DecidableEq

/-- A value bound to a condition. -/
inductive BoundValue where
  | int (n : Int64)
  | text (s : String)
  deriving DecidableEq

/-- The condition that a row is in the set. -/
def IdSet.toFilter : IdSet → RowFilter
  | .all => .unrestricted
  | .only ks => .oneOf ks.rows

/-- The value that an entry is compared as. -/
def AccessKey.bound : AccessKey → BoundValue
  | id n => .int n
  | edOrg k => .text k.text

/-- Whether the value is the given integer in a column of integers. -/
def BoundValue.equals : BoundValue → Int64 → Bool
  | int n, id => n = id
  | text s, id => s = Decimal.text id

namespace RowFilter

/-- Whether every row passes. -/
def isUnrestricted : RowFilter → Bool
  | unrestricted => true
  | oneOf _ => false

/-- The condition on a column. -/
def condition (column : String) : RowFilter → String
  | unrestricted => "1 = 1"
  | oneOf [] => "1 = 0"
  | oneOf keys => column ++ " IN (" ++ ", ".intercalate (keys.map fun _ => "?") ++ ")"

/-- The values bound to the condition, in order. -/
def params : RowFilter → List BoundValue
  | unrestricted => []
  | oneOf keys => keys.map AccessKey.bound

/-- Whether the rows that pass are looked up one by one. That pays off for a few ids; for one id and
for many, rows are searched by their other columns. -/
def isLookup : RowFilter → Bool
  | unrestricted => false
  | oneOf keys => 1 < keys.length && keys.length < 60

/-- Whether a row with the id passes. -/
def admits (f : RowFilter) (id : ResourceId) : Bool :=
  match f with
  | unrestricted => true
  | oneOf keys => keys.any fun k => k.bound.equals id

end RowFilter

end TeamAccess
