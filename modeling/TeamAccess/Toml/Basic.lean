import TeamAccess.Text.Decimal

/-!
# TOML — values and how a document puts them together

A document is a table of named values. It is written as sections: pairs of a dotted path and a
value, under headers that name the table the pairs belong to. What a later pair or header may add
to a table depends on how the table came about, so each table keeps its `Origin`:

* a pair never changes a value that is there, and its dotted path leads only through tables that
  dotted paths or headers have implied, and ends in one that a dotted path has implied;
* a header names a table that is not there yet, or one that only deeper headers have implied;
* a header in double brackets adds a table to a list of tables, and a path that meets such a list
  goes on in its last table.

Any breach makes the whole document invalid.
-/

namespace TeamAccess

namespace Toml

/-- How a table came about. -/
inductive Origin where
  /-- Written in braces, all at once. -/
  | braces
  /-- Named by a header. -/
  | header
  /-- Implied by the header of a table below it. -/
  | above
  /-- Implied by a dotted path. -/
  | dotted
  deriving DecidableEq, Repr

end Toml

/-- A TOML value. Floats and times have no content here: no setting is one. -/
inductive Toml where
  | str (s : String)
  | int (n : Int64)
  | float
  | bool (b : Bool)
  | time
  | array (items : List Toml)
  | table (origin : Toml.Origin) (members : List (String × Toml))
  /-- The tables that headers in double brackets have added. -/
  | tables (all : List (List (String × Toml)))

namespace Toml

/-- The values of a table by their names. -/
abbrev Members := List (String × Toml)

/-- A dotted path: the names of the tables it leads through, and the last name. -/
structure Path where
  parents : List String
  name : String

/-- The members with the value of a name changed, or added where there is none; a change may
fail. -/
def change (name : String) (f : Option Toml → Option Toml) : Members → Option Members
  | [] => (f none).map fun v => [(name, v)]
  | (k, v) :: ms =>
    if k = name then (f (some v)).map fun v => (k, v) :: ms
    else (change name f ms).map ((k, v) :: ·)

/-- A change to the last table of a list of tables. -/
def changeLast (f : Members → Option Members) (all : List Members) : Option Toml := do
  let last ← all.getLast?
  return tables (all.dropLast ++ [← f last])

/-- A value for a name that has none. -/
def fill (v : Toml) : Option Toml → Option Toml
  | none => some v
  | some _ => none

/-- The members with the value of a pair added, along the names of its dotted path. -/
def addPair : List String → String → Toml → Members → Option Members
  | [], name, v, ms => change name (fill v) ms
  | k :: ks, name, v, ms =>
    change k (fun
      | none => (addPair ks name v []).map (table .dotted)
      | some (table .dotted below) => (addPair ks name v below).map (table .dotted)
      | some (table .above below) =>
        if ks.isEmpty then none else (addPair ks name v below).map (table .above)
      | some (tables all) => if ks.isEmpty then none else changeLast (addPair ks name v) all
      | some _ => none) ms

/-- The members with a change made to the table that the parents of a header lead to. -/
def under : List String → (Members → Option Members) → Members → Option Members
  | [], f, ms => f ms
  | k :: ks, f, ms =>
    change k (fun
      | none => (under ks f []).map (table .above)
      | some (table .braces _) => none
      | some (table origin below) => (under ks f below).map (table origin)
      | some (tables all) => changeLast (under ks f) all
      | some _ => none) ms

/-- The members with pairs added one after the other. -/
def addPairs (pairs : List (Path × Toml)) (ms : Members) : Option Members :=
  pairs.foldlM (fun ms (p, v) => addPair p.parents p.name v ms) ms

/-- A header and the pairs under it. -/
structure Section where
  path : Path
  /-- Whether the header is in double brackets. -/
  listed : Bool
  pairs : List (Path × Toml)

/-- The members with a section added. -/
def addSection (ms : Members) (s : Section) : Option Members :=
  under s.path.parents (change s.path.name fun
    | none =>
      (addPairs s.pairs []).map fun new => if s.listed then tables [new] else table .header new
    | some (table .above below) =>
      if s.listed then none else (addPairs s.pairs below).map (table .header)
    | some (tables all) =>
      if s.listed then (addPairs s.pairs []).map fun new => tables (all ++ [new]) else none
    | some _ => none) ms

/-- The document of the pairs before any header and the sections after them. -/
def assemble (pairs : List (Path × Toml)) (sections : List Section) : Option Toml := do
  let ms ← sections.foldlM addSection (← addPairs pairs [])
  return table .header ms

end Toml

end TeamAccess
