import TeamAccess.Text.Decimal

/-!
# JSON values and their text

`Json` is what the program writes: numbers are integers, and an object keeps the order of its
members. `compact` writes a value without blanks; `pretty` writes one member or item a line with
two spaces of indentation, and an empty object or array without a line break.
-/

namespace TeamAccess

/-- A JSON value whose numbers are integers and whose objects keep the order of their members. -/
inductive Json where
  | null
  | bool (b : Bool)
  | int (n : Int)
  | str (s : String)
  | arr (items : List Json)
  | obj (members : List (String × Json))

namespace Json

/-- The number of a 64-bit integer. -/
def int64 (n : Int64) : Json := .int n.toInt

/-- The number, or null where there is none. -/
def int64? : Option Int64 → Json
  | none => .null
  | some n => .int64 n

/-- A member that is left out where there is no value. -/
def member? (name : String) (toJson : α → Json) : Option α → List (String × Json)
  | none => []
  | some a => [(name, toJson a)]

/-- A character inside a quoted text: quotes, backslashes and control characters are escaped. -/
def escape (c : Char) : List Char :=
  if c = '"' then ['\\', '"']
  else if c = '\\' then ['\\', '\\']
  else if c = '\n' then ['\\', 'n']
  else if c = '\r' then ['\\', 'r']
  else if c = '\t' then ['\\', 't']
  else if c = Char.ofNat 8 then ['\\', 'b']
  else if c = Char.ofNat 12 then ['\\', 'f']
  else if c.toNat < 16 then ['\\', 'u', '0', '0', '0'] ++ Decimal.hex c.toNat
  else if c.toNat < 32 then ['\\', 'u', '0', '0'] ++ Decimal.hex c.toNat
  else [c]

/-- A quoted text. -/
def quote (s : String) : List Char := '"' :: s.toList.flatMap escape ++ ['"']

/-- Pieces joined by a separator. -/
def join (sep : List Char) : List (List Char) → List Char
  | [] => []
  | [x] => x
  | x :: xs => x ++ sep ++ join sep xs

mutual

/-- The text without blanks. -/
def compact : Json → List Char
  | .null => "null".toList
  | .bool true => "true".toList
  | .bool false => "false".toList
  | .int n => Decimal.ofInt n
  | .str s => quote s
  | .arr items => '[' :: join [','] (compactItems items) ++ [']']
  | .obj members => '{' :: join [','] (compactMembers members) ++ ['}']

/-- The texts of the items of an array. -/
def compactItems : List Json → List (List Char)
  | [] => []
  | v :: vs => compact v :: compactItems vs

/-- The texts of the members of an object. -/
def compactMembers : List (String × Json) → List (List Char)
  | [] => []
  | (k, v) :: vs => (quote k ++ ':' :: compact v) :: compactMembers vs

end

/-- A line break and the indentation of a depth. -/
def indent (depth : Nat) : List Char := '\n' :: List.replicate (2 * depth) ' '

/-- Lines one level deeper than the bracket that encloses them; none leave the brackets adjacent. -/
def block (depth : Nat) (opening closing : Char) : List (List Char) → List Char
  | [] => [opening, closing]
  | lines =>
    opening :: indent (depth + 1) ++ join (',' :: indent (depth + 1)) lines ++ indent depth ++
      [closing]

mutual

/-- The text with a line for each item and member, inside a value at the given depth. -/
def prettyAt (depth : Nat) : Json → List Char
  | .arr items => block depth '[' ']' (prettyItems (depth + 1) items)
  | .obj members => block depth '{' '}' (prettyMembers (depth + 1) members)
  | .null => "null".toList
  | .bool true => "true".toList
  | .bool false => "false".toList
  | .int n => Decimal.ofInt n
  | .str s => quote s

/-- The texts of the items of an array. -/
def prettyItems (depth : Nat) : List Json → List (List Char)
  | [] => []
  | v :: vs => prettyAt depth v :: prettyItems depth vs

/-- The texts of the members of an object. -/
def prettyMembers (depth : Nat) : List (String × Json) → List (List Char)
  | [] => []
  | (k, v) :: vs => (quote k ++ ':' :: ' ' :: prettyAt depth v) :: prettyMembers depth vs

end

/-- The text with two spaces of indentation a level. -/
def pretty (v : Json) : List Char := prettyAt 0 v

end Json

end TeamAccess
