import TeamAccess.Toml.Quoted
import TeamAccess.Toml.Scalar

/-!
# TOML documents

`ofText?` reads a document of TOML 1.0. Line breaks are line feeds with or without a carriage
return before them; no other control character but the tab may occur. Every pair and header has
a line of its own, where blanks may stand between the parts and a comment at the end. Arrays may
be spread over lines with comments and may end in a comma; tables in braces may do neither.

Arrays and tables in braces nest less than `depthLimit` deep, and dotted paths have fewer names.
-/

namespace TeamAccess.Toml

/-- How many levels of nesting, and how many names in a path, are too many. -/
def depthLimit : Nat := 80

/-! ## Characters -/

/-- Whether a character may occur other than as a line break. -/
def isAllowed (c : Char) : Bool := c = '\t' || (32 ≤ c.toNat && c.toNat != 127)

/-- The text with line feeds for line breaks, unless it has a character that may not occur. -/
def unixLines? : List Char → Option (List Char)
  | [] => some []
  | '\r' :: '\n' :: cs => (unixLines? cs).map ('\n' :: ·)
  | c :: cs => if c = '\n' ∨ isAllowed c then (unixLines? cs).map (c :: ·) else none

/-- The text without a byte order mark at its beginning. -/
def dropMark : List Char → List Char
  | c :: cs => if c.toNat = 0xFEFF then cs else c :: cs
  | [] => []

/-- Whether a character is a blank within a line. -/
def isBlank (c : Char) : Bool := c = ' ' || c = '\t'

/-- The text without blanks at its beginning. -/
def skipBlank (cs : List Char) : List Char := cs.dropWhile isBlank

/-- The text without blanks, line breaks and comments at its beginning. -/
def skipLines (inComment : Bool) : List Char → List Char
  | [] => []
  | c :: cs =>
    if inComment then skipLines (c != '\n') cs
    else if isBlank c || c = '\n' then skipLines false cs
    else if c = '#' then skipLines true cs
    else c :: cs

/-- The text after the end of a line that may hold a comment but nothing else. -/
def lineEnd? (cs : List Char) : Option (List Char) :=
  match skipBlank cs with
  | [] => some []
  | '\n' :: cs => some cs
  | '#' :: cs => some ((cs.dropWhile (· != '\n')).drop 1)
  | _ => none

/-! ## Paths -/

/-- Whether a character may stand in a name without quotes. -/
def isNameChar (c : Char) : Bool := c.isAlphanum || c = '_' || c = '-'

/-- A name, with or without quotes. -/
def name : Piece String
  | '"' :: cs => short '"' cs
  | '\'' :: cs => short '\'' cs
  | cs =>
    match cs.takeWhile isNameChar with
    | [] => none
    | n => some (String.ofList n, cs.dropWhile isNameChar)

/-- The names of a path, at most so many, with points between them and blanks around them. -/
def names : Nat → Piece (List String)
  | 0, _ => none
  | most + 1, cs => do
    let (n, cs) ← name (skipBlank cs)
    match skipBlank cs with
    | '.' :: cs =>
      let (ns, cs) ← names most cs
      return (n :: ns, cs)
    | cs => return ([n], cs)

/-- A dotted path. -/
def path : Piece Path := fun cs => do
  let (ns, cs) ← names (depthLimit - 1) cs
  return (⟨ns.dropLast, ← ns.getLast?⟩, cs)

/-! ## Values -/

mutual

/-- A value, with no more levels of nesting than the depth. -/
def value (fuel depth : Nat) (cs : List Char) : Option (Toml × List Char) :=
  match fuel with
  | 0 => none
  | fuel + 1 =>
    match cs with
    | '"' :: cs => (quoted '"' cs).map fun (s, rest) => (str s, rest)
    | '\'' :: cs => (quoted '\'' cs).map fun (s, rest) => (str s, rest)
    | '[' :: cs => do
      if depth = 0 then none
      let (vs, rest) ← items fuel (depth - 1) cs
      return (array vs, rest)
    | '\x7b' :: cs => do
      if depth = 0 then none
      match skipBlank cs with
      | '\x7d' :: rest => return (table .braces [], rest)
      | cs =>
        let (ps, rest) ← pairs fuel (depth - 1) cs
        return (table .braces (← addPairs ps []), rest)
    | cs => word cs

/-- The items of an array from here on, and the text after its bracket. -/
def items (fuel depth : Nat) (cs : List Char) : Option (List Toml × List Char) :=
  match fuel with
  | 0 => none
  | fuel + 1 =>
    match skipLines false cs with
    | ']' :: rest => some ([], rest)
    | cs => do
      let (v, rest) ← value fuel depth cs
      match skipLines false rest with
      | ',' :: rest =>
        let (vs, rest) ← items fuel depth rest
        return (v :: vs, rest)
      | ']' :: rest => return ([v], rest)
      | _ => none

/-- The pairs of a table in braces from here on, and the text after its brace. -/
def pairs (fuel depth : Nat) (cs : List Char) : Option (List (Path × Toml) × List Char) :=
  match fuel with
  | 0 => none
  | fuel + 1 => do
    let (p, rest) ← path cs
    let ((), rest) ← Piece.char '=' rest
    let (v, rest) ← value fuel depth (skipBlank rest)
    match skipBlank rest with
    | ',' :: rest =>
      let (ps, rest) ← pairs fuel depth rest
      return ((p, v) :: ps, rest)
    | '\x7d' :: rest => return ([(p, v)], rest)
    | _ => none

end

/-- A pair of a path and a value. Every second step takes a character, so the fuel lasts. -/
def pair? (cs : List Char) : Option ((Path × Toml) × List Char) := do
  let (p, rest) ← path cs
  let ((), rest) ← Piece.char '=' rest
  let (v, rest) ← value (2 * rest.length + 2) (depthLimit - 1) (skipBlank rest)
  return ((p, v), rest)

/-! ## Lines -/

/-- A header's path and whether it is in double brackets, with its first bracket read. -/
def header? : Piece (Path × Bool)
  | '[' :: cs => do
    let (p, cs) ← path cs
    let cs ← Piece.after? [']', ']'] cs
    return ((p, true), cs)
  | cs => do
    let (p, cs) ← path cs
    let ((), cs) ← Piece.char ']' cs
    return ((p, false), cs)

/-- The pairs before the first header, and the sections. Every step takes a character or ends,
so fuel beyond the length of the text is not used. -/
def lines : Nat → List Char → Option (List (Path × Toml) × List Section)
  | 0, _ => none
  | fuel + 1, cs =>
    match skipLines false cs with
    | [] => some ([], [])
    | '[' :: cs => do
      let ((p, listed), cs) ← header? cs
      let (ps, sections) ← lines fuel (← lineEnd? cs)
      return ([], ⟨p, listed, ps⟩ :: sections)
    | cs => do
      let (pair, cs) ← pair? cs
      let (ps, sections) ← lines fuel (← lineEnd? cs)
      return (pair :: ps, sections)

/-- The document of a text. -/
def ofText? (text : String) : Option Toml := do
  let cs ← unixLines? (dropMark text.toList)
  let (ps, sections) ← lines (cs.length + 1) cs
  assemble ps sections

end TeamAccess.Toml
