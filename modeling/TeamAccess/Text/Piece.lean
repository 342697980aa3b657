import TeamAccess.Text.Decimal

/-!
# Pieces — readers of the beginning of a text

A piece reads something at the beginning of a text and gives it with the text that follows, or
reads nothing at all. Formats with a fixed layout (times, addresses, settings) are read as
successive pieces.
-/

namespace TeamAccess

/-- A reader of a piece of text, which gives what it read and the text after it. -/
abbrev Piece (α : Type) := List Char → Option (α × List Char)

namespace Piece

/-- The given character. -/
def char (c : Char) : Piece Unit
  | d :: cs => if c = d then some ((), cs) else none
  | [] => none

/-- One of the given characters. -/
def oneOf (choice : List Char) : Piece Char
  | d :: cs => if choice.contains d then some (d, cs) else none
  | [] => none

/-- A decimal number of at least and at most so many digits. -/
def number (least most : Nat) : Piece Nat := fun cs =>
  let ds := (cs.take most).takeWhile Char.isDigit
  if ds.length < least then none else some (Decimal.value ds, cs.drop ds.length)

/-- The rest of a text that begins with the given one. -/
def after? : List Char → List Char → Option (List Char)
  | [], cs => some cs
  | w :: ws, c :: cs => if w = c then after? ws cs else none
  | _, [] => none

/-- A piece or nothing. -/
def optional (p : Piece α) : Piece (Option α) := fun cs =>
  match p cs with
  | some (a, rest) => some (some a, rest)
  | none => some (none, cs)

end Piece

end TeamAccess
