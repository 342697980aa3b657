import TeamAccess.Text.Double
import TeamAccess.Text.Piece
import TeamAccess.Timestamp.Basic
import TeamAccess.Toml.Basic

/-!
# Numbers, truth values and times in TOML

A scalar that is not quoted is one word. Digits may be grouped by single underscores. Integers
have 64 bits; in base ten they may have a sign but no leading zero, and in the bases sixteen,
eight and two, which a letter after a zero announces, neither sign nor limit on zeros. A float has
a fraction or an exponent and must not be so large that it would become positive infinity. Times
are a date, a time of day, or both, then with an offset or without.
-/

namespace TeamAccess.Toml

/-! ## Numbers -/

/-- The digits of a word in which single underscores may stand between digits. -/
def grouped? (isDigit : Char → Bool) : List Char → Option (List Char)
  | [] => none
  | [c] => if isDigit c then some [c] else none
  | c :: '_' :: cs => if isDigit c then (grouped? isDigit cs).map (c :: ·) else none
  | c :: cs => if isDigit c then (grouped? isDigit cs).map (c :: ·) else none

/-- The number of digits in a base. -/
def inBase? (base : Nat) (cs : List Char) : Option Toml := do
  let isDigit (c : Char) : Bool := (Decimal.hexDigit? c).any (· < base)
  let n := (← grouped? isDigit cs).foldl (fun n c => n * base + (Decimal.hexDigit? c).getD 0) 0
  int <$> Decimal.int64? n

/-- The digits of a whole number in base ten, without leading zeros. -/
def whole? (cs : List Char) : Option (List Char) :=
  match grouped? Char.isDigit cs with
  | some ('0' :: _ :: _) => none
  | ds => ds

/-- A word without its sign, and whether the sign is a minus. -/
def unsigned : List Char → Bool × List Char
  | '-' :: cs => (true, cs)
  | '+' :: cs => (false, cs)
  | cs => (false, cs)

/-- A whole number with an optional sign. -/
def integer? (cs : List Char) : Option Toml := do
  let (negative, cs) := unsigned cs
  let n := Decimal.value (← whole? cs)
  int <$> Decimal.int64? (if negative then -n else n)

/-- The power of ten that an exponent with its letter names; none is zero. -/
def power? : List Char → Option Int
  | [] => some 0
  | _ :: cs =>
    let (negative, cs) := unsigned cs
    (grouped? Char.isDigit cs).map fun ds =>
      if negative then -(Decimal.value ds : Int) else Decimal.value ds

/-- Whether a letter begins an exponent. -/
def isPower (c : Char) : Bool := c = 'e' || c = 'E'

/-- A number with a fraction or an exponent. -/
def float? (cs : List Char) : Option Toml := do
  let (negative, cs) := unsigned cs
  let mantissa := cs.takeWhile (!isPower ·)
  let exponent := cs.dropWhile (!isPower ·)
  let whole ← whole? (mantissa.takeWhile (· != '.'))
  let fraction ←
    match mantissa.dropWhile (· != '.') with
    | [] => if exponent.isEmpty then none else some []
    | _ :: ds => grouped? Char.isDigit ds
  let power ← power? exponent
  if !negative && Double.isBeyond (Decimal.value (whole ++ fraction))
      (power - fraction.length) then none
  else some float

/-- An infinity or no number at all, with an optional sign. -/
def special? (cs : List Char) : Option Toml :=
  if ["inf".toList, "nan".toList].contains (unsigned cs).2 then some float else none

/-- A number of any form. -/
def number? : List Char → Option Toml
  | '0' :: 'x' :: cs => inBase? 16 cs
  | '0' :: 'o' :: cs => inBase? 8 cs
  | '0' :: 'b' :: cs => inBase? 2 cs
  | cs => integer? cs <|> float? cs <|> special? cs

/-! ## Times -/

/-- A number of two digits within bounds. -/
def pair (least most : Nat) : Piece Nat := fun cs => do
  let (n, cs) ← Piece.number 2 2 cs
  if least ≤ n ∧ n ≤ most then some (n, cs) else none

/-- A day of the calendar. -/
def date : Piece Unit := fun cs => do
  let (year, cs) ← Piece.number 4 4 cs
  let ((), cs) ← Piece.char '-' cs
  let (month, cs) ← pair 1 12 cs
  let ((), cs) ← Piece.char '-' cs
  let (_, cs) ← pair 1 (Civil.daysIn year month) cs
  some ((), cs)

/-- The fraction of a second, if there is a point. -/
def secondFraction : Piece Unit
  | '.' :: cs =>
    match cs.takeWhile Char.isDigit with
    | [] => none
    | _ => some ((), cs.dropWhile Char.isDigit)
  | cs => some ((), cs)

/-- A time of day, which may be in a leap second. -/
def timeOfDay : Piece Unit := fun cs => do
  let (_, cs) ← pair 0 23 cs
  let ((), cs) ← Piece.char ':' cs
  let (_, cs) ← pair 0 59 cs
  let ((), cs) ← Piece.char ':' cs
  let (_, cs) ← pair 0 60 cs
  secondFraction cs

/-- Nothing, the letter Z, or a sign with hours and minutes. -/
def offset : Piece Unit
  | [] => some ((), [])
  | c :: cs =>
    if c = 'Z' ∨ c = 'z' then some ((), cs)
    else if c = '+' ∨ c = '-' then do
      let (_, cs) ← pair 0 23 cs
      let ((), cs) ← Piece.char ':' cs
      let (_, cs) ← pair 0 59 cs
      some ((), cs)
    else none

/-- Whether pieces make up a whole word. -/
def isWhole (r : Option (Unit × List Char)) : Bool := r.any fun (_, rest) => rest.isEmpty

/-- A date, a time of day, or a date with a time of day and maybe an offset. -/
def time? (cs : List Char) : Option Toml :=
  let full := do
    let ((), cs) ← date cs
    let (_, cs) ← Piece.oneOf ['T', 't', ' '] cs
    let ((), cs) ← timeOfDay cs
    offset cs
  if isWhole (date cs) || isWhole (timeOfDay cs) || isWhole full then some time else none

/-! ## Words -/

/-- The value of a word. -/
def word? (cs : List Char) : Option Toml :=
  if cs = "true".toList then some (bool true)
  else if cs = "false".toList then some (bool false)
  else time? cs <|> number? cs

/-- Whether a character can be part of a word. -/
def isWordChar (c : Char) : Bool :=
  c.isAlphanum || c = '_' || c = '-' || c = '+' || c = '.' || c = ':'

/-- The word at the beginning of a text and what follows it; a date and a time of day with a
blank between them are one word. -/
def splitWord (cs : List Char) : List Char × List Char :=
  let first := cs.takeWhile isWordChar
  let rest := cs.dropWhile isWordChar
  match rest with
  | ' ' :: d :: _ =>
    if isWhole (date first) && d.isDigit then
      let second := rest.drop 1
      (first ++ ' ' :: second.takeWhile isWordChar, second.dropWhile isWordChar)
    else (first, rest)
  | _ => (first, rest)

/-- A word as a value. -/
def word : Piece Toml := fun cs =>
  let (w, rest) := splitWord cs
  (word? w).map fun v => (v, rest)

end TeamAccess.Toml
