import TeamAccess.Text.Blank
import TeamAccess.Text.Piece
import TeamAccess.Timestamp.Basic

/-!
# Reading timestamps

Three forms are read. `ofStrict?` is RFC 3339 with fields of fixed width. `ofText?`, for texts
that come from outside, is looser: fields may have fewer digits, blanks may surround them, the
year may have a sign and more digits, and the offset may be the letters UTC or have a blank for
its colon. `ofPlain?` is a date and a time of day without an offset, taken as universal time.
A time with an offset is converted to universal time.
-/

namespace TeamAccess.Timestamp

open Piece

/-- The letter or blank between a date and a time of day. -/
def separator : Piece Unit
  | c :: cs => if c = 'T' ∨ c = 't' ∨ c = ' ' then some ((), cs) else none
  | [] => none

/-- The fraction after a point as nanoseconds, digits past the ninth ignored; none is zero. -/
def fraction : Piece Nat
  | '.' :: cs =>
    match cs.takeWhile Char.isDigit with
    | [] => none
    | ds =>
      let ds := ds.take 9
      some (Decimal.value ds * Nat.pow 10 (9 - ds.length), cs.dropWhile Char.isDigit)
  | cs => some (0, cs)

/-- A two-digit number below sixty. -/
def sixtieth : Piece Nat := fun cs => do
  let (n, cs) ← number 2 2 cs
  if n < 60 then some (n, cs) else none

/-- An offset in minutes east: the letter Z, or a sign, hours, something between, and minutes. -/
def offset (between : List Char → Option (List Char)) : Piece Int := fun cs =>
  let signed (sign : Int) (cs : List Char) : Option (Int × List Char) := do
    let (hours, cs) ← number 2 2 cs
    let cs ← between cs
    let (minutes, cs) ← sixtieth cs
    if hours < 24 then some (sign * (hours * 60 + minutes : Nat), cs) else none
  match cs with
  | 'Z' :: cs => some (0, cs)
  | 'z' :: cs => some (0, cs)
  | '+' :: cs => signed 1 cs
  | '-' :: cs => signed (-1) cs
  | '−' :: cs => signed (-1) cs
  | _ => none

/-- A colon. -/
def colon (cs : List Char) : Option (List Char) := (char ':' cs).map Prod.snd

/-- Any colons and blanks, or none. -/
def colonOrBlank (cs : List Char) : Option (List Char) :=
  some (cs.dropWhile fun c => c = ':' || Text.isBlank c)

/-- The moment of a local time that is so many minutes east of universal time. -/
def ofLocal? (year : Int) (month day hour minute second nanos : Nat) (east : Int) :
    Option Timestamp :=
  let c : Civil :=
    if second = 60 then ⟨year, month, day, hour, minute, 59, nanos + 1000000000⟩
    else ⟨year, month, day, hour, minute, second, nanos⟩
  if c.Valid then ofCivil? (c.shift (-east)) else none

/-- A date and time of RFC 3339 with an offset. -/
def ofStrict? (cs : List Char) : Option Timestamp := do
  let (year, cs) ← number 4 4 cs
  let ((), cs) ← char '-' cs
  let (month, cs) ← number 2 2 cs
  let ((), cs) ← char '-' cs
  let (day, cs) ← number 2 2 cs
  let ((), cs) ← separator cs
  let (hour, cs) ← number 2 2 cs
  let ((), cs) ← char ':' cs
  let (minute, cs) ← number 2 2 cs
  let ((), cs) ← char ':' cs
  let (second, cs) ← number 2 2 cs
  let (nanos, cs) ← fraction cs
  let (east, cs) ← offset colon cs
  if cs.isEmpty then ofLocal? year month day hour minute second nanos east else none

/-- A number of one or two digits after blanks. -/
def loose : Piece Nat := fun cs => number 1 2 (Text.trimStart cs)

/-- A year after blanks: up to four digits, or a sign and any number of digits. -/
def looseYear : Piece Int := fun cs =>
  match Text.trimStart cs with
  | '-' :: cs => (number 1 cs.length cs).map fun (n, cs) => (-(n : Int), cs)
  | '+' :: cs => (number 1 cs.length cs).map fun (n, cs) => ((n : Int), cs)
  | cs => (number 1 4 cs).map fun (n, cs) => ((n : Int), cs)

/-- A character after blanks. -/
def looseChar (c : Char) : Piece Unit := fun cs => char c (Text.trimStart cs)

/-- A date and time with an offset, in the looser form. -/
def ofText? (s : String) : Option Timestamp := do
  let (year, cs) ← looseYear s.toList
  let ((), cs) ← looseChar '-' cs
  let (month, cs) ← loose cs
  let ((), cs) ← looseChar '-' cs
  let (day, cs) ← loose cs
  let ((), cs) ← separator cs
  let (hour, cs) ← loose cs
  let ((), cs) ← looseChar ':' cs
  let (minute, cs) ← loose cs
  let ((), cs) ← looseChar ':' cs
  let (second, cs) ← loose cs
  let (nanos, cs) ← fraction cs
  let cs := Text.trimStart cs
  let (east, cs) ←
    match cs with
    | u :: t :: c :: rest =>
      if [u, t, c].map Char.toUpper = ['U', 'T', 'C'] then some (0, rest)
      else offset colonOrBlank cs
    | _ => offset colonOrBlank cs
  if (Text.trimStart cs).isEmpty then ofLocal? year month day hour minute second nanos east
  else none

/-- A date and a time of day without an offset. -/
def ofPlain? (cs : List Char) : Option Timestamp := do
  let (year, cs) ← looseYear cs
  let ((), cs) ← char '-' cs
  let (month, cs) ← loose cs
  let ((), cs) ← char '-' cs
  let (day, cs) ← loose cs
  let (hour, cs) ← loose cs
  let ((), cs) ← char ':' cs
  let (minute, cs) ← loose cs
  let ((), cs) ← char ':' cs
  let (second, cs) ← loose cs
  if cs.isEmpty then ofLocal? year month day hour minute second 0 0 else none

/-- The moment that the text of a stored row names. -/
def ofRow? (s : String) : Option Timestamp :=
  (ofStrict? s.toList).orElse fun _ => ofPlain? s.toList

end TeamAccess.Timestamp
