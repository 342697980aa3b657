import TeamAccess.Text.Decimal

/-!
# Timestamps — moments of universal time

A moment is kept as the fields of its civil date and time of day in universal time, with
nanoseconds; a leap second is the second 59 with a thousand million nanoseconds or more. The text
is RFC 3339: years outside 0 to 9999 carry a sign, a leap second is written as second 60, and a
fraction has three, six or nine digits, whichever is the shortest that is exact.
-/

namespace TeamAccess

/-- The fields of a date and a time of day. -/
structure Civil where
  year : Int
  month : Nat
  day : Nat
  hour : Nat
  minute : Nat
  second : Nat
  nanos : Nat
  deriving DecidableEq

namespace Civil

/-- Whether a year of the Gregorian calendar has a 29 February. -/
def isLeap (year : Int) : Bool :=
  year % 4 == 0 && (year % 100 != 0 || year % 400 == 0)

/-- How many days a month has; none outside 1 to 12. -/
def daysIn (year : Int) (month : Nat) : Nat :=
  match month with
  | 2 => if isLeap year then 29 else 28
  | 4 | 6 | 9 | 11 => 30
  | 1 | 3 | 5 | 7 | 8 | 10 | 12 => 31
  | _ => 0

/-- The first and the last year that a date may have. -/
def firstYear : Int := -262143

/-- The last year that a date may have. -/
def lastYear : Int := 262142

/-- The fields name a moment. -/
def Valid (c : Civil) : Prop :=
  firstYear ≤ c.year ∧ c.year ≤ lastYear ∧ 1 ≤ c.day ∧ c.day ≤ daysIn c.year c.month ∧
    c.hour < 24 ∧ c.minute < 60 ∧ c.second < 60 ∧
    (c.nanos < 1000000000 ∨ (c.second = 59 ∧ c.nanos < 2000000000))

instance (c : Civil) : Decidable c.Valid := by unfold Valid; infer_instance

/-- The same time on the day after. -/
def nextDay (c : Civil) : Civil :=
  if c.day < daysIn c.year c.month then { c with day := c.day + 1 }
  else if c.month < 12 then { c with month := c.month + 1, day := 1 }
  else { c with year := c.year + 1, month := 1, day := 1 }

/-- The same time on the day before. -/
def previousDay (c : Civil) : Civil :=
  if 1 < c.day then { c with day := c.day - 1 }
  else if 1 < c.month then { c with month := c.month - 1, day := daysIn c.year (c.month - 1) }
  else { c with year := c.year - 1, month := 12, day := 31 }

/-- The time that many minutes later, where the shift is less than a day. -/
def shift (minutes : Int) (c : Civil) : Civil :=
  let total := c.hour * 60 + c.minute + minutes
  let within := (total % 1440).toNat
  let c := { c with hour := within / 60, minute := within % 60 }
  if total < 0 then c.previousDay else if total < 1440 then c else c.nextDay

end Civil

/-- A moment of universal time. -/
structure Timestamp where
  civil : Civil
  valid : civil.Valid
  deriving DecidableEq

namespace Timestamp

/-- The moment with the given fields, if they name one. -/
def ofCivil? (c : Civil) : Option Timestamp :=
  if h : c.Valid then some ⟨c, h⟩ else none

/-- Midnight at the beginning of 1970. -/
def epoch : Timestamp := ⟨⟨1970, 1, 1, 0, 0, 0, 0⟩, by decide⟩

instance : Inhabited Timestamp := ⟨epoch⟩

/-- A number padded with zeros to a width. -/
def padded (width n : Nat) : List Char :=
  let ds := Decimal.ofNat n
  List.replicate (width - ds.length) '0' ++ ds

/-- The year, with a sign where it has not four digits. -/
def yearText (year : Int) : List Char :=
  if 0 ≤ year ∧ year ≤ 9999 then padded 4 year.toNat
  else (if year < 0 then '-' else '+') :: padded 4 year.natAbs

/-- The fraction of a second, in as few groups of three digits as are exact. -/
def fractionText (nanos : Nat) : List Char :=
  if nanos = 0 then []
  else if nanos % 1000000 = 0 then '.' :: padded 3 (nanos / 1000000)
  else if nanos % 1000 = 0 then '.' :: padded 6 (nanos / 1000)
  else '.' :: padded 9 nanos

/-- The date and time of day, with a leap second as second 60. -/
def localText (c : Civil) : List Char :=
  let (second, nanos) :=
    if c.nanos < 1000000000 then (c.second, c.nanos) else (c.second + 1, c.nanos - 1000000000)
  yearText c.year ++ '-' :: padded 2 c.month ++ '-' :: padded 2 c.day ++ 'T' :: padded 2 c.hour ++
    ':' :: padded 2 c.minute ++ ':' :: padded 2 second ++ fractionText nanos

/-- The text that ends in the letter Z, as answers write it. -/
def text (t : Timestamp) : String := String.ofList (localText t.civil ++ ['Z'])

/-- The text that ends in a zero offset, as rows keep it. -/
def rowText (t : Timestamp) : String := String.ofList (localText t.civil ++ "+00:00".toList)

end Timestamp

end TeamAccess
