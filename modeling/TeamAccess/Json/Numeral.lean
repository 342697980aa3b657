import TeamAccess.Text.Double

/-!
# JSON numerals

A numeral without a fraction and an exponent is an integer, if its digits fit a 64-bit word. Any
other is a double, of which only matters whether it is finite. That double is not always the one
nearest to the numeral: as many leading digits as fit a word make a significand, the digits left
over before the point count as zeros and those after it not at all, and the double nearest to the
significand is multiplied by the double nearest to the power of ten. So a numeral close to the
largest double may be out of range with its digits in one place and within it in another.
-/

namespace TeamAccess

/-- A JSON numeral, as far as its readers tell numerals apart. -/
inductive Numeral where
  /-- A plain integer other than minus zero. -/
  | int (n : Int)
  /-- A numeral with a fraction, an exponent or a negative zero. -/
  | real
  /-- A numeral out of the range of doubles. -/
  | huge
  deriving DecidableEq

namespace Numeral

/-- A significand with digits appended as long as it fits a 64-bit word, and the digits left. -/
def absorb (significand : Nat) : List Char → Nat × List Char
  | [] => (significand, [])
  | d :: ds =>
    let longer := Nat.ofDigitChars 10 [d] significand
    if longer < Nat.pow 2 64 then absorb longer ds else (significand, d :: ds)

/-- Whether a significand times a power of ten is infinite; a power below one makes none so. -/
def tooLarge (significand : Nat) (power : Int) : Bool :=
  power ≥ 0 && significand != 0 &&
    (Double.nearest significand 0 * Double.nearest 1 power).isInf

/-- What a numeral denotes: its sign, its digits before and after the point, its exponent. -/
def denoted (negative : Bool) (whole frac : List Char) (power : Option Int) : Numeral :=
  let (n, zeros) := absorb 0 whole
  if zeros.isEmpty && frac.isEmpty && power.isNone then
    if !negative then .int n else if n = 0 then .real else .int (-n)
  else
    let (significand, ignored) := absorb n frac
    let places : Int := frac.length - ignored.length
    if tooLarge significand (power.getD 0 + zeros.length - places) then .huge else .real

/-- The digits after a decimal point, if there is one. -/
def fraction : List Char → Option (List Char × List Char)
  | '.' :: rest =>
    match rest.takeWhile Char.isDigit with
    | [] => none
    | ds => some (ds, rest.dropWhile Char.isDigit)
  | rest => some ([], rest)

/-- A numeral without its sign, and the text after it. -/
def unsigned (negative : Bool) (cs : List Char) : Option (Numeral × List Char) :=
  match cs.takeWhile Char.isDigit with
  | [] => none
  | '0' :: _ :: _ => none
  | whole => do
    let (frac, rest) ← fraction (cs.dropWhile Char.isDigit)
    let (power, rest) ← Decimal.exponent rest
    some (denoted negative whole frac power, rest)

/-- A numeral and the text after it. -/
def read : List Char → Option (Numeral × List Char)
  | '-' :: cs => unsigned true cs
  | cs => unsigned false cs

end Numeral

end TeamAccess
