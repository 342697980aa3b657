/-!
# Decimal text of integers

Integers are written in base ten with a leading minus sign where negative, and no other sign or
padding. Two readers go with it: `digits?` for an unsigned run of digits, and `readInt64?` for the
ids of request paths and arguments, which also admits a plus sign and leading zeros but nothing
outside the signed 64-bit range. The parts of other numerals are read by `exponent` and
`hexDigit?`.
-/

namespace TeamAccess.Decimal

/-- The decimal digits of a natural number. -/
def ofNat (n : Nat) : List Char := Nat.toDigits 10 n

/-- The decimal text of an integer. -/
def ofInt : Int → List Char
  | .ofNat n => ofNat n
  | .negSucc n => '-' :: ofNat (n + 1)

/-- The decimal text of a 64-bit integer. -/
def ofInt64 (n : Int64) : List Char := ofInt n.toInt

/-- The decimal text of a 64-bit integer, as a string. -/
def text (n : Int64) : String := String.ofList (ofInt64 n)

/-- The number with the given digits. -/
def value (ds : List Char) : Nat := Nat.ofDigitChars 10 ds 0

/-- The number that a nonempty run of ASCII digits denotes. -/
def digits? (cs : List Char) : Option Nat :=
  if cs.isEmpty || cs.any (!·.isDigit) then none else some (value cs)

/-- The 64-bit integer of an integer in range. -/
def int64? (n : Int) : Option Int64 :=
  if -9223372036854775808 ≤ n ∧ n ≤ 9223372036854775807 then some (Int64.ofInt n) else none

/-- A 64-bit integer with an optional sign and leading zeros allowed. -/
def readInt64? : List Char → Option Int64
  | '-' :: ds => (digits? ds).bind fun n => int64? (-n)
  | '+' :: ds => (digits? ds).bind fun n => int64? n
  | ds => (digits? ds).bind fun n => int64? n

/-- The exponent at the beginning of a text, if there is one, and the text after it. -/
def exponent (cs : List Char) : Option (Option Int × List Char) :=
  let digits (sign : Int) (rest : List Char) :=
    match rest.takeWhile Char.isDigit with
    | [] => none
    | ds => some (some (sign * value ds), rest.dropWhile Char.isDigit)
  match cs with
  | e :: rest =>
    if e = 'e' ∨ e = 'E' then
      match rest with
      | '+' :: rest => digits 1 rest
      | '-' :: rest => digits (-1) rest
      | rest => digits 1 rest
    else some (none, cs)
  | [] => some (none, [])

/-- The number in lower-case hexadecimal, without padding. -/
def hex (n : Nat) : List Char := Nat.toDigits 16 n

/-- The value of a hexadecimal digit of either case. -/
def hexDigit? (c : Char) : Option Nat :=
  if c.isDigit then some (c.toNat - '0'.toNat)
  else if 'a' ≤ c ∧ c ≤ 'f' then some (c.toNat - 'a'.toNat + 10)
  else if 'A' ≤ c ∧ c ≤ 'F' then some (c.toNat - 'A'.toNat + 10)
  else none

end TeamAccess.Decimal
