import TeamAccess.Text.Decimal

/-!
# Doubles that numerals stand for

A numeral with a point or an exponent stands for the double nearest to it, which is infinite where
none is near. `nearest` gives that double, and `integer?` the integer that a double is, read off
its bits.
-/

namespace TeamAccess.Double

/-- A number of decimal places that no finite double has: neither so many before the point nor so
many zeros after it. -/
def places : Int := 400

/-- The double nearest to a number of digits times a power of ten. -/
def nearest (digits : Nat) (power : Int) : Float :=
  let size := power + (Decimal.ofNat digits).length
  if digits = 0 ∨ size < -places then 0
  else if size > places then Float.ofScientific 1 false places.toNat
  else Float.ofScientific digits (power < 0) power.natAbs

/-- Whether no double is near to a number of digits times a power of ten. -/
def isBeyond (digits : Nat) (power : Int) : Bool := (nearest digits power).isInf

/-- The integer that the double with some bits is, if it is one. The bits are a sign, eleven of the
power of two, and fifty-two of the digits after a leading one. -/
def integer? (bits : UInt64) : Option Int :=
  let sign : Int := if bits.toNat < Nat.pow 2 63 then 1 else -1
  let power := bits.toNat / Nat.pow 2 52 % Nat.pow 2 11
  let digits := Nat.pow 2 52 + bits.toNat % Nat.pow 2 52
  let unit := Nat.pow 2 (1075 - power)
  if bits.toNat % Nat.pow 2 63 = 0 then some 0
  else if power = 2047 then none
  else if power ≥ 1075 then some (sign * (digits * Nat.pow 2 (power - 1075) : Nat))
  else if digits % unit = 0 then some (sign * (digits / unit : Nat))
  else none

end TeamAccess.Double
