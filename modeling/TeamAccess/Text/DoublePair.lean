import TeamAccess.Text.Double

/-!
# Pairs of doubles — products that keep what rounding takes

A number is kept as the sum of a double and a smaller one, which is what the first leaves of it.
A product of two such pairs is close enough that its sum is mostly the double nearest to the exact
product.

`ofNumeral` reads numerals by such products. Digits count as far as 64 bits have room for them, and
the power of ten that goes with them is multiplied on in steps of a hundred, ten and one. The
double of a numeral that is read so is near, and where the digits have room and no power is left
over, it is the nearest.
-/

namespace TeamAccess

/-- A number as the sum of a double and a much smaller one. -/
structure DoublePair where
  high : Float
  low : Float

namespace DoublePair

/-! ## Products -/

/-- The double with the lower half of its digits cut off. -/
def upper (x : Float) : Float := Float.ofBits (x.toBits &&& 0xfffffffffc000000)

/-- The product. The halves of the doubles' digits are multiplied one by one: those products are
exact, so they show what rounding takes from the product of the doubles. -/
def times (x y : DoublePair) : DoublePair :=
  let a := upper x.high
  let b := x.high - a
  let c := upper y.high
  let d := y.high - c
  let outer := a * c
  let inner := a * d + b * c
  let sum := outer + inner
  let rest := x.high * y.low + x.low * y.high + (outer - sum + inner + b * d)
  let high := sum + rest
  ⟨high, sum - high + rest⟩

/-- The product with a power of a pair. -/
def timesPower (x y : DoublePair) (n : Nat) : DoublePair := Nat.repeat (fun x => x.times y) n x

/-- The double nearest to the sum. What is too large to be a number is infinite. -/
def value (x : DoublePair) : Float :=
  let sum := x.high + x.low
  if sum.isNaN then 1 / 0 else sum

/-- The product with a power of ten, in steps of a hundred, ten and one places. -/
def shifted (x : DoublePair) (power : Int) : DoublePair :=
  let (hundred, ten, one) : DoublePair × DoublePair × DoublePair :=
    if power < 0 then
      (⟨1.0e-100, -1.99918998026028836196e-117⟩, ⟨1.0e-10, -3.6432197315497741579e-27⟩,
        ⟨1.0e-1, -5.5511151231257827021e-18⟩)
    else (⟨1.0e100, -1.5902891109759918046e83⟩, ⟨1.0e10, 0⟩, ⟨1.0e1, 0⟩)
  let n := power.natAbs
  ((x.timesPower hundred (n / 100)).timesPower ten (n % 100 / 10)).timesPower one (n % 10)

/-! ## Numerals -/

/-- A number of digits that 64 bits have room for. -/
def ofNat (n : Nat) : DoublePair :=
  let high := Double.nearest n 0
  match Double.integer? high.toBits with
  | none => ⟨high, 0⟩
  | some m =>
    if m < Nat.pow 2 64 then
      let rest := Double.nearest (n - m).natAbs 0
      ⟨high, if m ≤ n then rest else -rest⟩
    else ⟨high, 0⟩

/-- Digits appended to a number as long as 64 bits have room for any, and how many are left. -/
def append (n : Nat) : List Char → Nat × Nat
  | [] => (n, 0)
  | d :: ds =>
    if n < (Nat.pow 2 64 - 10) / 10 then append (Nat.ofDigitChars 10 [d] n) ds
    else (n, ds.length + 1)

/-- Zeros appended for a power of ten as long as there is room, and the power that is left. -/
def widened (n : Nat) : Nat → Nat × Nat
  | 0 => (n, 0)
  | power + 1 =>
    if n < (Nat.pow 2 64 - 2048) / 10 then widened (n * 10) power else (n, power + 1)

/-- Last zeros cut off for a power of a tenth as long as there are any, and the power that is
left. -/
def narrowed (n : Nat) : Nat → Nat × Nat
  | 0 => (n, 0)
  | power + 1 => if n % 10 = 0 then narrowed (n / 10) power else (n, power + 1)

/-- A number of digits times a power of ten. -/
def ofDigits (n : Nat) (power : Int) : DoublePair :=
  if n = 0 then ⟨0, 0⟩
  else
    match power with
    | .ofNat e =>
      let (n, e) := widened n e
      (ofNat n).shifted e
    | .negSucc e =>
      let (n, e) := narrowed n (e + 1)
      (ofNat n).shifted (-e)

/-- The number of digits before and after a point, times a power of ten. -/
def ofNumeral (whole fraction : List Char) (power : Int) : DoublePair :=
  let (n, more) := append 0 whole
  let (n, rest) := append n fraction
  ofDigits n (power + more - (fraction.length - rest : Nat))

end DoublePair

end TeamAccess
