import TeamAccess.Text.Piece

/-!
# Socket addresses

An address of version 4 or 6 with a port. The text of a version 6 address is in brackets and
canonical: groups in lower-case hexadecimal without padding, the longest run of two or more zero
groups replaced by two colons (the first of equally long ones), and an address that stands for one
of version 4 with that one's dotted text at its end. A zone, if not zero, follows a percent sign.

`ofText?` reads such texts and, for version 6, every other spelling of the groups; numbers in
dotted addresses have no leading zeros.
-/

namespace TeamAccess

/-- An address of version 4. -/
structure Ip4 where
  a : UInt8
  b : UInt8
  c : UInt8
  d : UInt8
  deriving DecidableEq

/-- An address and a port. -/
inductive SocketAddress where
  | v4 (host : Ip4) (port : UInt16)
  | v6 (groups : Vector UInt16 8) (zone : UInt32) (port : UInt16)
  deriving DecidableEq

namespace Ip4

/-- The dotted text. -/
def text (x : Ip4) : List Char :=
  Decimal.ofNat x.a.toNat ++ '.' :: Decimal.ofNat x.b.toNat ++ '.' :: Decimal.ofNat x.c.toNat ++
    '.' :: Decimal.ofNat x.d.toNat

/-- The two groups of a version 6 address that the address makes up. -/
def groups (x : Ip4) : List UInt16 :=
  [x.a.toUInt16 * 256 + x.b.toUInt16, x.c.toUInt16 * 256 + x.d.toUInt16]

/-- The address that two groups make up. -/
def ofGroups (g h : UInt16) : Ip4 := ⟨(g / 256).toUInt8, g.toUInt8, (h / 256).toUInt8, h.toUInt8⟩

end Ip4

namespace SocketAddress

/-! ## Text -/

/-- Groups in hexadecimal with colons between them. -/
def groupsText : List UInt16 → List Char
  | [] => []
  | [g] => Decimal.hex g.toNat
  | g :: gs => Decimal.hex g.toNat ++ ':' :: groupsText gs

/-- The first of the longest runs of zeros, as the groups before it and its length. -/
def longestZeros : List UInt16 → Nat × Nat
  | [] => (0, 0)
  | g :: gs =>
    let here := ((g :: gs).takeWhile (· = 0)).length
    let (start, length) := longestZeros gs
    if here ≠ 0 ∧ length ≤ here then (0, here) else (start + 1, length)

/-- The canonical text of the groups of a version 6 address. -/
def hostText (gs : List UInt16) : List Char :=
  match gs with
  | [0, 0, 0, 0, 0, 0xFFFF, g, h] => "::ffff:".toList ++ (Ip4.ofGroups g h).text
  | gs =>
    let (start, length) := longestZeros gs
    if 1 < length then
      groupsText (gs.take start) ++ ':' :: ':' :: groupsText (gs.drop (start + length))
    else groupsText gs

/-- The canonical text. -/
def text : SocketAddress → String
  | v4 host port => String.ofList (host.text ++ ':' :: Decimal.ofNat port.toNat)
  | v6 gs zone port =>
    String.ofList ('[' :: hostText gs.toList ++
      (if zone = 0 then [] else '%' :: Decimal.ofNat zone.toNat) ++
      ']' :: ':' :: Decimal.ofNat port.toNat)

/-! ## Reading -/

/-- A number of one to three digits below 256, without a leading zero. -/
def octet : Piece UInt8 := fun cs =>
  match cs.takeWhile Char.isDigit with
  | [] => none
  | '0' :: _ :: _ => none
  | ds =>
    let n := Decimal.value ds
    if n < 256 then some (UInt8.ofNat n, cs.dropWhile Char.isDigit) else none

/-- A dotted address. -/
def dotted : Piece Ip4 := fun cs => do
  let (a, cs) ← octet cs
  let ((), cs) ← Piece.char '.' cs
  let (b, cs) ← octet cs
  let ((), cs) ← Piece.char '.' cs
  let (c, cs) ← octet cs
  let ((), cs) ← Piece.char '.' cs
  let (d, cs) ← octet cs
  return (⟨a, b, c, d⟩, cs)

/-- Whether a character is a hexadecimal digit. -/
def isHex (c : Char) : Bool := (Decimal.hexDigit? c).isSome

/-- A group: one to four hexadecimal digits. -/
def group : Piece UInt16 := fun cs =>
  let ds := cs.takeWhile isHex
  if ds.isEmpty || 4 < ds.length then none
  else
    let n := ds.foldl (fun n c => n * 16 + (Decimal.hexDigit? c).getD 0) 0
    some (UInt16.ofNat n, cs.dropWhile isHex)

/-- At most so many groups with colons between them, as many as there are, and whether the last
two are written as a dotted address; a separator stands before the first one too, unless it is at
the beginning. -/
def groups : Nat → Bool → List Char → List UInt16 × Bool × List Char
  | 0, _, cs => ([], false, cs)
  | most + 1, beginning, cs =>
    let start := if beginning then some cs else (Piece.char ':' cs).map Prod.snd
    match if most = 0 then none else start.bind dotted with
    | some (x, rest) => (x.groups, true, rest)
    | none =>
      match start.bind group with
      | none => ([], false, cs)
      | some (g, rest) =>
        let (gs, isDotted, rest) := groups most false rest
        (g :: gs, isDotted, rest)

/-- The eight groups of a version 6 address: all of them, or those before and after two colons
that stand for at least one zero group. -/
def host6 : Piece (Vector UInt16 8) := fun cs => do
  let (front, isDotted, cs) := groups 8 true cs
  if h : front.length = 8 then return (⟨front.toArray, by simpa using h⟩, cs)
  else if isDotted then none
  else do
    let cs ← Piece.after? [':', ':'] cs
    let (back, _, cs) := groups (7 - front.length) true cs
    let all := front ++ List.replicate (8 - front.length - back.length) 0 ++ back
    if h : all.length = 8 then return (⟨all.toArray, by simpa using h⟩, cs) else none

/-- A number of any number of digits below a bound. -/
def below (bound : Nat) : Piece Nat := fun cs => do
  let n ← Decimal.digits? (cs.takeWhile Char.isDigit)
  if n < bound then return (n, cs.dropWhile Char.isDigit) else none

/-- A zone after a percent sign. -/
def zone : Piece UInt32 := fun cs => do
  let ((), cs) ← Piece.char '%' cs
  let (n, cs) ← below UInt32.size cs
  return (UInt32.ofNat n, cs)

/-- A port after a colon. -/
def port : Piece UInt16 := fun cs => do
  let ((), cs) ← Piece.char ':' cs
  let (n, cs) ← below UInt16.size cs
  return (UInt16.ofNat n, cs)

/-- An address of version 4 with a port. -/
def piece4 : Piece SocketAddress := fun cs => do
  let (host, cs) ← dotted cs
  let (port, cs) ← port cs
  return (v4 host port, cs)

/-- An address of version 6 with a port. -/
def piece6 : Piece SocketAddress := fun cs => do
  let ((), cs) ← Piece.char '[' cs
  let (host, cs) ← host6 cs
  let (zone, cs) ← Piece.optional zone cs
  let ((), cs) ← Piece.char ']' cs
  let (port, cs) ← port cs
  return (v6 host (zone.getD 0) port, cs)

/-- The address of a whole text. -/
def ofText? (s : String) : Option SocketAddress := do
  let (x, rest) ← piece4 s.toList <|> piece6 s.toList
  if rest.isEmpty then return x else none

end SocketAddress

end TeamAccess
