import TeamAccess.Fault
import TeamAccess.Text.DoublePair

/-!
# Cells — what columns hold

A value that is put into a column is made to suit it where that can be done. A column of texts
makes a number its numeral. A column of integers makes a numeral its number: an integer where the
number is one, and a double where it is none or too large. Any other text it holds as it is. Bytes
are held as they are by both: as a blob, or as a text that they do not encode.

So a column of integers can hold values that are none, and a column of texts bytes that are none.
They are kept, but no row has such an id, and a row with such a value cannot be read back. In
comparisons a cell counts as its `number`: a double that happens to be a 64-bit integer is equal to
that integer. Texts and bytes are equal only to themselves.
-/

namespace TeamAccess

/-- Bytes in a column: a blob, or bytes that are held as a text though they encode none. -/
structure RawBytes where
  bytes : List UInt8
  /-- Whether they are held as a text. -/
  asText : Bool
  /-- Bytes that encode a text, and are held as one, are that text. -/
  broken : asText = true → ¬ bytes.toByteArray.IsValidUTF8
  deriving DecidableEq

/-- A value for a column. -/
inductive Cell where
  | null
  | int (n : Int64)
  | text (s : String)
  | raw (b : RawBytes)
  deriving DecidableEq

/-- What a column of integers holds. -/
inductive IntCell where
  | int (n : Int64)
  /-- A number that is no 64-bit integer, by the bits of its double. -/
  | real (bits : UInt64)
  /-- A text that is no numeral. -/
  | text (s : String)
  | raw (b : RawBytes)
  deriving DecidableEq

/-- What a column of texts holds. -/
inductive TextCell where
  | text (s : String)
  | raw (b : RawBytes)
  deriving DecidableEq

/-! ## Ranks -/

/-- The numbers that bytes are ordered by. -/
def RawBytes.rank (b : RawBytes) : List Int :=
  (if b.asText then 1 else 0) :: b.bytes.map fun byte => (byte.toNat : Int)

/-- Different bytes have different ranks. -/
theorem RawBytes.rank_inj {a b : RawBytes} (h : a.rank = b.rank) : a = b := by
  obtain ⟨bytes, asText, _⟩ := a
  obtain ⟨bytes', asText', _⟩ := b
  obtain ⟨hkind, hbytes⟩ := List.cons.inj h
  obtain rfl : bytes = bytes' := (List.map_inj_right fun _ _ hbyte =>
    UInt8.toNat_inj.1 (Int.ofNat_inj.1 hbyte)).1 hbytes
  obtain rfl : asText = asText' := by
    cases asText <;> cases asText' <;> simp at hkind ⊢
  rfl

/-- The numbers of the characters of a text. -/
def textRank (s : String) : List Int := s.toList.map fun c => (c.toNat : Int)

/-- Texts are known by the numbers of their characters. -/
theorem textRank_inj {s t : String} (h : textRank s = textRank t) : s = t :=
  String.toList_inj.1 <| (List.map_inj_right fun _ _ hc =>
    Char.ext (UInt32.toNat_inj.1 (Int.ofNat_inj.1 hc))).1 h

/-! ## Numerals in texts -/

/-- A numeral in a text. -/
structure LooseNumeral where
  negative : Bool
  /-- The digits before the point. -/
  whole : List Char
  /-- The digits after the point, if there is one. -/
  fraction : Option (List Char)
  power : Option Int
  deriving DecidableEq

namespace LooseNumeral

/-- Whether a character may stand around a numeral. -/
def isBlank (c : Char) : Bool := c = ' ' || (9 ≤ c.toNat && c.toNat ≤ 13)

/-- A text without the blanks at its two ends. -/
def trim (cs : List Char) : List Char :=
  ((cs.dropWhile isBlank).reverse.dropWhile isBlank).reverse

/-- The digits after a point, if there is one, and the text after it. -/
def afterPoint : List Char → Option (List Char) × List Char
  | '.' :: cs => (some (cs.takeWhile Char.isDigit), cs.dropWhile Char.isDigit)
  | cs => (none, cs)

/-- The numeral without a sign that a text is: digits with a point before, among or after them, or
none, and maybe an exponent. -/
def unsigned? (negative : Bool) (cs : List Char) : Option LooseNumeral :=
  let whole := cs.takeWhile Char.isDigit
  let (fraction, rest) := afterPoint (cs.dropWhile Char.isDigit)
  match Decimal.exponent rest with
  | some (power, []) =>
    if whole.isEmpty && (fraction.getD []).isEmpty then none
    else some ⟨negative, whole, fraction, power⟩
  | _ => none

/-- The numeral that a text is, with an optional sign and blanks around it. -/
def ofText? (cs : List Char) : Option LooseNumeral :=
  match trim cs with
  | '-' :: cs => unsigned? true cs
  | '+' :: cs => unsigned? false cs
  | cs => unsigned? false cs

/-- The integer that a numeral without point and exponent denotes, if it has 64 bits. -/
def plain? (n : LooseNumeral) : Option Int64 :=
  match n.fraction, n.power with
  | none, none =>
    let size := Decimal.value n.whole
    Decimal.int64? (if n.negative then -size else size)
  | _, _ => none

/-- The power of ten that an exponent means: one of more than five digits means ten thousand. -/
def powerOf (exponent : Int) : Int :=
  if exponent.natAbs < 100000 then exponent else exponent.sign * 10000

/-- The bits of the double that a numeral is read as. -/
def bits (n : LooseNumeral) : UInt64 :=
  let size :=
    (DoublePair.ofNumeral n.whole (n.fraction.getD []) (powerOf (n.power.getD 0))).value
  (if n.negative then -size else size).toBits

/-- The integer that this double is, if it has 64 bits and is not the least that has. -/
def rounded? (n : LooseNumeral) : Option Int64 :=
  ((Double.integer? n.bits).bind Decimal.int64?).filter (· != Int64.minValue)

end LooseNumeral

namespace IntCell

/-- What a column of integers makes of a text. -/
def ofText (s : String) : IntCell :=
  match LooseNumeral.ofText? s.toList with
  | none => text s
  | some n => ((n.plain?).orElse fun _ => n.rounded?).elim (real n.bits) int

/-! ## Comparison -/

/-- What a cell is compared as: a double that is a 64-bit integer counts as the integer. -/
def number : IntCell → IntCell
  | real bits => ((Double.integer? bits).bind Decimal.int64?).elim (real bits) int
  | c => c

/-- Integers are compared as they are. -/
@[simp] theorem number_int (n : Int64) : (int n).number = int n := rfl

/-- Whether a cell is equal to an integer. -/
def equals (c : IntCell) (n : Int64) : Bool := c.number = int n

/-- An integer is equal to itself alone. -/
@[simp] theorem equals_int {m n : Int64} : (int m).equals n ↔ m = n := by simp [equals]

/-- Whether a cell is equal to one of some integers. -/
def isOneOf (c : IntCell) (ns : List Int64) : Bool := ns.any c.equals

/-- The numbers that cells are ordered by: integers first, then doubles, texts and bytes. -/
def rank : IntCell → List Int
  | int n => [0, n.toInt]
  | real bits => [1, bits.toNat]
  | text s => 2 :: textRank s
  | raw b => 3 :: b.rank

/-- Different cells have different ranks. -/
theorem rank_inj {a b : IntCell} (h : a.rank = b.rank) : a = b := by
  cases a <;> cases b <;> simp only [rank, List.cons.injEq] at h
  case int.int => rw [Int64.toInt_inj.1 h.2.1]
  case real.real => rw [UInt64.toNat_inj.1 (Int.ofNat_inj.1 h.2.1)]
  case text.text => rw [textRank_inj h.2]
  case raw.raw => rw [RawBytes.rank_inj h.2]
  all_goals exact absurd h.1 (by decide)

/-- Cells are ordered by their ranks. -/
instance : Ord IntCell := ⟨compareOn rank⟩

instance : Std.TransOrd IntCell := inferInstanceAs (Std.TransCmp (compareOn rank))

instance : Std.LawfulEqOrd IntCell where
  eq_of_compare h := rank_inj (Std.LawfulEqOrd.eq_of_compare h)

/-! ## Reading -/

/-- The integer in a cell, if there is one. -/
def int? : IntCell → Option Int64
  | int n => some n
  | _ => none

/-- The integer in a cell of a row that is read back. -/
def load (c : IntCell) : Except Fault Int64 := c.int?.elim (.error .storage) .ok

/-- The integer in a cell that may be empty. -/
def load? (c : Option IntCell) : Except Fault (Option Int64) := c.mapM load

end IntCell

namespace TextCell

/-- A text is a value of a column of texts. -/
instance : Coe String TextCell := ⟨text⟩

/-- The numbers that cells are ordered by: texts first. -/
def rank : TextCell → List Int
  | text s => 0 :: textRank s
  | raw b => 1 :: b.rank

/-- Different cells have different ranks. -/
theorem rank_inj {a b : TextCell} (h : a.rank = b.rank) : a = b := by
  cases a <;> cases b <;> simp only [rank, List.cons.injEq] at h
  case text.text => rw [textRank_inj h.2]
  case raw.raw => rw [RawBytes.rank_inj h.2]
  all_goals exact absurd h.1 (by decide)

/-- Cells are ordered by their ranks. -/
instance : Ord TextCell := ⟨compareOn rank⟩

instance : Std.TransOrd TextCell := inferInstanceAs (Std.TransCmp (compareOn rank))

instance : Std.LawfulEqOrd TextCell where
  eq_of_compare h := rank_inj (Std.LawfulEqOrd.eq_of_compare h)

/-- The text in a cell, if it is one. -/
def text? : TextCell → Option String
  | text s => some s
  | raw _ => none

/-- The text in a cell of a row that is read back. -/
def load (c : TextCell) : Except Fault String := c.text?.elim (.error .storage) .ok

end TextCell

namespace Cell

/-- What a column of integers holds of a value. -/
def int? : Cell → Option IntCell
  | null => none
  | int n => some (.int n)
  | text s => some (.ofText s)
  | raw b => some (.raw b)

/-- The id that a value becomes, if it can: a column of ids holds integers only. -/
def id? (c : Cell) : Option Int64 := c.int?.bind IntCell.int?

/-- What a column of texts holds of a value. -/
def text? : Cell → Option TextCell
  | null => none
  | int n => some (.text (Decimal.text n))
  | text s => some (.text s)
  | raw b => some (.raw b)

end Cell

end TeamAccess
