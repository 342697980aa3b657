import TeamAccess.Text.Decimal

/-!
# Percent codes

A percent sign with two hexadecimal digits after it stands for a byte, and anything else for
itself. What is written so need not be a text, since the bytes may be no UTF-8.
-/

namespace TeamAccess.Percent

/-- The bytes of a text with percent codes. -/
def bytes : List Char → List UInt8
  | '%' :: a :: b :: rest =>
    match Decimal.hexDigit? a, Decimal.hexDigit? b with
    | some m, some n => UInt8.ofNat (m * 16 + n) :: bytes rest
    | _, _ => String.utf8EncodeChar '%' ++ bytes (a :: b :: rest)
  | c :: rest => String.utf8EncodeChar c ++ bytes rest
  | [] => []

/-- The text of bytes, if they are UTF-8. -/
def textOf? (bs : List UInt8) : Option String := String.fromUTF8? ⟨bs.toArray⟩

/-- The text that a text with percent codes stands for, if it is one. -/
def decode? (cs : List Char) : Option String := textOf? (bytes cs)

end TeamAccess.Percent
