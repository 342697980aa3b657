import Mathlib.Algebra.Group.Nat.Defs
import TeamAccess.Json.Numeral
import TeamAccess.Timestamp.Basic
import TeamAccess.Text.Piece

/-!
# Digits — numbers read back from their text

Numbers are written without padding, or padded with zeros to a width. The digits of a written number
stand for it (`Decimal.value_ofNat`, `Timestamp.value_padded`), so whatever reads as many digits as
there are reads the number. An integer that fits a 64-bit word is read back as itself by the reader
of numerals, if no digit, point or exponent follows (`Numeral.read_ofInt`).
-/

namespace TeamAccess

/-! ## Decimal digits -/

namespace Decimal

section Run

variable {ds rest : List Char} (hds : ∀ c ∈ ds, c.isDigit = true)
variable (hrest : ∀ c ∈ rest.head?, c.isDigit = false)
include hds hrest

/-- A run of digits is taken up to where it ends. -/
theorem takeWhile_digits : (ds ++ rest).takeWhile Char.isDigit = ds := by
  rw [List.takeWhile_append_of_pos hds]
  cases rest with
  | nil => simp
  | cons c rest => simp [hrest c rfl]

/-- And what follows is left. -/
theorem dropWhile_digits : (ds ++ rest).dropWhile Char.isDigit = rest := by
  rw [List.dropWhile_append_of_pos hds]
  cases rest with
  | nil => rfl
  | cons c rest => simp [hrest c rfl]

end Run

variable {n : Nat} {c : Char}

/-- A number is written in digits. -/
theorem isDigit_of_mem_ofNat (h : c ∈ ofNat n) : c.isDigit = true :=
  Nat.isDigit_of_mem_toDigits (by decide) (by decide) h

/-- The digits of a number stand for it. -/
@[simp] theorem value_ofNat (n : Nat) : value (ofNat n) = n :=
  Nat.ofDigitChars_toDigits (by decide) (by decide)

/-- No positive number begins with a zero. -/
theorem head?_ofNat_ne (h : 0 < n) : (ofNat n).head? ≠ some '0' := by
  induction n using Nat.strongRecOn with
  | ind n ih =>
    rw [ofNat, Nat.toDigits_eq_if (by decide)]
    split
    · rename_i hlt
      have hdigit : ∀ d < 10, 0 < d → Nat.digitChar d ≠ '0' := by decide
      simpa using hdigit n hlt h
    · rename_i hle
      have hrest := ih (n / 10) (by omega) (by omega)
      obtain ⟨d, ds, hds⟩ :=
        List.exists_cons_of_ne_nil (Nat.toDigits_ne_nil (b := 10) (n := n / 10))
      rw [ofNat, hds] at hrest
      rwa [hds]

/-- The digits that begin with a zero are those of zero. -/
theorem eq_nil_of_ofNat_eq {ds : List Char} (h : ofNat n = '0' :: ds) : ds = [] := by
  rcases Nat.eq_zero_or_pos n with rfl | hpos
  · rw [ofNat, Nat.toDigits_zero] at h
    exact (List.cons.inj h).2.symm
  · exact absurd (by rw [h]; rfl) (head?_ofNat_ne hpos)

end Decimal

/-! ## Numerals -/

namespace Numeral

/-- The text goes on with nothing that belongs to a numeral. -/
def Ends (rest : List Char) : Prop :=
  ∀ c ∈ rest.head?, c.isDigit = false ∧ c ≠ '.' ∧ c ≠ 'e' ∧ c ≠ 'E'

variable {n : Nat} {rest : List Char}

/-- Digits that make a number within a word are all taken. -/
theorem absorb_eq {significand : Nat} {ds : List Char}
    (h : Nat.ofDigitChars 10 ds significand < 2 ^ 64) :
    absorb significand ds = (Nat.ofDigitChars 10 ds significand, []) := by
  induction ds generalizing significand with
  | nil => rfl
  | cons d ds ih =>
    have hone : Nat.ofDigitChars 10 ds (Nat.ofDigitChars 10 [d] significand) < 2 ^ 64 := h
    have hlonger : Nat.ofDigitChars 10 [d] significand < Nat.pow 2 64 := by
      refine Nat.lt_of_le_of_lt ?_ hone
      rw [Nat.ofDigitChars_eq_ofDigitChars_zero (l := ds)]
      exact Nat.le_add_right_of_le (Nat.le_mul_of_pos_left _ (Nat.pow_pos (by decide)))
    rw [absorb, if_pos hlonger, ih hone]
    rfl

/-- No fraction follows. -/
theorem fraction_of_ends (h : Ends rest) : fraction rest = some ([], rest) := by
  unfold fraction
  split
  · exact absurd rfl (h '.' rfl).2.1
  · rfl

/-- No exponent follows. -/
theorem exponent_of_ends (h : Ends rest) : Decimal.exponent rest = some (none, rest) := by
  cases rest with
  | nil => rfl
  | cons c rest => simp [Decimal.exponent, h c rfl]

/-- The digits of a number are read as the number, with the sign. -/
theorem unsigned_ofNat {negative : Bool} (hn : n < 2 ^ 64) (hsign : negative = true → n ≠ 0)
    (h : Ends rest) : unsigned negative (Decimal.ofNat n ++ rest) =
      some (.int (if negative then -n else n), rest) := by
  have habsorb : absorb 0 (Decimal.ofNat n) = (n, []) := by
    have hvalue : Nat.ofDigitChars 10 (Decimal.ofNat n) 0 = n := Decimal.value_ofNat n
    rw [absorb_eq (by rwa [hvalue]), hvalue]
  have hdenoted : denoted negative (Decimal.ofNat n) [] none =
      .int (if negative then -n else n) := by
    rw [denoted, habsorb]
    cases negative with
    | false => rfl
    | true => simp [hsign rfl]
  have hdigits : ∀ c ∈ Decimal.ofNat n, c.isDigit = true := fun _ => Decimal.isDigit_of_mem_ofNat
  have hrest : ∀ c ∈ rest.head?, c.isDigit = false := fun c hc => (h c hc).1
  rw [unsigned, Decimal.takeWhile_digits hdigits hrest, Decimal.dropWhile_digits hdigits hrest]
  split
  · rename_i hnil
    exact absurd hnil Nat.toDigits_ne_nil
  · rename_i hzero
    cases Decimal.eq_nil_of_ofNat_eq hzero
  · simp [fraction_of_ends h, exponent_of_ends h, hdenoted]

/-- **An integer that fits a word is read back.** -/
theorem read_ofInt {n : Int} (hn : n.natAbs < 2 ^ 64) (h : Ends rest) :
    read (Decimal.ofInt n ++ rest) = some (.int n, rest) := by
  cases n with
  | ofNat n =>
    obtain ⟨d, ds, hds⟩ := List.exists_cons_of_ne_nil (l := Decimal.ofNat n) Nat.toDigits_ne_nil
    have hdigit : d.isDigit = true := Decimal.isDigit_of_mem_ofNat (hds ▸ List.mem_cons_self)
    have hread : read (Decimal.ofNat n ++ rest) = unsigned false (Decimal.ofNat n ++ rest) := by
      unfold read
      split
      · rename_i hminus
        rw [hds] at hminus
        obtain rfl := (List.cons.inj hminus).1
        cases hdigit
      · rfl
    have hn : n < 2 ^ 64 := hn
    rw [Decimal.ofInt, hread, unsigned_ofNat hn (by simp) h]
    rfl
  | negSucc n =>
    have hn : n + 1 < 2 ^ 64 := hn
    exact unsigned_ofNat hn (by simp) h

end Numeral

/-! ## Numbers of a fixed width -/

namespace Timestamp

variable {width n : Nat} {c : Char}

/-- A padded number is written in digits. -/
theorem isDigit_of_mem_padded (h : c ∈ padded width n) : c.isDigit = true := by
  rcases List.mem_append.1 h with h | h
  · rw [(List.mem_replicate.1 h).2]
    rfl
  · exact Decimal.isDigit_of_mem_ofNat h

/-- And its digits stand for it. -/
@[simp] theorem value_padded (width n : Nat) : Decimal.value (padded width n) = n := by
  have hvalue : Nat.ofDigitChars 10 (Decimal.ofNat n) 0 = n := Decimal.value_ofNat n
  rw [Decimal.value, padded, Nat.ofDigitChars_append, Nat.ofDigitChars_replicate_zero,
    Nat.mul_zero, hvalue]

/-- A number that is not too large fills its width. -/
theorem length_padded (hwidth : 0 < width) (hn : n < 10 ^ width) :
    (padded width n).length = width := by
  have hle : (Decimal.ofNat n).length ≤ width :=
    (Nat.length_toDigits_le_iff (by decide) hwidth).2 hn
  simp only [padded, List.length_append, List.length_replicate]
  omega

end Timestamp

/-- **As many digits as are read make up the padded number.** -/
theorem Piece.number_padded {least width n : Nat} (hwidth : 0 < width) (hleast : least ≤ width)
    (hn : n < 10 ^ width) (rest : List Char) :
    number least width (Timestamp.padded width n ++ rest) = some (n, rest) := by
  have hlength := Timestamp.length_padded hwidth hn
  have htake : ((Timestamp.padded width n ++ rest).take width).takeWhile Char.isDigit =
      Timestamp.padded width n := by
    have hnone : ∀ c ∈ ([] : List Char).head?, c.isDigit = false := by simp
    rw [List.take_left' hlength]
    simpa using Decimal.takeWhile_digits (fun _ => Timestamp.isDigit_of_mem_padded) hnone
  rw [number, htake, hlength, if_neg (Nat.not_lt.2 hleast), List.drop_left' hlength,
    Timestamp.value_padded]

end TeamAccess
