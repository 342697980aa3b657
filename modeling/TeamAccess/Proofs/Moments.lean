import TeamAccess.Proofs.Digits
import TeamAccess.Timestamp.Reader

/-!
# Moments — timestamps read back from their text

The text of a moment has fields of fixed width, so a reader that takes as many digits as there may
be takes each field whole (`Piece.number_padded`). A leap second is written as second 60 and read
as the second that it follows, with its nanoseconds counted on; the fraction is cut to three, six or
nine digits only where nothing is lost. All moments of years with four digits are read back
(`Timestamp.ofText?_text`); other years have a sign or more digits.
-/

namespace TeamAccess

namespace Civil

variable {c : Civil}

/-- A month that has days is one of twelve. -/
theorem month_le_of_daysIn_pos {year : Int} {month : Nat} (h : 0 < daysIn year month) :
    month ≤ 12 := by
  rcases Nat.lt_or_ge 12 month with hlarge | hle
  · have hnone : daysIn year month = 0 := by
      unfold daysIn
      split <;> omega
    omega
  · exact hle

/-- No month has more than thirty-one days. -/
theorem daysIn_le (year : Int) (month : Nat) : daysIn year month ≤ 31 := by
  unfold daysIn
  split
  · split <;> omega
  all_goals omega

/-- Without an offset nothing is shifted. -/
theorem Valid.shift_zero (h : c.Valid) : c.shift 0 = c := by
  obtain ⟨-, -, -, -, hhour, hminute, -⟩ := h
  have hwithin : (((c.hour * 60 + c.minute : Int) + 0) % 1440).toNat = c.hour * 60 + c.minute := by
    omega
  have hhour' : (c.hour * 60 + c.minute) / 60 = c.hour := by omega
  have hminute' : (c.hour * 60 + c.minute) % 60 = c.minute := by omega
  simp only [shift, hwithin, hhour', hminute']
  rw [if_neg (by omega), if_pos (by omega)]

end Civil

namespace Timestamp

open Piece

/-! ## Fields -/

section Fields

variable {n width : Nat} {rest : List Char}

/-- No digit is blank. -/
theorem isBlank_of_isDigit {c : Char} (h : c.isDigit = true) : Text.isBlank c = false := by
  have hrange : 48 ≤ c.toNat ∧ c.toNat ≤ 57 := Char.isDigit_iff_toNat.1 h
  simp only [Text.isBlank, Bool.or_eq_false_iff, Bool.and_eq_false_iff, decide_eq_false_iff_not,
    beq_eq_false_iff_ne]
  omega

/-- A padded number begins with a digit. -/
theorem exists_padded_eq (width n : Nat) :
    ∃ d ds, padded width n = d :: ds ∧ d.isDigit = true := by
  obtain ⟨d, ds, hds⟩ := List.exists_cons_of_ne_nil (l := padded width n)
    (List.append_ne_nil_of_right_ne_nil _ Nat.toDigits_ne_nil)
  exact ⟨d, ds, hds, isDigit_of_mem_padded (hds ▸ List.mem_cons_self)⟩

/-- So there is nothing blank in front of it. -/
theorem trimStart_padded (width n : Nat) (rest : List Char) :
    Text.trimStart (padded width n ++ rest) = padded width n ++ rest := by
  obtain ⟨d, ds, hds, hdigit⟩ := exists_padded_eq width n
  simp [hds, Text.trimStart, isBlank_of_isDigit hdigit]

theorem loose_padded (hn : n < 100) (rest : List Char) :
    loose (padded 2 n ++ rest) = some (n, rest) := by
  rw [loose, trimStart_padded]
  exact number_padded (by decide) (by decide) hn rest

theorem looseYear_padded (hn : n < 10000) (rest : List Char) :
    looseYear (padded 4 n ++ rest) = some ((n : Int), rest) := by
  have hnumber : number 1 4 (padded 4 n ++ rest) = some (n, rest) :=
    number_padded (by decide) (by decide) hn rest
  obtain ⟨d, ds, hds, hdigit⟩ := exists_padded_eq 4 n
  unfold looseYear
  rw [trimStart_padded]
  split
  · rename_i hsign
    rw [hds] at hsign
    obtain rfl := (List.cons.inj hsign).1
    cases hdigit
  · rename_i hsign
    rw [hds] at hsign
    obtain rfl := (List.cons.inj hsign).1
    cases hdigit
  · rw [hnumber]
    rfl

theorem looseChar_cons {c : Char} (hc : Text.isBlank c = false) (rest : List Char) :
    looseChar c (c :: rest) = some ((), rest) := by
  simp [looseChar, Text.trimStart, hc, char]

/-- The digits after a point are counted out to nine. -/
theorem fraction_padded (hwidth : 0 < width) (hle : width ≤ 9) (hn : n < 10 ^ width) :
    fraction ('.' :: padded width n ++ ['Z']) = some (n * 10 ^ (9 - width), ['Z']) := by
  have hdigits : ∀ c ∈ padded width n, c.isDigit = true := fun _ => isDigit_of_mem_padded
  have hrest : ∀ c ∈ ['Z'].head?, c.isDigit = false := by simp
  have hlength := length_padded hwidth hn
  have htake : (padded width n).take 9 = padded width n := List.take_of_length_le (by omega)
  obtain ⟨d, ds, hds, -⟩ := exists_padded_eq width n
  rw [List.cons_append, fraction, Decimal.takeWhile_digits hdigits hrest,
    Decimal.dropWhile_digits hdigits hrest]
  split
  · rename_i hnil
    rw [hds] at hnil
    cases hnil
  · simp only [htake, value_padded, hlength]
    rfl

/-- **The fraction is exact**: it stands for all nanoseconds. -/
theorem fraction_fractionText (hn : n < 1000000000) :
    fraction (fractionText n ++ ['Z']) = some (n, ['Z']) := by
  unfold fractionText
  split
  · rename_i hzero
    subst hzero
    rfl
  split
  · rw [fraction_padded (by decide) (by decide) (by omega)]
    congr 2
    omega
  split
  · rw [fraction_padded (by decide) (by decide) (by omega)]
    congr 2
    omega
  · rw [fraction_padded (by decide) (by decide) (by omega)]
    congr 2
    omega

end Fields

/-! ## Moments -/

/-- A piece that is read is followed by the others. -/
theorem bind_of_eq_some {α β : Type} {x : Option α} {a : α} {f : α → Option β} (h : x = some a) :
    (x >>= f) = f a := by
  rw [h]
  rfl

/-- Fields that fit their widths are read one after the other. -/
theorem ofText?_fields {year month day hour minute second nanos : Nat} (hyear : year < 10000)
    (hmonth : month < 100) (hday : day < 100) (hhour : hour < 100) (hminute : minute < 100)
    (hsecond : second < 100) (hnanos : nanos < 1000000000) :
    ofText? (String.ofList (padded 4 year ++ '-' :: padded 2 month ++ '-' :: padded 2 day ++
      'T' :: padded 2 hour ++ ':' :: padded 2 minute ++ ':' :: padded 2 second ++
        fractionText nanos ++ ['Z'])) =
      ofLocal? year month day hour minute second nanos 0 := by
  have hdash : Text.isBlank '-' = false := by decide
  have hcolon : Text.isBlank ':' = false := by decide
  have hT (rest : List Char) : separator ('T' :: rest) = some ((), rest) := rfl
  have hzone : offset colonOrBlank ['Z'] = some (0, []) := rfl
  simp only [List.append_assoc, List.cons_append]
  rw [ofText?, String.toList_ofList]
  refine (bind_of_eq_some (looseYear_padded hyear _)).trans ?_
  refine (bind_of_eq_some (looseChar_cons hdash _)).trans ?_
  refine (bind_of_eq_some (loose_padded hmonth _)).trans ?_
  refine (bind_of_eq_some (looseChar_cons hdash _)).trans ?_
  refine (bind_of_eq_some (loose_padded hday _)).trans ?_
  refine (bind_of_eq_some (hT _)).trans ?_
  refine (bind_of_eq_some (loose_padded hhour _)).trans ?_
  refine (bind_of_eq_some (looseChar_cons hcolon _)).trans ?_
  refine (bind_of_eq_some (loose_padded hminute _)).trans ?_
  refine (bind_of_eq_some (looseChar_cons hcolon _)).trans ?_
  refine (bind_of_eq_some (loose_padded hsecond _)).trans ?_
  refine (bind_of_eq_some (fraction_fractionText hnanos)).trans ?_
  exact bind_of_eq_some hzone

/-- A valid local time in universal time is the moment itself. -/
theorem ofCivil?_shift_zero (t : Timestamp) :
    (if t.civil.Valid then ofCivil? (t.civil.shift (-0)) else none) = some t := by
  rw [if_pos t.valid, Int.neg_zero, t.valid.shift_zero, ofCivil?, dif_pos t.valid]

theorem ofLocal?_civil (t : Timestamp) : ofLocal? t.civil.year t.civil.month t.civil.day
    t.civil.hour t.civil.minute t.civil.second t.civil.nanos 0 = some t := by
  obtain ⟨-, -, -, -, -, -, hsecond, -⟩ := t.valid
  have hplain : t.civil.second ≠ 60 := by omega
  simp only [ofLocal?, if_neg hplain]
  exact ofCivil?_shift_zero t

/-- A leap second is second 60. -/
theorem ofLocal?_leap (t : Timestamp) (h : 1000000000 ≤ t.civil.nanos) :
    ofLocal? t.civil.year t.civil.month t.civil.day t.civil.hour t.civil.minute
      (t.civil.second + 1) (t.civil.nanos - 1000000000) 0 = some t := by
  obtain ⟨-, -, -, -, -, -, -, hnanos⟩ := t.valid
  have hsecond : t.civil.second = 59 := by omega
  have hleap : t.civil.second + 1 = 60 := by omega
  have hcivil : (⟨t.civil.year, t.civil.month, t.civil.day, t.civil.hour, t.civil.minute, 59,
      t.civil.nanos - 1000000000 + 1000000000⟩ : Civil) = t.civil := by
    simp only [Nat.sub_add_cancel h, ← hsecond]
  simp only [ofLocal?, if_pos hleap, hcivil]
  exact ofCivil?_shift_zero t

/-- **A moment of a year with four digits is read back from its text.** -/
theorem ofText?_text (t : Timestamp) (hfirst : 0 ≤ t.civil.year) (hlast : t.civil.year ≤ 9999) :
    ofText? t.text = some t := by
  obtain ⟨-, -, hday, hdays, hhour, hminute, hsecond, hnanos⟩ := t.valid
  have hmonth := Civil.month_le_of_daysIn_pos (Nat.lt_of_lt_of_le hday hdays)
  have hmost := Civil.daysIn_le t.civil.year t.civil.month
  have hdigits : 0 ≤ t.civil.year ∧ t.civil.year ≤ 9999 := ⟨hfirst, hlast⟩
  have hyear : (t.civil.year.toNat : Int) = t.civil.year := Int.toNat_of_nonneg hfirst
  have hyear' : t.civil.year.toNat < 10000 := by omega
  rcases Nat.lt_or_ge t.civil.nanos 1000000000 with hplain | hleap
  · simp only [text, localText, yearText, if_pos hdigits, if_pos hplain]
    rw [ofText?_fields hyear' (by omega) (by omega) (by omega) (by omega) (by omega) hplain, hyear]
    exact ofLocal?_civil t
  · have hnot : ¬ t.civil.nanos < 1000000000 := Nat.not_lt.2 hleap
    simp only [text, localText, yearText, if_pos hdigits, if_neg hnot]
    rw [ofText?_fields hyear' (by omega) (by omega) (by omega) (by omega) (by omega) (by omega),
      hyear]
    exact ofLocal?_leap t hleap

end Timestamp

end TeamAccess
