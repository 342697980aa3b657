import Mathlib.Data.List.Forall2
import TeamAccess.Json.Decode
import TeamAccess.Proofs.Digits

/-!
# Drafts — what is written is read back

Every JSON value has a draft that says all of it (`Json.draft`), and its text is read as that draft,
compact or laid out in lines. Escapes are undone character by character (`units_escape`). For arrays
and objects it is of no account how items are laid out, as long as only blanks stand between tokens
(`Reads.arr`, `Reads.obj`); the fuel that the reader starts with is enough for the length of the
text.
-/

namespace TeamAccess

namespace Draft

open Json (escape quote join)

/-! ## Quoted texts -/

section Units

variable {rest : List Char}

/-- A one-letter escape stands for its character. -/
theorem units_letter {e c : Char} (hu : e ≠ 'u') (he : escaped? e = some c) :
    units ('\\' :: e :: rest) = (units rest).map fun (ns, rest) => (c.toNat :: ns, rest) := by
  rw [units.eq_3 _ _ fun _ _ _ _ _ hletter _ => hu hletter, he]
  cases units rest <;> rfl

/-- An escape by a number stands for the number. -/
theorem units_number {a b c d : Char} {n : Nat} (h : unit? a b c d = some n) :
    units ('\\' :: 'u' :: a :: b :: c :: d :: rest) =
      (units rest).map fun (ns, rest) => (n :: ns, rest) := by
  rw [units, h]
  cases units rest <;> rfl

/-- A character that needs no escape stands for itself. -/
theorem units_plain {c : Char} (hlow : ¬ c.toNat < 32) (hquote : c ≠ '"') (hslash : c ≠ '\\') :
    units (c :: rest) = (units rest).map fun (ns, rest) => (c.toNat :: ns, rest) := by
  rw [units.eq_4 _ _ hquote (fun _ _ _ _ _ heq _ => hslash heq) (fun _ _ heq _ => hslash heq),
    if_neg (by simp [hlow, hslash])]
  cases units rest <;> rfl

/-- Four hexadecimal digits, the first two of them zeros, are read as the number. -/
theorem unit?_digitChar {n : Nat} (h : n < 32) :
    unit? '0' '0' (Nat.digitChar (n / 16)) (Nat.digitChar (n % 16)) = some n := by
  revert n
  decide

/-- **What is escaped is read as the character.** -/
theorem units_escape (c : Char) : units (escape c ++ rest) =
    (units rest).map fun (ns, rest) => (c.toNat :: ns, rest) := by
  unfold escape
  by_cases hquote : c = '"'
  · rw [if_pos hquote]
    exact units_letter (by decide) (by rw [hquote]; rfl)
  rw [if_neg hquote]
  by_cases hslash : c = '\\'
  · rw [if_pos hslash]
    exact units_letter (by decide) (by rw [hslash]; rfl)
  rw [if_neg hslash]
  split
  · exact units_letter (by decide) (by simp [escaped?, *])
  split
  · exact units_letter (by decide) (by simp [escaped?, *])
  split
  · exact units_letter (by decide) (by simp [escaped?, *])
  split
  · exact units_letter (by decide) (by simp [escaped?, *])
  split
  · exact units_letter (by decide) (by simp [escaped?, *])
  split
  · rename_i hlow
    have hdigits := unit?_digitChar (n := c.toNat) (by omega)
    rw [Nat.div_eq_of_lt hlow, Nat.mod_eq_of_lt hlow] at hdigits
    rw [Decimal.hex, Nat.toDigits_of_lt_base hlow]
    exact units_number hdigits
  split
  · rename_i hhigh hlow
    rw [Decimal.hex, Nat.toDigits_of_base_le (by decide) (by omega),
      Nat.toDigits_of_lt_base (by omega)]
    exact units_number (unit?_digitChar hlow)
  · rename_i hlow
    exact units_plain hlow hquote hslash

end Units

/-- Between its quotes a text is read as the code points of its characters. -/
theorem units_flatMap_escape (cs rest : List Char) :
    units (cs.flatMap escape ++ '"' :: rest) = some (cs.map Char.toNat, rest) := by
  induction cs with
  | nil => simp [units]
  | cons c cs ih =>
    rw [List.flatMap_cons, List.append_assoc, units_escape, ih]
    rfl

/-- No character is half of a pair, so code points are the characters that they were. -/
theorem ofUnits_map_toNat (cs : List Char) : ofUnits (cs.map Char.toNat) = some cs := by
  have hpair (c : Char) : c.toNat < 0xD800 ∨ 0xE000 ≤ c.toNat := by
    rcases c.valid with h | h
    · exact .inl h
    · exact .inr h.1
  induction cs with
  | nil => rfl
  | cons c cs ih =>
    have hc := hpair c
    cases cs with
    | nil => rw [List.map_cons, List.map_nil, ofUnits, if_neg (by omega), Char.ofNat_toNat]
    | cons d ds =>
      rw [List.map_cons] at ih
      rw [List.map_cons, List.map_cons, ofUnits, if_neg (by omega), if_neg (by omega), ih,
        Char.ofNat_toNat]
      rfl

/-- **A quoted text is read back.** -/
theorem quoted_quote (s : String) (rest : List Char) :
    quoted (s.toList.flatMap escape ++ '"' :: rest) = some (some s, rest) := by
  rw [quoted, units_flatMap_escape]
  simp [ofUnits_map_toNat]

/-! ## Blanks -/

/-- Blanks before a text are passed over. -/
theorem skipBlank_append {b cs : List Char} (hb : skipBlank b = []) :
    skipBlank (b ++ cs) = skipBlank cs := by
  rw [skipBlank, skipBlank, List.dropWhile_append]
  rw [skipBlank] at hb
  simp [hb]

theorem skipBlank_cons (c : Char) (cs : List Char) : skipBlank (c :: cs) =
    if c ∈ [' ', '\n', '\t', '\r'] then skipBlank cs else c :: cs := by
  simp [skipBlank, List.dropWhile_cons, or_assoc]

theorem skipBlank_of_not_mem {c : Char} {cs : List Char} (hc : c ∉ [' ', '\n', '\t', '\r']) :
    skipBlank (c :: cs) = c :: cs := by
  rw [skipBlank_cons, if_neg hc]

@[simp] theorem skipBlank_skipBlank (cs : List Char) : skipBlank (skipBlank cs) = skipBlank cs := by
  induction cs with
  | nil => rfl
  | cons c cs ih =>
    rw [skipBlank_cons]
    split
    · exact ih
    · rename_i hc
      exact skipBlank_of_not_mem hc

/-- No numeral goes on with blanks and then a separator or a bracket. -/
theorem ends_of_skipBlank {b rest : List Char} {c : Char} (hb : skipBlank b = [])
    (hc : c ∈ [',', ']', '}']) : Numeral.Ends (b ++ c :: rest) := by
  intro d hd
  cases b with
  | nil =>
    obtain rfl : c = d := Option.some.inj hd
    simp only [List.mem_cons, List.not_mem_nil, or_false] at hc
    rcases hc with rfl | rfl | rfl <;> decide
  | cons e b =>
    obtain rfl : e = d := Option.some.inj hd
    rw [skipBlank_cons] at hb
    split at hb
    · rename_i he
      simp only [List.mem_cons, List.not_mem_nil, or_false] at he
      rcases he with rfl | rfl | rfl | rfl <;> decide
    · cases hb

/-- A value begins with the character. -/
def Opens (c : Char) : Prop := c ∉ [']', '}', ' ', '\n', '\t', '\r']

instance : DecidablePred Opens := fun c => inferInstanceAs (Decidable (c ∉ _))

theorem Opens.skipBlank_eq {c : Char} (hc : Opens c) (cs : List Char) :
    skipBlank (c :: cs) = c :: cs :=
  skipBlank_of_not_mem fun hblank => hc (List.mem_cons_of_mem _ (List.mem_cons_of_mem _ hblank))

/-! ## Values -/

/-- **The text is read as the draft**, whatever follows it that does not go on with a numeral. -/
structure Reads (t : List Char) (d : Draft) : Prop where
  opens : ∃ c cs, t = c :: cs ∧ Opens c
  value : ∀ fuel rest, 2 * t.length ≤ fuel → Numeral.Ends rest → value fuel (t ++ rest) = (d, rest)

/-- The text of a member is read as the member: its name, and after a colon its value. -/
def ReadsMember (t : List Char) (m : Option String × Draft) : Prop :=
  ∃ k b v, t = quote k ++ ':' :: (b ++ v) ∧ skipBlank b = [] ∧ Reads v m.2 ∧ m.1 = some k

section Scalars

/-- A value that begins with no bracket is a scalar. -/
theorem value_eq_scalar {c : Char} (hc : Opens c) (harr : c ≠ '[') (hobj : c ≠ '{') (fuel : Nat)
    (cs : List Char) : value (fuel + 1) (c :: cs) = scalar (c :: cs) := by
  rw [value, hc.skipBlank_eq]
  split
  · rename_i heq
    exact absurd (List.cons.inj heq).1 harr
  · rename_i heq
    exact absurd (List.cons.inj heq).1 hobj
  · rfl

/-- Texts of scalars are read. -/
theorem Reads.of_scalar {c : Char} {cs : List Char} {d : Draft} (hc : Opens c) (harr : c ≠ '[')
    (hobj : c ≠ '{') (h : ∀ rest, Numeral.Ends rest → scalar (c :: cs ++ rest) = (d, rest)) :
    Reads (c :: cs) d where
  opens := ⟨c, cs, rfl, hc⟩
  value fuel rest hfuel hrest := by
    obtain ⟨fuel, rfl⟩ : ∃ n, fuel = n + 1 :=
      Nat.exists_eq_succ_of_ne_zero (by rw [List.length_cons] at hfuel; omega)
    rw [List.cons_append, value_eq_scalar hc harr hobj]
    exact h rest hrest

theorem reads_null : Reads ['n', 'u', 'l', 'l'] null :=
  .of_scalar (by decide) (by decide) (by decide) fun _ _ => rfl

theorem reads_true : Reads ['t', 'r', 'u', 'e'] (.bool true) :=
  .of_scalar (by decide) (by decide) (by decide) fun _ _ => rfl

theorem reads_false : Reads ['f', 'a', 'l', 's', 'e'] (.bool false) :=
  .of_scalar (by decide) (by decide) (by decide) fun _ _ => rfl

theorem reads_quote (s : String) : Reads (quote s) (.str (some s)) := by
  refine .of_scalar (by decide) (by decide) (by decide) fun rest _ => ?_
  have hquoted := quoted_quote s rest
  simp only [List.append_eq, List.cons_append, List.append_assoc, List.nil_append, scalar, hquoted]
  rfl

/-- Integers begin with a digit or a minus. -/
theorem exists_ofInt_eq (n : Int) :
    ∃ c cs, Decimal.ofInt n = c :: cs ∧ (c.isDigit = true ∨ c = '-') := by
  cases n with
  | ofNat n =>
    obtain ⟨c, cs, h⟩ := List.exists_cons_of_ne_nil (l := Decimal.ofNat n) Nat.toDigits_ne_nil
    exact ⟨c, cs, h, .inl (Decimal.isDigit_of_mem_ofNat (h ▸ List.mem_cons_self))⟩
  | negSucc n => exact ⟨'-', Decimal.ofNat (n + 1), rfl, .inr rfl⟩

theorem reads_ofInt {n : Int} (hn : n.natAbs < 2 ^ 64) :
    Reads (Decimal.ofInt n) (.num (.int n)) := by
  obtain ⟨c, cs, htext, hc⟩ := exists_ofInt_eq n
  have hne : ∀ d : Char, d.isDigit = false → d ≠ '-' → c ≠ d := by
    rintro d hdigit hminus rfl
    rcases hc with hc | hc
    · rw [hdigit] at hc
      cases hc
    · exact hminus hc
  have hopens : Opens c := by
    simp only [Opens, List.mem_cons, not_or, List.not_mem_nil, not_false_eq_true, and_true]
    exact ⟨hne _ rfl (by decide), hne _ rfl (by decide), hne _ rfl (by decide),
      hne _ rfl (by decide), hne _ rfl (by decide), hne _ rfl (by decide)⟩
  rw [htext]
  refine .of_scalar hopens (hne _ rfl (by decide)) (hne _ rfl (by decide)) fun rest hrest => ?_
  have hread := Numeral.read_ofInt hn hrest
  rw [htext] at hread
  unfold scalar
  split
  · rename_i heq
    exact absurd (List.cons.inj heq).1 (hne _ rfl (by decide))
  · rename_i heq
    exact absurd (List.cons.inj heq).1 (hne _ rfl (by decide))
  · rename_i heq
    exact absurd (List.cons.inj heq).1 (hne _ rfl (by decide))
  · rename_i heq
    exact absurd (List.cons.inj heq).1 (hne _ rfl (by decide))
  · rw [hread]
    rfl

end Scalars

/-! ## Arrays and objects -/

theorem reads_arr_nil : Reads ['[', ']'] (.arr [] true) := by
  refine ⟨⟨_, _, rfl, by decide⟩, fun fuel rest hfuel _ => ?_⟩
  obtain ⟨fuel, rfl⟩ : ∃ n, fuel = n + 1 := Nat.exists_eq_succ_of_ne_zero (by simp at hfuel; omega)
  rfl

theorem reads_obj_nil : Reads ['{', '}'] (.obj [] true) := by
  refine ⟨⟨_, _, rfl, by decide⟩, fun fuel rest hfuel _ => ?_⟩
  obtain ⟨fuel, rfl⟩ : ∃ n, fuel = n + 1 := Nat.exists_eq_succ_of_ne_zero (by simp at hfuel; omega)
  rfl

section Nested

variable {t b b' : List Char} {d : Draft} {ts : List (List Char)}

@[simp] theorem value_skipBlank (fuel : Nat) (cs : List Char) :
    value fuel (skipBlank cs) = value fuel cs := by
  cases fuel with
  | zero => rfl
  | succ fuel => rw [value, value, skipBlank_skipBlank]

@[simp] theorem items_skipBlank (fuel : Nat) (cs : List Char) :
    items fuel (skipBlank cs) = items fuel cs := by
  cases fuel with
  | zero => rfl
  | succ fuel => rw [items, items, skipBlank_skipBlank]

@[simp] theorem members_skipBlank (fuel : Nat) (cs : List Char) :
    members fuel (skipBlank cs) = members fuel cs := by
  cases fuel with
  | zero => rfl
  | succ fuel => rw [members, members, skipBlank_skipBlank]

/-- The item at the beginning is read, and then what follows it. -/
theorem items_append (ht : Reads t d) {fuel : Nat} {rest : List Char} (hfuel : 2 * t.length ≤ fuel)
    (hrest : Numeral.Ends rest) : items (fuel + 1) (t ++ rest) =
      match skipBlank rest with
      | ',' :: rest => (d :: (items fuel rest).1, (items fuel rest).2)
      | ']' :: rest => ([d], true, rest)
      | _ => ([d], false, []) := by
  have hvalue := ht.value fuel rest hfuel hrest
  obtain ⟨c, cs, rfl, hc⟩ := ht.opens
  rw [List.cons_append] at hvalue ⊢
  rw [items, hc.skipBlank_eq]
  split
  · rename_i heq
    exact absurd (by simp [(List.cons.inj heq).1]) hc
  · rewrite [hvalue]
    rfl

/-- **Items with blanks about them are read** up to the closing bracket. -/
theorem items_join {ds : List Draft} (hts : List.Forall₂ Reads ts ds) (hne : ts ≠ [])
    (hb : skipBlank b = []) (hb' : skipBlank b' = []) {fuel : Nat} (rest : List Char)
    (hfuel : 2 * (join (',' :: b) ts).length < fuel) :
    items fuel (join (',' :: b) ts ++ (b' ++ ']' :: rest)) = (ds, true, rest) := by
  induction hts generalizing fuel with
  | nil => exact absurd rfl hne
  | @cons t d ts ds ht hts ih =>
    obtain ⟨fuel, rfl⟩ : ∃ n, fuel = n + 1 := Nat.exists_eq_succ_of_ne_zero (by omega)
    cases hts with
    | nil =>
      rw [join] at hfuel ⊢
      rw [items_append ht (by omega) (ends_of_skipBlank hb' (by simp)), skipBlank_append hb']
      rfl
    | @cons t' d' ts ds ht' hts =>
      have htext : join (',' :: b) (t :: t' :: ts) ++ (b' ++ ']' :: rest) =
          t ++ ',' :: (b ++ (join (',' :: b) (t' :: ts) ++ (b' ++ ']' :: rest))) := by
        simp [join]
      have hends : Numeral.Ends
          (',' :: (b ++ (join (',' :: b) (t' :: ts) ++ (b' ++ ']' :: rest)))) :=
        ends_of_skipBlank (b := []) rfl (by simp)
      simp only [join, List.length_append, List.length_cons] at hfuel
      have hrest : items fuel (b ++ (join (',' :: b) (t' :: ts) ++ (b' ++ ']' :: rest))) =
          (d' :: ds, true, rest) := by
        rw [← items_skipBlank, skipBlank_append hb, items_skipBlank]
        exact ih (by simp) (by omega)
      rw [htext, items_append ht (by omega) hends, skipBlank_of_not_mem (by decide)]
      simp only [hrest]

/-- The member at the beginning is read, and then what follows it. -/
theorem members_append {m : Option String × Draft} (ht : ReadsMember t m) {fuel : Nat}
    {rest : List Char} (hfuel : 2 * t.length ≤ fuel) (hrest : Numeral.Ends rest) :
    members (fuel + 1) (t ++ rest) =
      match skipBlank rest with
      | ',' :: rest => (m :: (members fuel rest).1, (members fuel rest).2)
      | '}' :: rest => ([m], true, rest)
      | _ => ([m], false, []) := by
  obtain ⟨k, g, v, rfl, hg, hv, hk⟩ := ht
  obtain ⟨_, d⟩ := m
  obtain rfl := hk
  have htext : quote k ++ ':' :: (g ++ v) ++ rest =
      '"' :: (k.toList.flatMap escape ++ '"' :: (':' :: (g ++ (v ++ rest)))) := by
    simp [quote]
  simp only [List.length_append, List.length_cons] at hfuel
  have hvalue : value fuel (g ++ (v ++ rest)) = (d, rest) := by
    rw [← value_skipBlank, skipBlank_append hg, value_skipBlank]
    exact hv.value fuel rest (by omega) hrest
  rw [htext, members, skipBlank_of_not_mem (by decide)]
  simp only [quoted_quote]
  rw [skipBlank_of_not_mem (by decide)]
  split
  · rename_i hcolon
    obtain rfl := (List.cons.inj hcolon).2
    rewrite [hvalue]
    rfl
  · rename_i hno
    exact absurd rfl (hno _)

/-- **Members with blanks about them are read** up to the closing bracket. -/
theorem members_join {ms : List (Option String × Draft)} (hts : List.Forall₂ ReadsMember ts ms)
    (hne : ts ≠ []) (hb : skipBlank b = []) (hb' : skipBlank b' = []) {fuel : Nat}
    (rest : List Char) (hfuel : 2 * (join (',' :: b) ts).length < fuel) :
    members fuel (join (',' :: b) ts ++ (b' ++ '}' :: rest)) = (ms, true, rest) := by
  induction hts generalizing fuel with
  | nil => exact absurd rfl hne
  | @cons t m ts ms ht hts ih =>
    obtain ⟨fuel, rfl⟩ : ∃ n, fuel = n + 1 := Nat.exists_eq_succ_of_ne_zero (by omega)
    cases hts with
    | nil =>
      rw [join] at hfuel ⊢
      rw [members_append ht (by omega) (ends_of_skipBlank hb' (by simp)), skipBlank_append hb']
      rfl
    | @cons t' m' ts ms ht' hts =>
      have htext : join (',' :: b) (t :: t' :: ts) ++ (b' ++ '}' :: rest) =
          t ++ ',' :: (b ++ (join (',' :: b) (t' :: ts) ++ (b' ++ '}' :: rest))) := by
        simp [join]
      have hends : Numeral.Ends
          (',' :: (b ++ (join (',' :: b) (t' :: ts) ++ (b' ++ '}' :: rest)))) :=
        ends_of_skipBlank (b := []) rfl (by simp)
      simp only [join, List.length_append, List.length_cons] at hfuel
      have hrest : members fuel (b ++ (join (',' :: b) (t' :: ts) ++ (b' ++ '}' :: rest))) =
          (m' :: ms, true, rest) := by
        rw [← members_skipBlank, skipBlank_append hb, members_skipBlank]
        exact ih (by simp) (by omega)
      rw [htext, members_append ht (by omega) hends, skipBlank_of_not_mem (by decide)]
      simp only [hrest]

/-- What is joined begins as its first piece does. -/
theorem exists_join_eq {sep cs : List Char} {c : Char} :
    ∃ rest, join sep ((c :: cs) :: ts) = c :: rest := by
  cases ts with
  | nil => exact ⟨cs, rfl⟩
  | cons t ts => exact ⟨cs ++ sep ++ join sep (t :: ts), rfl⟩

/-- **An array is read**, whatever blanks stand about its items. -/
theorem Reads.arr {ds : List Draft} (hts : List.Forall₂ Reads ts ds) (hne : ts ≠ [])
    (hb : skipBlank b = []) (hb' : skipBlank b' = []) :
    Reads ('[' :: (b ++ join (',' :: b) ts ++ b' ++ [']'])) (.arr ds true) := by
  refine ⟨⟨_, _, rfl, by decide⟩, fun fuel rest hfuel _ => ?_⟩
  simp only [List.length_cons, List.length_append] at hfuel
  obtain ⟨fuel, rfl⟩ : ∃ n, fuel = n + 1 := Nat.exists_eq_succ_of_ne_zero (by omega)
  have htext : '[' :: (b ++ join (',' :: b) ts ++ b' ++ [']']) ++ rest =
      '[' :: (b ++ (join (',' :: b) ts ++ (b' ++ ']' :: rest))) := by simp
  have hitems : items fuel (join (',' :: b) ts ++ (b' ++ ']' :: rest)) = (ds, true, rest) :=
    items_join hts hne hb hb' rest (by omega)
  obtain ⟨c, cs, hjoin, hc⟩ : ∃ c cs, join (',' :: b) ts = c :: cs ∧ Opens c := by
    cases hts with
    | nil => exact absurd rfl hne
    | cons ht _ =>
      obtain ⟨c, cs, rfl, hc⟩ := ht.opens
      obtain ⟨rest, hrest⟩ := exists_join_eq
      exact ⟨c, rest, hrest, hc⟩
  rw [htext, Draft.value, skipBlank_of_not_mem (by decide)]
  rw [hjoin, List.cons_append] at hitems ⊢
  simp only [skipBlank_append hb, hc.skipBlank_eq]
  split
  · rename_i heq
    exact absurd (by simp [(List.cons.inj heq).1]) hc
  · rw [hitems]

/-- **An object is read**, whatever blanks stand about its members. -/
theorem Reads.obj {ms : List (Option String × Draft)} (hts : List.Forall₂ ReadsMember ts ms)
    (hne : ts ≠ []) (hb : skipBlank b = []) (hb' : skipBlank b' = []) :
    Reads ('{' :: (b ++ join (',' :: b) ts ++ b' ++ ['}'])) (.obj ms true) := by
  refine ⟨⟨_, _, rfl, by decide⟩, fun fuel rest hfuel _ => ?_⟩
  simp only [List.length_cons, List.length_append] at hfuel
  obtain ⟨fuel, rfl⟩ : ∃ n, fuel = n + 1 := Nat.exists_eq_succ_of_ne_zero (by omega)
  have htext : '{' :: (b ++ join (',' :: b) ts ++ b' ++ ['}']) ++ rest =
      '{' :: (b ++ (join (',' :: b) ts ++ (b' ++ '}' :: rest))) := by simp
  have hmembers : members fuel (join (',' :: b) ts ++ (b' ++ '}' :: rest)) = (ms, true, rest) :=
    members_join hts hne hb hb' rest (by omega)
  obtain ⟨cs, hjoin⟩ : ∃ cs, join (',' :: b) ts = '"' :: cs := by
    cases hts with
    | nil => exact absurd rfl hne
    | cons ht _ =>
      obtain ⟨k, g, v, rfl, -⟩ := ht
      exact exists_join_eq
  rw [htext, Draft.value, skipBlank_of_not_mem (by decide)]
  rw [hjoin, List.cons_append] at hmembers ⊢
  have hblank : skipBlank (b ++ '"' :: (cs ++ (b' ++ '}' :: rest))) =
      '"' :: (cs ++ (b' ++ '}' :: rest)) := by
    rw [skipBlank_append hb, skipBlank_of_not_mem (by decide)]
  simp only [hblank]
  split
  · rename_i heq
    exact absurd (List.cons.inj heq).1 (by decide)
  · rw [hmembers]

end Nested

/-- The text of a value is read whole. -/
theorem Reads.ofText_eq {t : List Char} {d : Draft} (h : Reads t d) : ofText t = (d, []) := by
  have hvalue := h.value (2 * t.length + 2) [] (by omega) fun c hc => by cases hc
  rwa [List.append_nil] at hvalue

end Draft

/-! ## What is written -/

namespace Json

open Draft (Reads ReadsMember)

mutual

/-- The draft that says all of the value. -/
def draft : Json → Draft
  | .null => .null
  | .bool b => .bool b
  | .int n => .num (.int n)
  | .str s => .str (some s)
  | .arr items => .arr (draftItems items) true
  | .obj members => .obj (draftMembers members) true

/-- The drafts of items. -/
def draftItems : List Json → List Draft
  | [] => []
  | v :: vs => v.draft :: draftItems vs

/-- The drafts of members. -/
def draftMembers : List (String × Json) → List (Option String × Draft)
  | [] => []
  | (k, v) :: ms => (some k, v.draft) :: draftMembers ms

end

mutual

/-- The numbers in the value fit a 64-bit word. -/
def Fits : Json → Prop
  | .int n => n.natAbs < 2 ^ 64
  | .arr items => FitsItems items
  | .obj members => FitsMembers members
  | .null | .bool _ | .str _ => True

/-- The numbers in the items fit. -/
def FitsItems : List Json → Prop
  | [] => True
  | v :: vs => v.Fits ∧ FitsItems vs

/-- The numbers in the members fit. -/
def FitsMembers : List (String × Json) → Prop
  | [] => True
  | (_, v) :: ms => v.Fits ∧ FitsMembers ms

end

mutual

/-- **A compact text is read as the draft of its value.** -/
theorem reads_compact : ∀ j : Json, j.Fits → Reads j.compact j.draft
  | .null, _ => Draft.reads_null
  | .bool true, _ => Draft.reads_true
  | .bool false, _ => Draft.reads_false
  | .int _, h => Draft.reads_ofInt h
  | .str s, _ => Draft.reads_quote s
  | .arr [], _ => Draft.reads_arr_nil
  | .arr (v :: vs), h => by
    have hread : Reads ('[' :: ([] ++ join [','] (compactItems (v :: vs)) ++ [] ++ [']'])) _ :=
      .arr (reads_compactItems (v :: vs) h) (by simp [compactItems]) rfl rfl
    simpa [compact, draft] using hread
  | .obj [], _ => Draft.reads_obj_nil
  | .obj ((k, v) :: ms), h => by
    have hread : Reads
        ('{' :: ([] ++ join [','] (compactMembers ((k, v) :: ms)) ++ [] ++ ['}'])) _ :=
      .obj (reads_compactMembers ((k, v) :: ms) h) (by simp [compactMembers]) rfl rfl
    simpa [compact, draft] using hread

theorem reads_compactItems : ∀ vs : List Json, FitsItems vs →
    List.Forall₂ Reads (compactItems vs) (draftItems vs)
  | [], _ => .nil
  | v :: vs, h => .cons (reads_compact v h.1) (reads_compactItems vs h.2)

theorem reads_compactMembers : ∀ ms : List (String × Json), FitsMembers ms →
    List.Forall₂ ReadsMember (compactMembers ms) (draftMembers ms)
  | [], _ => .nil
  | (k, v) :: ms, h =>
    .cons ⟨k, [], v.compact, rfl, rfl, reads_compact v h.1, rfl⟩ (reads_compactMembers ms h.2)

end

/-- Indentation is blank. -/
theorem skipBlank_indent (depth : Nat) : Draft.skipBlank (indent depth) = [] := by
  have hspaces (n : Nat) : Draft.skipBlank (List.replicate n ' ') = [] := by
    induction n with
    | zero => rfl
    | succ n ih => rwa [List.replicate_succ, Draft.skipBlank_cons, if_pos (by decide)]
  rw [indent, Draft.skipBlank_cons, if_pos (by decide), hspaces]

/-- A block with lines in it is laid out with its indentation for blanks. -/
theorem block_eq {lines : List (List Char)} (h : lines ≠ []) (depth : Nat)
    (opening closing : Char) :
    block depth opening closing lines =
      opening :: (indent (depth + 1) ++ join (',' :: indent (depth + 1)) lines ++ indent depth ++
        [closing]) := by
  cases lines with
  | nil => exact absurd rfl h
  | cons line lines => rfl

mutual

/-- **So is a text laid out in lines.** -/
theorem reads_prettyAt (depth : Nat) : ∀ j : Json, j.Fits → Reads (j.prettyAt depth) j.draft
  | .null, _ => Draft.reads_null
  | .bool true, _ => Draft.reads_true
  | .bool false, _ => Draft.reads_false
  | .int _, h => Draft.reads_ofInt h
  | .str s, _ => Draft.reads_quote s
  | .arr [], _ => Draft.reads_arr_nil
  | .arr (v :: vs), h => by
    have hitems := reads_prettyItems (depth + 1) (v :: vs) h
    rw [prettyAt, block_eq (by simp [prettyItems])]
    exact .arr hitems (by simp [prettyItems]) (skipBlank_indent _) (skipBlank_indent _)
  | .obj [], _ => Draft.reads_obj_nil
  | .obj ((k, v) :: ms), h => by
    have hmembers := reads_prettyMembers (depth + 1) ((k, v) :: ms) h
    rw [prettyAt, block_eq (by simp [prettyMembers])]
    exact .obj hmembers (by simp [prettyMembers]) (skipBlank_indent _) (skipBlank_indent _)

theorem reads_prettyItems (depth : Nat) : ∀ vs : List Json, FitsItems vs →
    List.Forall₂ Reads (prettyItems depth vs) (draftItems vs)
  | [], _ => .nil
  | v :: vs, h => .cons (reads_prettyAt depth v h.1) (reads_prettyItems depth vs h.2)

theorem reads_prettyMembers (depth : Nat) : ∀ ms : List (String × Json), FitsMembers ms →
    List.Forall₂ ReadsMember (prettyMembers depth ms) (draftMembers ms)
  | [], _ => .nil
  | (k, v) :: ms, h =>
    .cons ⟨k, [' '], v.prettyAt depth, rfl, rfl, reads_prettyAt depth v h.1, rfl⟩
      (reads_prettyMembers depth ms h.2)

end

end Json

/-- Either layout of a value's text is read as the draft of the value. -/
theorem Json.reads_layout {layout : Json → List Char} (hlayout : layout ∈ [compact, pretty])
    {j : Json} (h : j.Fits) : Draft.Reads (layout j) j.draft := by
  simp only [List.mem_cons, List.not_mem_nil, or_false] at hlayout
  rcases hlayout with rfl | rfl
  · exact reads_compact j h
  · exact reads_prettyAt 0 j h

/-- A decoder makes of a text what it makes of the draft that the text is read as, if only blanks
follow. -/
theorem Decode.text_eq {α : Type} {dec : Decoder α} {t rest : List Char} {d : Draft}
    (ht : Draft.ofText t = (d, rest)) (hrest : Draft.skipBlank rest = []) :
    Decode.text dec t = dec d := by
  rw [Decode.text, ht]
  cases hd : dec d <;> simp [bind, Except.bind, hd, hrest]

end TeamAccess
