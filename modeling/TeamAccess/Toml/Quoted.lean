import TeamAccess.Toml.Basic

/-!
# Quoted texts in TOML

A text stands between single quotes, where every character is itself, or between double quotes,
where a backslash begins an escape; tripled quotes allow line breaks. A text in tripled quotes may
end in one or two quotes of its own, loses a line break right after the opening, and in double
quotes a backslash at the end of a line drops the blanks and breaks up to the next character.

The readers begin after the opening quote, and the text has line feeds for line breaks and no
other control characters than tabs (`Toml/Document`).
-/

namespace TeamAccess.Toml

/-! ## Escapes -/

/-- What the characters of a text are read as. -/
inductive Reading where
  /-- As themselves. -/
  | plain
  /-- As an escape, after the backslash. -/
  | escape
  /-- As the rest of a line that a backslash ends: blanks and a line break. -/
  | lineEnd
  /-- As blanks and breaks to be dropped. -/
  | margin
  /-- As so many digits of a character's code, after those that make the number. -/
  | code (left : Nat) (number : Nat)

/-- The character of a one-letter escape. -/
def escaped? : Char → Option Char
  | 'b' => some (Char.ofNat 8)
  | 't' => some '\t'
  | 'n' => some '\n'
  | 'f' => some (Char.ofNat 12)
  | 'r' => some '\r'
  | '"' => some '"'
  | '\\' => some '\\'
  | _ => none

/-- The reading that an escape's first character begins, and the character it is if it stands
alone. -/
def begun? (c : Char) : Option (Option Char × Reading) :=
  if c = 'u' then some (none, .code 4 0)
  else if c = 'U' then some (none, .code 8 0)
  else if c = ' ' ∨ c = '\t' then some (none, .lineEnd)
  else if c = '\n' then some (none, .margin)
  else (escaped? c).map fun d => (some d, .plain)

/-- A character between escapes: itself, or the beginning of one. -/
def ordinary (c : Char) : Option Char × Reading :=
  if c = '\\' then (none, .escape) else (some c, .plain)

/-- The next reading, and the character that is complete. -/
def Reading.next? (c : Char) : Reading → Option (Option Char × Reading)
  | plain => some (ordinary c)
  | escape => begun? c
  | lineEnd =>
    if c = ' ' ∨ c = '\t' then some (none, lineEnd)
    else if c = '\n' then some (none, margin)
    else none
  | margin => if c = ' ' ∨ c = '\t' ∨ c = '\n' then some (none, margin) else some (ordinary c)
  | code left number => do
    let number := number * 16 + (← Decimal.hexDigit? c)
    if 1 < left then some (none, code (left - 1) number)
    else if number.isValidChar then some (some (Char.ofNat number), plain)
    else none

/-- The text with its escapes replaced by what they stand for. -/
def unescape : Reading → List Char → Option (List Char)
  | .plain, [] | .margin, [] => some []
  | _, [] => none
  | r, c :: cs => do
    let (d, r) ← r.next? c
    let ds ← unescape r cs
    return d.toList ++ ds

/-! ## Bodies -/

/-- The characters up to the closing quote on the same line, and the text after it. -/
def shortBody (quote : Char) (escapes : Bool) : List Char → Option (List Char × List Char)
  | [] => none
  | c :: cs =>
    if c = quote then some ([], cs)
    else if c = '\n' then none
    else if escapes && c = '\\' then
      match cs with
      | [] => none
      | d :: cs =>
        if d = '\n' then none
        else (shortBody quote escapes cs).map fun (body, rest) => (c :: d :: body, rest)
    else (shortBody quote escapes cs).map fun (body, rest) => (c :: body, rest)

/-- The characters up to the closing three quotes, one or two quotes right before them included,
and the text after them. -/
def longBody (quote : Char) (escapes : Bool) : List Char → Option (List Char × List Char)
  | [] => none
  | c :: cs =>
    if c = quote ∧ cs.take 2 = [quote, quote] then
      let own := ((cs.drop 2).take 2).takeWhile (· = quote)
      some (own, cs.drop (2 + own.length))
    else if escapes && c = '\\' then
      match cs with
      | [] => none
      | d :: cs => (longBody quote escapes cs).map fun (body, rest) => (c :: d :: body, rest)
    else (longBody quote escapes cs).map fun (body, rest) => (c :: body, rest)

/-- The text without a line break at its beginning. -/
def dropBreak : List Char → List Char
  | '\n' :: cs => cs
  | cs => cs

/-- What a body says. -/
def content (escapes : Bool) (body : List Char) : Option String :=
  (if escapes then unescape .plain body else some body).map String.ofList

/-- A text on one line, with its opening quote read. -/
def short (quote : Char) (cs : List Char) : Option (String × List Char) := do
  let escapes := quote = '"'
  let (body, rest) ← shortBody quote escapes cs
  return (← content escapes body, rest)

/-- A text in tripled quotes, with its opening quotes read. -/
def long (quote : Char) (cs : List Char) : Option (String × List Char) := do
  let escapes := quote = '"'
  let (body, rest) ← longBody quote escapes (dropBreak cs)
  return (← content escapes body, rest)

/-- A text with its first opening quote read. -/
def quoted (quote : Char) (cs : List Char) : Option (String × List Char) :=
  if cs.take 2 = [quote, quote] then long quote (cs.drop 2) else short quote cs

end TeamAccess.Toml
