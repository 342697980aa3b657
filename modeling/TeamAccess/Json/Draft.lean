import TeamAccess.Json.Basic
import TeamAccess.Json.Numeral
import TeamAccess.Text.Piece

/-!
# Drafts — a JSON text as far as it can be read

Reading is one pass from left to right, and what a request is answered depends on which fault the
pass meets first: text that is not JSON, or JSON of the wrong form. A `Draft` therefore keeps
everything before the first fault of the text. A value that could not be read is `broken`, and an
array or object says whether its closing bracket was reached; nothing after the fault is kept.
A decoder (`Json/Decode`) walks the draft in the same order and so finds the faults in the order
of the text.

Numerals and texts keep what a decoder may object to: whether a numeral is a plain integer, and
whether the escapes of a text name characters.
-/

namespace TeamAccess

/-- A JSON text as far as it can be read. -/
inductive Draft where
  | null
  | bool (b : Bool)
  | num (n : Numeral)
  /-- A quoted text, without content where its escapes name no character. -/
  | str (s : Option String)
  /-- The items of an array, and whether its closing bracket follows them. -/
  | arr (items : List Draft) (ended : Bool)
  /-- The members of an object, and whether its closing bracket follows them. -/
  | obj (members : List (Option String × Draft)) (ended : Bool)
  /-- No value can be read here. -/
  | broken

namespace Draft

/-- The text without the blanks that JSON allows between tokens. -/
def skipBlank (cs : List Char) : List Char :=
  cs.dropWhile fun c => c = ' ' || c = '\n' || c = '\t' || c = '\r'

/-! ## Quoted texts -/

/-- The code unit that four hexadecimal digits denote. -/
def unit? (a b c d : Char) : Option Nat :=
  match Decimal.hexDigit? a, Decimal.hexDigit? b, Decimal.hexDigit? c, Decimal.hexDigit? d with
  | some a, some b, some c, some d => some (((a * 16 + b) * 16 + c) * 16 + d)
  | _, _, _, _ => none

/-- The character of a one-letter escape. -/
def escaped? : Char → Option Char
  | '"' => some '"'
  | '\\' => some '\\'
  | '/' => some '/'
  | 'b' => some (Char.ofNat 8)
  | 'f' => some (Char.ofNat 12)
  | 'n' => some '\n'
  | 'r' => some '\r'
  | 't' => some '\t'
  | _ => none

/-- The code units up to the closing quote, and the text after it. -/
def units : List Char → Option (List Nat × List Char)
  | '"' :: rest => some ([], rest)
  | '\\' :: 'u' :: a :: b :: c :: d :: rest => do
    let n ← unit? a b c d
    let (ns, rest) ← units rest
    some (n :: ns, rest)
  | '\\' :: e :: rest => do
    let c ← escaped? e
    let (ns, rest) ← units rest
    some (c.toNat :: ns, rest)
  | c :: rest =>
    if c.toNat < 32 ∨ c = '\\' then none
    else do
      let (ns, rest) ← units rest
      some (c.toNat :: ns, rest)
  | [] => none

/-- The characters of code units, where a high surrogate and the low one after it make one. -/
def ofUnits : List Nat → Option (List Char)
  | [] => some []
  | [n] => if 0xD800 ≤ n ∧ n < 0xE000 then none else some [Char.ofNat n]
  | n :: m :: ns =>
    if 0xD800 ≤ n ∧ n < 0xDC00 then
      if 0xDC00 ≤ m ∧ m < 0xE000 then
        (ofUnits ns).map (Char.ofNat (0x10000 + (n - 0xD800) * 0x400 + (m - 0xDC00)) :: ·)
      else none
    else if 0xDC00 ≤ n ∧ n < 0xE000 then none
    else (ofUnits (m :: ns)).map (Char.ofNat n :: ·)

/-- A quoted text whose opening quote has been read, and the text after it. -/
def quoted (cs : List Char) : Option (Option String × List Char) :=
  (units cs).map fun (ns, rest) => ((ofUnits ns).map String.ofList, rest)

/-! ## Values -/

/-- A value that is neither an array nor an object, and the text after it. -/
def scalar (cs : List Char) : Draft × List Char :=
  match cs with
  | 'n' :: _ => (Piece.after? "null".toList cs).elim (broken, []) fun rest => (null, rest)
  | 't' :: _ => (Piece.after? "true".toList cs).elim (broken, []) fun rest => (bool true, rest)
  | 'f' :: _ => (Piece.after? "false".toList cs).elim (broken, []) fun rest => (bool false, rest)
  | '"' :: rest => (quoted rest).elim (broken, []) fun (s, rest) => (str s, rest)
  | cs => (Numeral.read cs).elim (broken, []) fun (n, rest) => (num n, rest)

mutual

/-- A value and the text after it, nested no deeper than the fuel allows. -/
def value : Nat → List Char → Draft × List Char
  | 0, _ => (broken, [])
  | fuel + 1, cs =>
    match skipBlank cs with
    | '[' :: rest =>
      match skipBlank rest with
      | ']' :: rest => (arr [] true, rest)
      | rest =>
        let (items, ended, rest) := items fuel rest
        (arr items ended, rest)
    | '{' :: rest =>
      match skipBlank rest with
      | '}' :: rest => (obj [] true, rest)
      | rest =>
        let (members, ended, rest) := members fuel rest
        (obj members ended, rest)
    | cs => scalar cs

/-- The items from here on, whether a closing bracket follows them, and the text after it. -/
def items : Nat → List Char → List Draft × Bool × List Char
  | 0, _ => ([], false, [])
  | fuel + 1, cs =>
    match skipBlank cs with
    | ']' :: _ => ([], false, [])
    | cs =>
      let (v, rest) := value fuel cs
      match skipBlank rest with
      | ',' :: rest =>
        let (vs, ended, rest) := items fuel rest
        (v :: vs, ended, rest)
      | ']' :: rest => ([v], true, rest)
      | _ => ([v], false, [])

/-- The members from here on, whether a closing bracket follows them, and the text after it. -/
def members : Nat → List Char → List (Option String × Draft) × Bool × List Char
  | 0, _ => ([], false, [])
  | fuel + 1, cs =>
    match skipBlank cs with
    | '"' :: rest =>
      match quoted rest with
      | none => ([], false, [])
      | some (k, rest) =>
        match skipBlank rest with
        | ':' :: rest =>
          let (v, rest) := value fuel rest
          match skipBlank rest with
          | ',' :: rest =>
            let (ms, ended, rest) := members fuel rest
            ((k, v) :: ms, ended, rest)
          | '}' :: rest => ([(k, v)], true, rest)
          | _ => ([(k, v)], false, [])
        | _ => ([(k, broken)], false, [])
    | _ => ([], false, [])

end

/-- The draft of a text and what follows its value. Every second step takes a character, so the
fuel lasts. -/
def ofText (cs : List Char) : Draft × List Char := value (2 * cs.length + 2) cs

/-! ## Passing over values -/

mutual

/-- Whether the value keeps the grammar to its end, whatever it holds. -/
def sound : Draft → Bool
  | broken => false
  | arr items ended => soundItems items && ended
  | obj members ended => soundMembers members && ended
  | null | bool _ | num _ | str _ => true

/-- Whether all items keep the grammar. -/
def soundItems : List Draft → Bool
  | [] => true
  | v :: vs => v.sound && soundItems vs

/-- Whether all members keep the grammar. -/
def soundMembers : List (Option String × Draft) → Bool
  | [] => true
  | (_, v) :: vs => v.sound && soundMembers vs

end

mutual

/-- Whether the value can be held as it is: sound, no deeper than the limit, with texts that name
characters and numbers within the doubles. -/
def holdable (limit : Nat) : Draft → Bool
  | broken => false
  | str none => false
  | num .huge => false
  | arr items ended => limit != 0 && holdableItems (limit - 1) items && ended
  | obj members ended => limit != 0 && holdableMembers (limit - 1) members && ended
  | null | bool _ | num _ | str (some _) => true

/-- Whether all items can be held. -/
def holdableItems (limit : Nat) : List Draft → Bool
  | [] => true
  | v :: vs => v.holdable limit && holdableItems limit vs

/-- Whether all members can be held. -/
def holdableMembers (limit : Nat) : List (Option String × Draft) → Bool
  | [] => true
  | (k, v) :: vs => k.isSome && v.holdable limit && holdableMembers limit vs

end

end Draft

end TeamAccess
