import TeamAccess.Json.Draft

/-!
# Decoders — values from drafts

A decoder turns a draft into a value of the domain, or names its first `Flaw`: text that is not
JSON, or JSON of another form. Decoders walk a draft from left to right, so of two flaws the one
further left is reported; a value of the wrong kind is refused as soon as its kind is seen.

A `Record` decodes the fields of a structure from an object, whose unknown members are passed
over, or from an array of all fields in order. `enum` decodes a choice among names and `tagged` a
name with a value beside it.
-/

namespace TeamAccess

/-- Why a text does not decode. -/
inductive Flaw where
  /-- The text is not JSON. -/
  | text
  /-- The text is JSON of another form. -/
  | form
  deriving DecidableEq

/-- A reader of values from drafts. -/
abbrev Decoder (α : Type) := Draft → Except Flaw α

namespace Decode

/-- The flaw of a value of the wrong kind: a scalar must be readable before its kind counts. -/
def mismatch : Draft → Flaw
  | .broken | .str none | .num .huge => .text
  | _ => .form

/-- A 64-bit integer. -/
def int64 : Decoder Int64
  | .num (.int n) => (Decimal.int64? n).elim (.error .form) .ok
  | d => .error (mismatch d)

/-- A port number. -/
def port : Decoder UInt16
  | .num (.int n) => if 0 ≤ n ∧ n < 65536 then .ok (UInt16.ofNat n.toNat) else .error .form
  | d => .error (mismatch d)

/-- A text. -/
def string : Decoder String
  | .str (some s) => .ok s
  | d => .error (mismatch d)

/-- The value null. -/
def unit : Decoder Unit
  | .null => .ok ()
  | d => .error (mismatch d)

/-- A value or null. -/
def option (dec : Decoder α) : Decoder (Option α)
  | .null => .ok none
  | d => some <$> dec d

/-- A list of values. -/
def list (dec : Decoder α) : Decoder (List α)
  | .arr items ended => do
    let xs ← items.mapM dec
    if ended then .ok xs else .error .text
  | d => .error (mismatch d)

/-- A text that names a value. -/
def named (ofName? : String → Option α) : Decoder α := fun d => do
  (ofName? (← string d)).elim (.error .form) .ok

/-- One name out of several: a text, or an object whose one member has the name and holds null. -/
def enum (ofName? : String → Option α) : Decoder α
  | .str (some s) => (ofName? s).elim (.error .form) .ok
  | .obj ((some k, d) :: rest) ended =>
    match ofName? k with
    | none => .error .form
    | some a => do
      unit d
      if rest.isEmpty && ended then .ok a else .error .text
  | _ => .error .text

/-! ## Records -/

/-- What the reader of a record knows of a field before it builds the record. -/
structure Slot where
  /-- The field's name. -/
  name : String
  /-- Whether a value will do for the field. -/
  check : Draft → Except Flaw Unit
  /-- Whether the array form may end before this field. -/
  mayEnd : Bool

/-- A reader of records: the fields in order, and the record that their values make. -/
structure Record (α : Type) where
  slots : List Slot
  build : (String → Option Draft) → Except Flaw α

namespace Record

/-- A record of one field that must be there. -/
def required (name : String) (dec : Decoder α) : Record α where
  slots := [⟨name, fun d => discard (dec d), false⟩]
  build look := (look name).elim (.error .form) dec

/-- A record of one field that may be absent or null. -/
def optional (name : String) (dec : Decoder α) : Record (Option α) where
  slots := [⟨name, fun d => discard (option dec d), false⟩]
  build look := (look name).elim (.ok none) (option dec)

/-- A record of one field with a value for when it is absent. -/
def defaulted (name : String) (default : α) (dec : Decoder α) : Record α where
  slots := [⟨name, fun d => discard (dec d), true⟩]
  build look := (look name).elim (.ok default) dec

instance : Functor Record where
  map f r := ⟨r.slots, fun look => f <$> r.build look⟩

instance : Seq Record where
  seq f r := ⟨f.slots ++ (r ()).slots, fun look => f.build look <*> (r ()).build look⟩

/-- The values of the known members of an object, each name at most once. -/
def walk (slots : List Slot) (found : List (String × Draft)) :
    List (Option String × Draft) → Bool → Except Flaw (List (String × Draft))
  | [], ended => if ended then .ok found else .error .text
  | (none, _) :: _, _ => .error .text
  | (some k, d) :: rest, ended =>
    match slots.find? (·.name = k) with
    | none => if d.sound then walk slots found rest ended else .error .text
    | some slot =>
      if found.any (·.1 = k) then .error .form
      else do
        slot.check d
        walk slots (found ++ [(k, d)]) rest ended

/-- The values of the fields in the order of the items of an array. -/
def place : List Slot → List Draft → Bool → Except Flaw (List (String × Draft))
  | [], [], ended => if ended then .ok [] else .error .text
  | [], _ :: _, _ => .error .text
  | slot :: _, [], ended =>
    if !ended then .error .text else if slot.mayEnd then .ok [] else .error .form
  | slot :: slots, d :: ds, ended => do
    slot.check d
    return (slot.name, d) :: (← place slots ds ended)

/-- The decoder of a record. -/
def read (r : Record α) : Decoder α
  | .obj members ended => do
    let found ← walk r.slots [] members ended
    r.build fun k => found.lookup k
  | .arr items ended => do
    let found ← place r.slots items ended
    r.build fun k => found.lookup k
  | d => .error (mismatch d)

end Record

/-! ## Tagged values -/

/-- The next member with one of the two names, with whether it has the first, and what follows. -/
def relevant (tag content : String) :
    List (Option String × Draft) → Bool →
      Except Flaw (Option (Bool × Draft × List (Option String × Draft)))
  | [], ended => if ended then .ok none else .error .text
  | (none, _) :: _, _ => .error .text
  | (some k, d) :: rest, ended =>
    if k = tag then .ok (some (true, d, rest))
    else if k = content then .ok (some (false, d, rest))
    else if d.sound then relevant tag content rest ended
    else .error .text

/-- The value, if none of the two names occurs again. -/
def unrepeated (tag content : String) (rest : List (Option String × Draft)) (ended : Bool)
    (a : α) : Except Flaw α := do
  match ← relevant tag content rest ended with
  | none => .ok a
  | some _ => .error .form

/-- How deep a value may nest that is held until its tag is known. -/
def heldDepth : Nat := 125

/-- A variant named by a tag with its value beside it: an object with the two members in either
order, or an array of the two. In an object the tag is read as an `enum`, and a variant that is
`bare` may do without the value; in an array the tag is a text. -/
def tagged (tag content : String) (ofName? : String → Option β) (body : β → Decoder α)
    (bare : β → Option α) : Decoder α
  | .obj members ended => do
    match ← relevant tag content members ended with
    | none => .error .form
    | some (true, t, rest) =>
      let v ← enum ofName? t
      match ← relevant tag content rest ended with
      | none => (bare v).elim (.error .form) .ok
      | some (true, _, _) => .error .form
      | some (false, c, rest) => unrepeated tag content rest ended (← body v c)
    | some (false, c, rest) =>
      if c.holdable heldDepth then
        match ← relevant tag content rest ended with
        | none => .error .form
        | some (false, _, _) => .error .form
        | some (true, t, rest) =>
          let v ← enum ofName? t
          unrepeated tag content rest ended (← body v c)
      else .error .text
  | .arr [] ended => .error (if ended then .form else .text)
  | .arr [t] ended => do
    let _ ← named ofName? t
    .error (if ended then .form else .text)
  | .arr (t :: c :: rest) ended => do
    let v ← named ofName? t
    let a ← body v c
    if rest.isEmpty && ended then .ok a else .error .text
  | d => .error (mismatch d)

/-! ## Whole texts -/

/-- The value of a whole text, blanks around it allowed. -/
def text (dec : Decoder α) (cs : List Char) : Except Flaw α := do
  let (d, rest) := Draft.ofText cs
  let a ← dec d
  if (Draft.skipBlank rest).isEmpty then .ok a else .error .text

end Decode

end TeamAccess
