import TeamAccess.Text.Percent
import TeamAccess.Text.Piece
import TeamAccess.Text.Split

/-!
# Locators — where a database is

A database is named by the path of its file or by a text that begins with `file:`, in which the
path is written with percent codes. Before the path such a text may name a host, which has to be
this one. After it there may be options, which say what may be done to the file, and a remark
behind a number sign, which says nothing.

A database without a file is in memory, and it is gone when it is closed.
-/

namespace TeamAccess

/-- What may be done to a database. -/
inductive Access where
  | read
  | write
  /-- Write, and make the file if it is not there. -/
  | make
  /-- Anything, in memory. -/
  | memory
  deriving DecidableEq, Repr

namespace Access

/-- The access of a name. -/
def ofName? : String → Option Access
  | "ro" => some read
  | "rw" => some write
  | "rwc" => some make
  | "memory" => some memory
  | _ => none

/-- How much an access allows. -/
def rank : Access → Nat
  | read => 0
  | write => 1
  | make => 2
  | memory => 3

/-- The access that is asked for where another was in place. To a file it only becomes less. -/
def replaced? (old new : Access) : Option Access :=
  if new = memory ∨ new.rank ≤ old.rank then some new else none

end Access

/-- Where a database is, and what may be done to it. -/
structure Locator where
  /-- The path of the file, if there is one. -/
  path : Option String
  /-- Whether the file is made if it is not there. -/
  mayMake : Bool
  mayWrite : Bool
  deriving DecidableEq

namespace Locator

/-- What the options of a locator ask for. -/
structure Options where
  access : Access
  /-- The system that keeps the files. -/
  system : String
  /-- Whether the file is taken for one that never changes. -/
  isFixed : Option Bool
  deriving DecidableEq

/-- What is asked for without options. -/
def Options.default : Options := ⟨.make, "unix", none⟩

/-- Whether a value says yes: in a word, or by a number of one byte that is not zero. -/
def saysYes (value : String) : Bool :=
  let n := Decimal.value (value.toList.takeWhile Char.isDigit)
  ["on", "yes", "true"].contains value.toLower || (n < Nat.pow 2 31 && n % 256 != 0)

/-- The options with one more. Options of other names do not matter. -/
def Options.set (o : Options) (name value : String) : Option Options :=
  match name with
  | "mode" =>
    ((Access.ofName? value).bind o.access.replaced?).map fun access => { o with access }
  | "cache" => if value = "shared" ∨ value = "private" then some o else none
  | "vfs" => some { o with system := value }
  | "immutable" => some { o with isFixed := o.isFixed.orElse fun _ => some (saysYes value) }
  | _ => some o

/-- The bytes of a part of a locator; a code for the byte zero ends it. -/
def bytes (cs : List Char) : List UInt8 := (Percent.bytes cs).takeWhile (· != 0)

/-- The text of a name or a value among the options. -/
def wordOf (cs : List Char) : String := (Percent.textOf? (bytes cs)).getD ""

/-- The options with one more, which is written as a name, an equals sign and a value. -/
def Options.read (o : Options) (cs : List Char) : Option Options :=
  o.set (wordOf (cs.takeWhile (· != '='))) (wordOf ((cs.dropWhile (· != '=')).drop 1))

/-- The systems that can keep a database, the last of them in memory. -/
def systems : List String := ["unix", "unix-none", "unix-dotfile", "unix-excl", "memdb"]

/-- The locator of a path with options. -/
def ofPath? (path : String) (o : Options) : Option Locator :=
  let isNowhere := o.access = .memory || path = "" || path = ":memory:"
  let isFixed := !isNowhere && o.isFixed.getD false
  if systems.contains o.system then
    some ⟨if isNowhere || o.system = "memdb" then none else some path, o.access = .make,
      o.access != .read && !isFixed⟩
  else none

/-- What follows the host, if that is this one. -/
def afterHost? : List Char → Option (List Char)
  | '/' :: '/' :: cs =>
    let host := String.ofList (cs.takeWhile (· != '/'))
    if host = "" ∨ host = "localhost" then some (cs.dropWhile (· != '/')) else none
  | cs => some cs

/-- The locator that a database's name is, unless it is none. -/
def ofName? (name : String) : Option Locator :=
  match Piece.after? "file:".toList name.toList with
  | none => ofPath? name .default
  | some cs => do
    let cs := (← afterHost? cs).takeWhile (· != '#')
    let path ← Percent.textOf? (bytes (cs.takeWhile (· != '?')))
    let options := Text.split '&' ((cs.dropWhile (· != '?')).drop 1)
    ofPath? path (← options.foldlM Options.read .default)

end Locator

end TeamAccess
