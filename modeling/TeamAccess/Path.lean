import TeamAccess.Text.Split

/-!
# Paths

A path is a text of names with slashes between them. A name that is empty or a dot leads nowhere
else, and two dots lead back. `above` lists the directories that a path leads through, as they have
to be there before it can be.
-/

namespace TeamAccess

/-- Why a path cannot be used as asked. -/
inductive PathFault where
  /-- Nothing is there. -/
  | absent
  /-- Something is there already. -/
  | present
  /-- What the path leads through is no directory. -/
  | notDirectory
  /-- A directory is there. -/
  | directory
  /-- What is there is no text. -/
  | notText
  deriving DecidableEq, Repr

/-- The fault in the system's words. -/
def PathFault.message : PathFault → String
  | absent => "No such file or directory (os error 2)"
  | present => "File exists (os error 17)"
  | notDirectory => "Not a directory (os error 20)"
  | directory => "Is a directory (os error 21)"
  | notText => "stream did not contain valid UTF-8"

namespace Path

/-- The names in a path, empty ones included. -/
def names (path : String) : List String := (Text.split '/' path.toList).map String.ofList

/-- The path with the given names. -/
def ofNames (ns : List String) : String := "/".intercalate ns

/-- Whether a name leads nowhere else. -/
def stays (name : String) : Bool := name = "" || name = "."

/-- The beginnings of a list of names, given last name first, that end in a name which leads
somewhere; the longest first. -/
def beginnings : List String → List (List String)
  | [] => []
  | n :: ns => if stays n then beginnings ns else (n :: ns).reverse :: beginnings ns

/-- The paths of the directories that a path leads through, the nearest first. -/
def above (path : String) : List String :=
  (beginnings (names path).reverse).tail.map ofNames

/-- The path without its last name. -/
def parent (path : String) : String := ofNames (names path).dropLast

end Path

end TeamAccess
