/-!
# Parts between separators

A text with separators in it is a list of parts, empty ones included: one more than it has
separators.
-/

namespace TeamAccess.Text

/-- The parts of a text between separators, empty ones included. -/
def split (separator : Char) : List Char → List (List Char)
  | [] => [[]]
  | c :: cs =>
    if c = separator then [] :: split separator cs
    else
      match split separator cs with
      | [] => [[c]]
      | part :: parts => (c :: part) :: parts

end TeamAccess.Text
