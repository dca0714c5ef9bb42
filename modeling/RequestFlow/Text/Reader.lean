/-!
# Readers

All formats are read the same way: a reader takes a value from the head of a text and leaves the
rest, or refuses the text.
-/

namespace RequestFlow

/-- Takes a value from the head of a text and leaves the rest. -/
abbrev Reader (α : Type) := List Char → Option (α × List Char)

/-- What follows a character that has to stand at the head of a text. -/
def expect? (c : Char) : List Char → Option (List Char)
  | d :: rest => if d = c then some rest else none
  | [] => none

end RequestFlow
