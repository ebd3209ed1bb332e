/-!
# Lines

A text split at its line ends, each a line feed with or without a carriage return before it.
-/
namespace EventSearch.Text

def dropReturn (cs : List Char) : List Char :=
  match cs.reverse with
  | '\r' :: rest => rest.reverse
  | _ => cs

/-- The lines of a text, of which the current one has been read so far in reverse. -/
def linesFrom (current : List Char) : List Char → List (List Char)
  | [] => if current.isEmpty then [] else [current.reverse]
  | '\n' :: rest => dropReturn current.reverse :: linesFrom [] rest
  | c :: rest => linesFrom (c :: current) rest

def lines (cs : List Char) : List (List Char) := linesFrom [] cs

end EventSearch.Text
