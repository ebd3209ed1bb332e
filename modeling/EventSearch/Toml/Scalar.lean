import EventSearch.Toml.Moment
import EventSearch.Toml.Number
import EventSearch.Toml.Quoted

/-!
# TOML scalars

The values that hold no others, each told from its first characters.
-/
namespace EventSearch.Toml

/-- A number or a date. -/
def number? (cs : List Char) : Option (Toml × List Char) :=
  ((dateTime? cs).or (decimalFloat? cs)).or ((specialFloat? cs).or (integer? cs))

def keyword? : List Char → Option (Toml × List Char)
  | 't' :: 'r' :: 'u' :: 'e' :: rest => some (.boolean true, rest)
  | 'f' :: 'a' :: 'l' :: 's' :: 'e' :: rest => some (.boolean false, rest)
  | _ => none

/-- A value that holds no others. -/
def scalar? (cs : List Char) : Option (Toml × List Char) :=
  match cs with
  | [] => none
  | c :: _ =>
      if c = '"' ∨ c = '\'' then (string? cs).map fun (s, rest) => (.string s, rest)
      else (keyword? cs).or (number? cs)

end EventSearch.Toml
