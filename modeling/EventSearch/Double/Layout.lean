import EventSearch.Double.Shortest

/-!
# Layouts of doubles

Two ways to write the shortest digits of a double: with a point at its place however far
that is, or in the range of ordinary sizes with a point and outside it with an exponent.
-/
namespace EventSearch.Double

def zeros (n : Nat) : List Char := List.replicate n '0'

/-- The whole part and the places after the point. -/
def positional (s : Scientific) : List Char × List Char :=
  if s.exponent < 0 then (['0'], zeros (-s.exponent - 1).toNat ++ s.digits)
  else
    let width := s.exponent.toNat + 1
    (s.digits.take width ++ zeros (width - s.digits.length), s.digits.drop width)

def withSign (d : Double) (cs : List Char) : String :=
  String.ofList (if d.isNegative then '-' :: cs else cs)

/-- The text for readers: never an exponent, no point after a whole number, and a tie goes up. -/
def display (d : Double) : String :=
  if d.isNaN then "NaN"
  else if !d.isFinite then withSign d ['i', 'n', 'f']
  else if d.isZero then withSign d ['0']
  else
    let (whole, places) := positional (shortest .up d)
    withSign d (if places.isEmpty then whole else whole ++ '.' :: places)

/-- Exponents from here on are written out with a point. -/
def minPositional : Int := -5

/-- Exponents from here on are written with an exponent. -/
def minScientific : Int := 16

def scientific (s : Scientific) : List Char :=
  let mantissa := match s.digits with
    | [] => []
    | [c] => [c]
    | c :: rest => c :: '.' :: rest
  let sign := if s.exponent < 0 then '-' else '+'
  mantissa ++ 'e' :: sign :: Text.digitsIn 10 s.exponent.natAbs

/-- The text in documents, for finite numbers: always a point or an exponent, and a tie goes to
the even digit. -/
def document (d : Double) : String :=
  if d.isZero then withSign d ['0', '.', '0']
  else
    let s := shortest .even d
    if minPositional ≤ s.exponent ∧ s.exponent < minScientific then
      let (whole, places) := positional s
      withSign d (whole ++ '.' :: if places.isEmpty then ['0'] else places)
    else withSign d (scientific s)

end EventSearch.Double
