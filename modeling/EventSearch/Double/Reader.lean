import EventSearch.Double.Rounding
import EventSearch.Text.Digits

/-!
# Reading decimal texts

A decimal text denotes a coefficient times a power of ten, which is rounded once. The
texts of infinity and of what is not a number are read in any case of letters.
-/
namespace EventSearch

/-- A coefficient times a power of ten. -/
structure Decimal where
  coefficient : Nat
  exponent : Int
deriving DecidableEq, Repr

namespace Decimal

/-- Digits with an optional point among or around them and an optional exponent. -/
def read? (cs : List Char) : Option Decimal :=
  let whole := cs.takeWhile Text.isDigit
  let (places, rest) := match cs.dropWhile Text.isDigit with
    | '.' :: rest => (rest.takeWhile Text.isDigit, rest.dropWhile Text.isDigit)
    | rest => ([], rest)
  let coefficient := Text.ofDigits (whole ++ places)
  if whole.isEmpty && places.isEmpty then none
  else match rest with
    | [] => some ⟨coefficient, -places.length⟩
    | mark :: power =>
        if mark = 'e' ∨ mark = 'E' then
          (Text.integer? power).map fun n => ⟨coefficient, n - places.length⟩
        else none

/-- Numerator and denominator. Powers that no binary format can tell from zero or from
infinity are cut off. -/
def ratio (d : Decimal) : Nat × Nat :=
  let top := d.exponent + (Text.digitsIn 10 d.coefficient).length
  if d.coefficient = 0 ∨ top < -400 then (0, 1)
  else if 400 < top then (Nat.pow 10 400, 1)
  else (d.coefficient * Nat.pow 10 d.exponent.toNat, Nat.pow 10 (-d.exponent).toNat)

end Decimal

namespace Double

/-- The texts of the magnitudes that are not finite. -/
def special? (cs : List Char) : Option Double :=
  match String.ofList (cs.map Char.toLower) with
  | "inf" | "infinity" => some (infinity false)
  | "nan" => some notANumber
  | _ => none

/-- An optional sign and a magnitude, which the rounding turns into a number. -/
def readWith? (rounding : Bool → Nat → Nat → Double) (text : String) : Option Double :=
  let (negative, cs) := match text.toList with
    | '-' :: rest => (true, rest)
    | '+' :: rest => (false, rest)
    | cs => (false, cs)
  match special? cs with
  | some d => some (if negative then d.neg else d)
  | none => (Decimal.read? cs).map fun d => rounding negative d.ratio.1 d.ratio.2

def read? : String → Option Double := readWith? ofRatio

/-- Reads a number that is first rounded to single precision. -/
def readSingle? : String → Option Double := readWith? singleOfRatio

end Double

end EventSearch
