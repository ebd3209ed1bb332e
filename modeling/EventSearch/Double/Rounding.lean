import EventSearch.Double.Basic

/-!
# Rounding to binary formats

The nearest number of a binary format to a quotient of whole numbers. Of two equally
near neighbours the one with the even last place is taken, and a magnitude beyond the
largest unit overflows.
-/
namespace EventSearch

/-- The number of significant bits, and the exponents of the smallest and the largest last place. -/
structure BinaryFormat where
  precision : Nat
  minPlace : Int
  maxPlace : Int
deriving DecidableEq, Repr

namespace BinaryFormat

def double : BinaryFormat := ⟨53, -1074, 971⟩

def single : BinaryFormat := ⟨24, -149, 104⟩

/-- The quotient to the nearest whole number, a half to the even one. -/
def roundDiv (num den : Nat) : Nat :=
  let q := num / den
  let r := num % den
  if 2 * r < den then q else if den < 2 * r then q + 1 else q + q % 2

/-- The exponent of the largest power of two that is at most a positive quotient. -/
def floorLog2 (num den : Nat) : Int :=
  let guess : Int := (num.log2 : Int) - den.log2
  if num * Nat.pow 2 (-guess).toNat < den * Nat.pow 2 guess.toNat then guess - 1 else guess

/-- The nearest magnitude, as a count of last places and the exponent of that place. -/
def round? (format : BinaryFormat) (num den : Nat) : Option (Nat × Int) :=
  if num = 0 then some (0, format.minPlace)
  else
    let place := max (floorLog2 num den - (format.precision - 1)) format.minPlace
    let count := roundDiv (num * Nat.pow 2 (-place).toNat) (den * Nat.pow 2 place.toNat)
    let carried := count = Nat.pow 2 format.precision
    let place := if carried then place + 1 else place
    let count := if carried then Nat.pow 2 (format.precision - 1) else count
    if place > format.maxPlace then none else some (count, place)

end BinaryFormat

namespace Double

/-- The nearest double to a quotient, infinite when it overflows. -/
def ofRatio (negative : Bool) (num den : Nat) : Double :=
  match BinaryFormat.double.round? num den with
  | some (count, place) => ofMagnitude negative ((place + 1074).toNat * Nat.pow 2 52 + count)
  | none => infinity negative

/-- The nearest single precision number to a quotient, as a double. -/
def singleOfRatio (negative : Bool) (num den : Nat) : Double :=
  match BinaryFormat.single.round? num den with
  | some (count, place) =>
      ofRatio negative (count * Nat.pow 2 place.toNat) (Nat.pow 2 (-place).toNat)
  | none => infinity negative

def ofInt (n : Int) : Double := ofRatio (n < 0) n.natAbs 1

/-- The product of two finite magnitudes. -/
def mulMagnitude (a b : Double) : Double :=
  ofRatio false (a.ratio.1 * b.ratio.1) (a.ratio.2 * b.ratio.2)

/-- The quotient of two finite magnitudes, the second not zero. -/
def divMagnitude (a b : Double) : Double :=
  ofRatio false (a.ratio.1 * b.ratio.2) (a.ratio.2 * b.ratio.1)

end Double

end EventSearch
