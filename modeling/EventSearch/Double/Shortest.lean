import EventSearch.Double.Basic
import EventSearch.Text.Digits

/-!
# Shortest decimal digits

The fewest decimal digits that read back as a given double, and of those the nearest to
it. A decimal reads back exactly when it lies in the interval of reals that round to the
double, whose ends belong to it when the significand is even. A double halfway between
two such decimals is written as a tie rule says.
-/
namespace EventSearch

/-- Digits without zeros at the end, and the power of ten of the first of them. -/
structure Scientific where
  digits : List Char
  exponent : Int
deriving DecidableEq, Repr

/-- Which of two equally near decimals is taken: the larger one, or the one with an even last
digit. -/
inductive Tie where
  | up | even
deriving DecidableEq, Repr

/-- Whether the smaller of two neighbours wins a tie. -/
def Tie.keepsBelow (tie : Tie) (below : Nat) : Bool :=
  match tie with
  | .up => false
  | .even => below % 2 == 0

namespace Double

/-- The exponent of the largest power of ten that is at most a positive quotient. -/
def floorLog10 (num den : Nat) : Int :=
  let guess : Int := ((Text.digitsIn 10 num).length : Int) - (Text.digitsIn 10 den).length
  if num * Nat.pow 10 (-guess).toNat < den * Nat.pow 10 guess.toNat then guess - 1 else guess

/-- Reals that round to a double, in quarters of its last place. -/
structure Interval where
  lower : Nat
  value : Nat
  upper : Nat
  closed : Bool

/-- Below a power of two the last place is half as large, so the interval is narrower there. -/
def interval (d : Double) : Interval :=
  let narrow := d.fraction = 0 ∧ 1 < d.exponentField
  let value := 4 * d.significand
  ⟨value - if narrow then 1 else 2, value, value + 2, d.significand % 2 = 0⟩

/-- The multiple of a power of ten that lies in the interval, the nearer one of two. -/
def multiple? (tie : Tie) (d : Double) (power : Int) : Option Nat :=
  let span := d.interval
  let place := d.lastPlace - 2
  let quarter := Nat.pow 2 place.toNat * Nat.pow 10 (-power).toNat
  let grid := Nat.pow 10 power.toNat * Nat.pow 2 (-place).toNat
  let inside (c : Nat) : Bool :=
    if span.closed then span.lower * quarter ≤ c * grid && c * grid ≤ span.upper * quarter
    else span.lower * quarter < c * grid && c * grid < span.upper * quarter
  let below := span.value * quarter / grid
  let twice := 2 * (span.value * quarter)
  let middle := (2 * below + 1) * grid
  let nearBelow := twice < middle || (twice == middle && tie.keepsBelow below)
  if inside below && (nearBelow || !inside (below + 1)) then some below
  else if inside (below + 1) then some (below + 1)
  else none

def stripZeros (cs : List Char) : List Char :=
  (cs.reverse.dropWhile (· = '0')).reverse

/-- The shortest digits of a finite number other than zero. Seventeen always suffice. -/
def shortest (tie : Tie) (d : Double) : Scientific :=
  let top := floorLog10 d.ratio.1 d.ratio.2
  let found := (List.range 17).findSome? fun (n : Nat) =>
    (multiple? tie d (top - n)).map fun c => (c, top - (n : Int))
  match found with
  | some (c, power) =>
      let digits := Text.digitsIn 10 c
      ⟨stripZeros digits, power + digits.length - 1⟩
  | none => ⟨[], 0⟩

end Double

end EventSearch
