/-!
# Double precision numbers

A number is its sixty-four bits: a sign, eleven bits of exponent and fifty-two of
fraction. A finite number is a significand times a power of two, and every question
about it is answered with whole numbers.
-/
namespace EventSearch

structure Double where
  bits : UInt64
deriving DecidableEq, Repr, Inhabited

namespace Double

/-- The bits below the sign. They increase with the magnitude. -/
def magnitude (d : Double) : Nat := d.bits.toNat % Nat.pow 2 63

def isNegative (d : Double) : Bool := Nat.pow 2 63 ≤ d.bits.toNat

def exponentField (d : Double) : Nat := d.magnitude / Nat.pow 2 52

def fraction (d : Double) : Nat := d.magnitude % Nat.pow 2 52

/-- The bits of positive infinity. Larger magnitudes are not numbers. -/
def infinityBits : Nat := 2047 * Nat.pow 2 52

def isFinite (d : Double) : Bool := d.magnitude < infinityBits

def isNaN (d : Double) : Bool := infinityBits < d.magnitude

def isZero (d : Double) : Bool := d.magnitude == 0

/-- The number with the given sign and magnitude bits. -/
def ofMagnitude (negative : Bool) (magnitude : Nat) : Double :=
  ⟨UInt64.ofNat (magnitude + if negative then Nat.pow 2 63 else 0)⟩

def zero (negative : Bool) : Double := ofMagnitude negative 0

def infinity (negative : Bool) : Double := ofMagnitude negative infinityBits

def notANumber : Double := ofMagnitude false (infinityBits + Nat.pow 2 51)

def neg (d : Double) : Double := ofMagnitude (!d.isNegative) d.magnitude

/-- A finite magnitude is this many times two to the power of its unit. -/
def significand (d : Double) : Nat :=
  if d.exponentField = 0 then d.fraction else Nat.pow 2 52 + d.fraction

/-- The exponent of the last place of a finite number. -/
def lastPlace (d : Double) : Int := (max d.exponentField 1 : Nat) - 1075

/-- The numerator and denominator of a finite magnitude. -/
def ratio (d : Double) : Nat × Nat :=
  (d.significand * Nat.pow 2 d.lastPlace.toNat, Nat.pow 2 (-d.lastPlace).toNat)

/-- Equality of numbers: the two zeros are equal, and what is not a number equals nothing. -/
def numEq (a b : Double) : Bool :=
  !a.isNaN && (a == b || (a.isZero && b.isZero))

def isNonPositive (d : Double) : Bool := !d.isNaN && (d.isNegative || d.isZero)

end Double

end EventSearch
