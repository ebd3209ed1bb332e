import EventSearch.Double.Rounding
import EventSearch.Json.Basic
import EventSearch.Text.Digits

/-!
# Numbers in JSON texts

A number without fraction and exponent that fits sixty-four bits is a whole number. Any
other is a double, read in steps: as many leading digits as fit sixty-four bits form a
significand, which is rounded to a double and then multiplied or divided by the double
nearest to a power of ten. Minus zero is a double, and overflow is an error.
-/
namespace EventSearch.Json

/-- Whole numbers up to here are kept digit by digit. -/
def maxSignificand : Nat := Nat.pow 2 64 - 1

/-- The power of ten of the largest double of that form. -/
def maxPower : Nat := 308

def powerOfTen (n : Nat) : Double := Double.ofRatio false (Nat.pow 10 n) 1

/-- The significand that the digits extend, and the digits that do not fit. -/
def takeSignificand (acc : Nat) : List Char → Nat × List Char
  | [] => (acc, [])
  | c :: cs =>
      let next := 10 * acc + (c.toNat - 48)
      if next ≤ maxSignificand then takeSignificand next cs else (acc, c :: cs)

/-- Divides by powers of ten until the exponent is small enough for one of them. -/
def scaleDown : Nat → Double → Nat → Double
  | 0, d, _ => d
  | fuel + 1, d, power =>
      if power ≤ maxPower then d.divMagnitude (powerOfTen power)
      else if d.isZero then d
      else scaleDown fuel (d.divMagnitude (powerOfTen maxPower)) (power - maxPower)

/-- The significand times a power of ten, infinite when it overflows. -/
def scaled (significand : Nat) (power : Int) : Double :=
  let d := Double.ofRatio false significand 1
  if power < 0 then scaleDown 4 d power.natAbs
  else if power ≤ maxPower then d.mulMagnitude (powerOfTen power.toNat)
  else if d.isZero then d
  else .infinity false

/-- Exponents beyond this are cut off before they are applied. -/
def maxExponent : Nat := Nat.pow 2 31 - 1

/-- The exponent after its mark, which needs at least one digit. -/
def exponent? (cs : List Char) : Option (Bool × Nat × List Char) :=
  let (negative, cs) := match cs with
    | '+' :: rest => (false, rest)
    | '-' :: rest => (true, rest)
    | _ => (false, cs)
  let digits := cs.takeWhile Text.isDigit
  if digits.isEmpty then none
  else some (negative, Text.ofDigits digits, cs.dropWhile Text.isDigit)

/-- A double whose significand and power of ten are known up to an exponent that may follow. -/
def finishDouble (negative : Bool) (significand : Nat) (power : Int) (cs : List Char) :
    Option (Json × List Char) :=
  let signed (d : Double) (rest : List Char) : Option (Json × List Char) :=
    (double? (if negative then d.neg else d)).map fun number => (number, rest)
  let plain := signed (scaled significand power) cs
  match cs with
  | mark :: rest =>
      if mark = 'e' ∨ mark = 'E' then do
        let (down, size, rest) ← exponent? rest
        if maxExponent < size then
          if significand ≠ 0 ∧ !down then none else signed (.zero false) rest
        else signed (scaled significand (if down then power - size else power + size)) rest
      else plain
  | [] => plain

/-- The places after a point, which follows digits of the given power of ten. -/
def fractionPart (negative : Bool) (significand : Nat) (power : Int) (cs : List Char) :
    Option (Json × List Char) :=
  let places := cs.takeWhile Text.isDigit
  if places.isEmpty then none
  else
    let (total, dropped) := takeSignificand significand places
    let used := places.length - dropped.length
    finishDouble negative total (power - used) (cs.dropWhile Text.isDigit)

/-- A number without its sign. A zero is not followed by further digits. -/
def magnitude? (negative : Bool) (cs : List Char) : Option (Json × List Char) :=
  let whole := cs.takeWhile Text.isDigit
  let rest := cs.dropWhile Text.isDigit
  if whole.isEmpty || (whole.length > 1 && whole.head? == some '0') then none
  else
    let (significand, dropped) := takeSignificand 0 whole
    match rest with
    | '.' :: rest => fractionPart negative significand dropped.length rest
    | _ =>
        if !dropped.isEmpty || rest.head? == some 'e' || rest.head? == some 'E' then
          finishDouble negative significand dropped.length rest
        else if negative ∧ (significand = 0 ∨ Nat.pow 2 63 < significand) then
          (double? (Double.ofRatio true significand 1)).map fun number => (number, rest)
        else
          (int? (if negative then -significand else significand)).map fun number => (number, rest)

def number? : List Char → Option (Json × List Char)
  | '-' :: cs => magnitude? true cs
  | cs => magnitude? false cs

end EventSearch.Json
