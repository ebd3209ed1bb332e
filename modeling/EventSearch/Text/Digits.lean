/-!
# Digits

Numbers written with digits, and digits read as numbers.
-/
namespace EventSearch.Text

/-- The value of an ASCII digit. -/
def digitValue? (c : Char) : Option Nat :=
  if '0' ≤ c ∧ c ≤ '9' then some (c.toNat - 48) else none

def isDigit (c : Char) : Bool := (digitValue? c).isSome

/-- The value of a hexadecimal digit of either case. -/
def hexValue? (c : Char) : Option Nat :=
  if '0' ≤ c ∧ c ≤ '9' then some (c.toNat - 48)
  else if 'a' ≤ c ∧ c ≤ 'f' then some (c.toNat - 87)
  else if 'A' ≤ c ∧ c ≤ 'F' then some (c.toNat - 55)
  else none

/-- The number that ASCII digits denote, most significant first. -/
def ofDigits (cs : List Char) : Nat :=
  cs.foldl (fun n c => 10 * n + (c.toNat - 48)) 0

/-- The digits of a number, most significant first, in lower case. -/
def digitsIn (base n : Nat) : List Char := Nat.toDigits base n

def decimal (n : Nat) : String := String.ofList (digitsIn 10 n)

def hexadecimal (n : Nat) : String := String.ofList (digitsIn 16 n)

def signed (n : Int) : String :=
  if n < 0 then "-" ++ decimal n.natAbs else decimal n.natAbs

/-- Digits with zeros in front up to the width. -/
def zeroPadded (width : Nat) (digits : List Char) : List Char :=
  List.replicate (width - digits.length) '0' ++ digits

def padded (width n : Nat) : String := String.ofList (zeroPadded width (digitsIn 10 n))

/-- The value of a text made of digits only, with an optional plus sign in front. -/
def natural? (cs : List Char) : Option Nat :=
  let digits := match cs with
    | '+' :: rest => rest
    | _ => cs
  if digits.isEmpty || !digits.all isDigit then none else some (ofDigits digits)

/-- The value of a text made of digits only, with an optional sign in front. -/
def integer? (cs : List Char) : Option Int :=
  match cs with
  | '-' :: '+' :: _ => none
  | '-' :: rest => (natural? rest).map fun n => -(n : Int)
  | _ => (natural? cs).map fun n => (n : Int)

end EventSearch.Text
