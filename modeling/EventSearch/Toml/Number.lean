import EventSearch.Double.Reader
import EventSearch.Toml.Basic

/-!
# TOML numbers

Whole numbers in four bases that fit sixty-four bits with sign, and floats. Underscores may
stand between digits.
-/
namespace EventSearch.Toml

/-- The digits of a run in which single underscores stand between digits. -/
def withoutUnderscores? : List Char → Option (List Char)
  | [] => none
  | [c] => if c = '_' then none else some [c]
  | c :: '_' :: more => if c = '_' then none else (withoutUnderscores? more).map (c :: ·)
  | c :: more => if c = '_' then none else (withoutUnderscores? more).map (c :: ·)

/-- Digits of a kind, and what is behind them. -/
def digits? (isDigit : Char → Bool) (cs : List Char) : Option (List Char × List Char) :=
  let run := cs.takeWhile fun c => isDigit c || c == '_'
  (withoutUnderscores? run).map fun digits => (digits, cs.drop run.length)

def sign? : List Char → Bool × List Char
  | '-' :: rest => (true, rest)
  | '+' :: rest => (false, rest)
  | cs => (false, cs)

/-- Digits that do not start with a zero unless there is nothing else. -/
def wholeDigits? (cs : List Char) : Option (List Char × List Char) :=
  match cs with
  | '0' :: rest => some (['0'], rest)
  | _ => digits? Text.isDigit cs

/-- A whole number that fits sixty-four bits with sign. -/
def inRange? (n : Int) (rest : List Char) : Option (Toml × List Char) :=
  if -0x8000000000000000 ≤ n ∧ n < 0x8000000000000000 then some (.integer n, rest) else none

def based? (base : Nat) (isDigit : Char → Bool) (cs : List Char) : Option (Toml × List Char) := do
  let (digits, rest) ← digits? isDigit cs
  let values ← digits.mapM Text.hexValue?
  inRange? (values.foldl (fun n v => base * n + v) 0 : Nat) rest

def integer? (cs : List Char) : Option (Toml × List Char) :=
  match cs with
  | '0' :: 'x' :: rest => based? 16 (fun c => (Text.hexValue? c).isSome) rest
  | '0' :: 'o' :: rest => based? 8 (fun c => '0' ≤ c && c ≤ '7') rest
  | '0' :: 'b' :: rest => based? 2 (fun c => c == '0' || c == '1') rest
  | _ => do
      let (negative, cs) := sign? cs
      let (digits, rest) ← wholeDigits? cs
      let n : Int := Text.ofDigits digits
      inRange? (if negative then -n else n) rest

/-- The digits after an exponent mark, with their sign. -/
def exponent? : List Char → Option (List Char × List Char)
  | c :: rest =>
      if c = 'e' ∨ c = 'E' then do
        let (negative, rest) := sign? rest
        let (digits, rest) ← digits? Text.isDigit rest
        some ('e' :: (if negative then '-' else '+') :: digits, rest)
      else none
  | [] => none

/-- A number with a fraction or an exponent, unless it overflows upwards. -/
def decimalFloat? (cs : List Char) : Option (Toml × List Char) := do
  let (negative, cs) := sign? cs
  let (whole, rest) ← wholeDigits? cs
  let (text, rest) ← match rest with
    | '.' :: rest => do
        let (places, rest) ← digits? Text.isDigit rest
        match rest with
        | 'e' :: _ | 'E' :: _ => do
            let (power, rest) ← exponent? rest
            some (whole ++ '.' :: places ++ power, rest)
        | _ => some (whole ++ '.' :: places, rest)
    | _ => do
        let (power, rest) ← exponent? rest
        some (whole ++ power, rest)
  let d ← Double.read? (String.ofList (if negative then '-' :: text else text))
  if d = Double.infinity false then none else some (.float d, rest)

def specialFloat? (cs : List Char) : Option (Toml × List Char) :=
  let (negative, cs) := sign? cs
  match cs with
  | 'i' :: 'n' :: 'f' :: rest => some (.float (Double.infinity negative), rest)
  | 'n' :: 'a' :: 'n' :: rest => some (.float .notANumber, rest)
  | _ => none

end EventSearch.Toml
