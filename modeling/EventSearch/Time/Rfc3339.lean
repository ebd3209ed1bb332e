import EventSearch.Time.DateTime

/-!
# Reading RFC 3339 texts

Every number has a fixed width except the fraction of a second, of which nine digits
count. Second sixty is a leap second at any minute, and an offset stays below a day.
-/
namespace EventSearch.Rfc3339

/-- A number of exactly so many digits. -/
def fixed? (width : Nat) (cs : List Char) : Option (Nat × List Char) :=
  let digits := cs.take width
  if digits.length = width ∧ digits.all Text.isDigit then
    some (Text.ofDigits digits, cs.drop width)
  else none

def skip? (p : Char → Bool) : List Char → Option (List Char)
  | c :: rest => if p c then some rest else none
  | [] => none

/-- The nanoseconds after a point, if there is one. -/
def nanos? : List Char → Option (Nat × List Char)
  | '.' :: rest =>
      let digits := rest.takeWhile Text.isDigit
      if digits.isEmpty then none
      else
        let kept := digits.take 9
        some (Text.ofDigits kept * Nat.pow 10 (9 - kept.length), rest.dropWhile Text.isDigit)
  | cs => some (0, cs)

/-- The seconds east of an offset. The minus sign may be typographic. -/
def offset? : List Char → Option (Int × List Char)
  | [] => none
  | c :: rest =>
      if c = 'Z' ∨ c = 'z' then some (0, rest)
      else if c = '+' ∨ c = '-' ∨ c = '\u2212' then do
        let (hours, rest) ← fixed? 2 rest
        let rest ← skip? (· == ':') rest
        let (minutes, rest) ← fixed? 2 rest
        if hours < 24 ∧ minutes < 60 then
          let seconds : Int := (hours * 3600 + minutes * 60 : Nat)
          some (if c = '+' then seconds else -seconds, rest)
        else none
      else none

def read? (cs : List Char) : Option DateTime := do
  let (year, cs) ← fixed? 4 cs
  let cs ← skip? (· == '-') cs
  let (month, cs) ← fixed? 2 cs
  let cs ← skip? (· == '-') cs
  let (day, cs) ← fixed? 2 cs
  let cs ← skip? (fun c => c == 'T' || c == 't' || c == ' ') cs
  let (hour, cs) ← fixed? 2 cs
  let cs ← skip? (· == ':') cs
  let (minute, cs) ← fixed? 2 cs
  let cs ← skip? (· == ':') cs
  let (second, cs) ← fixed? 2 cs
  let (nanos, cs) ← nanos? cs
  let (east, cs) ← offset? cs
  if !cs.isEmpty then none
  else
    let date ← Date.of? year month day
    let clock ←
      if second = 60 then Clock.of? hour minute 59 (nanos + 1000000000)
      else Clock.of? hour minute second nanos
    some ⟨date, clock, ← Offset.of? east⟩

def parse? (text : String) : Option DateTime := read? text.toList

end EventSearch.Rfc3339
