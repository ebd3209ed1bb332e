import EventSearch.Text.Digits

/-!
# Calendar dates

Dates of the Gregorian calendar, extended to all supported years. A date has a padded
text for readers and an unpadded one for documents.
-/
namespace EventSearch

def isLeapYear (year : Int) : Bool :=
  year % 4 == 0 && (year % 100 != 0 || year % 400 == 0)

def daysInMonth (year : Int) (month : Nat) : Nat :=
  match month with
  | 2 => if isLeapYear year then 29 else 28
  | 4 | 6 | 9 | 11 => 30
  | _ => 31

/-- Whether the three numbers name a day of a supported year. -/
def inCalendar (year : Int) (month day : Nat) : Bool :=
  -262143 ≤ year && year ≤ 262142 && 1 ≤ month && month ≤ 12 &&
    1 ≤ day && day ≤ daysInMonth year month

structure Date where
  year : Int
  month : Nat
  day : Nat
  valid : inCalendar year month day = true
deriving DecidableEq, Repr

namespace Date

def of? (year : Int) (month day : Nat) : Option Date :=
  if h : inCalendar year month day = true then some ⟨year, month, day, h⟩ else none

def daysBeforeMonth (year : Int) (month : Nat) : Nat :=
  (List.range (month - 1)).foldl (fun days i => days + daysInMonth year (i + 1)) 0

/-- The count of days since a fixed day. -/
def dayNumber (d : Date) : Int :=
  let past := d.year - 1
  365 * past + past / 4 - past / 100 + past / 400 + daysBeforeMonth d.year d.month + d.day

/-- Years of four digits are plain, others are signed and have at least four digits. -/
def yearText (year : Int) : String :=
  if 0 ≤ year ∧ year ≤ 9999 then Text.padded 4 year.natAbs
  else (if year < 0 then "-" else "+") ++ Text.padded 4 year.natAbs

def display (d : Date) : String :=
  yearText d.year ++ "-" ++ Text.padded 2 d.month ++ "-" ++ Text.padded 2 d.day

/-- The unpadded text. -/
def document (d : Date) : String :=
  Text.signed d.year ++ "-" ++ Text.decimal d.month ++ "-" ++ Text.decimal d.day

/-- The parts of a text around its first two dashes. -/
def parts? (cs : List Char) : Option (List Char × List Char × List Char) :=
  let isDash (c : Char) : Bool := c == '-'
  match cs.span (!isDash ·) with
  | (year, _ :: rest) =>
      match rest.span (!isDash ·) with
      | (month, _ :: day) => some (year, month, day)
      | _ => none
  | _ => none

/-- Reads a date whose parts need no padding and may carry a plus sign. -/
def parse? (text : String) : Option Date := do
  let (year, month, day) ← parts? text.toList
  of? (← Text.integer? year) (← Text.natural? month) (← Text.natural? day)

end Date

end EventSearch
