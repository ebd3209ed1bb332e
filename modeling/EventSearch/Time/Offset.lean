import EventSearch.Text.Digits

/-!
# Offsets from universal time

A whole number of seconds east of universal time, shorter than a day.
-/
namespace EventSearch

structure Offset where
  seconds : Int
  lt_day : seconds.natAbs < 86400
deriving DecidableEq, Repr

namespace Offset

def of? (seconds : Int) : Option Offset :=
  if h : seconds.natAbs < 86400 then some ⟨seconds, h⟩ else none

def utc : Offset := ⟨0, by decide⟩

def sign (o : Offset) : String := if o.seconds < 0 then "-" else "+"

def hoursMinutes (o : Offset) (minutes : Nat) : String :=
  o.sign ++ Text.padded 2 (minutes / 60) ++ ":" ++ Text.padded 2 (minutes % 60)

/-- Hours and minutes, and the seconds when there are any. -/
def display (o : Offset) : String :=
  let s := o.seconds.natAbs
  o.hoursMinutes (s / 60) ++ if s % 60 = 0 then "" else ":" ++ Text.padded 2 (s % 60)

/-- Hours and minutes, rounded to the nearest minute with half a minute away from zero. -/
def rounded (o : Offset) : String := o.hoursMinutes ((o.seconds.natAbs + 30) / 60)

end Offset

end EventSearch
