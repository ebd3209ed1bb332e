import EventSearch.Time.Date
import EventSearch.Time.Offset

/-!
# Points in time

A wall clock reading on a date at an offset. Equality and order are those of the instants
that the readings denote. A leap second is kept as nanoseconds beyond the second before it,
which are written as those of one more second.
-/
namespace EventSearch

/-- Whether the numbers are a reading of a clock. Any second can have nanoseconds beyond it: at
an offset with seconds a leap second does not come after the fifty-ninth. -/
def onClock (hour minute second nanos : Nat) : Bool :=
  hour < 24 && minute < 60 && second < 60 && nanos < 2000000000

structure Clock where
  hour : Nat
  minute : Nat
  second : Nat
  nanos : Nat
  valid : onClock hour minute second nanos = true
deriving DecidableEq, Repr

namespace Clock

/-- The reading that is stated by its numbers. A leap second is stated after the fifty-ninth
only. -/
def of? (hour minute second nanos : Nat) : Option Clock :=
  if h : onClock hour minute second nanos = true ∧ (1000000000 ≤ nanos → second = 59) then
    some ⟨hour, minute, second, nanos, h.1⟩
  else none

def midnight : Clock := ⟨0, 0, 0, 0, by decide⟩

def secondOfDay (c : Clock) : Nat := c.hour * 3600 + c.minute * 60 + c.second

/-- The fraction of a second with no digits, or with three, six or nine. -/
def fractionText (nanos : Nat) : String :=
  if nanos = 0 then ""
  else if nanos % 1000000 = 0 then "." ++ Text.padded 3 (nanos / 1000000)
  else if nanos % 1000 = 0 then "." ++ Text.padded 6 (nanos / 1000)
  else "." ++ Text.padded 9 nanos

def text (c : Clock) : String :=
  let leap := 1000000000 ≤ c.nanos
  let second := if leap then c.second + 1 else c.second
  let nanos := if leap then c.nanos - 1000000000 else c.nanos
  Text.padded 2 c.hour ++ ":" ++ Text.padded 2 c.minute ++ ":" ++ Text.padded 2 second ++
    fractionText nanos

end Clock

/-- The seconds and nanoseconds since a fixed instant. -/
structure Instant where
  seconds : Int
  nanos : Nat
deriving DecidableEq, Repr

def Instant.before (a b : Instant) : Bool :=
  a.seconds < b.seconds || (a.seconds == b.seconds && a.nanos < b.nanos)

structure DateTime where
  date : Date
  clock : Clock
  offset : Offset
deriving DecidableEq, Repr

namespace DateTime

def midnight (date : Date) : DateTime := ⟨date, .midnight, .utc⟩

def instant (t : DateTime) : Instant :=
  ⟨t.date.dayNumber * 86400 + t.clock.secondOfDay - t.offset.seconds, t.clock.nanos⟩

/-- Date, clock and offset in the format of RFC 3339. -/
def iso (t : DateTime) : String :=
  t.date.display ++ "T" ++ t.clock.text ++ t.offset.rounded

end DateTime

end EventSearch
