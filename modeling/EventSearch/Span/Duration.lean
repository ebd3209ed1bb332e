import EventSearch.Json.Basic
import EventSearch.Text.Digits

/-!
# Durations

A duration counts calendar units and is not reduced to seconds. Its length in seconds takes
thirty days for a month and 365 for a year, and sums and lengths stop at the largest word.
-/
namespace EventSearch

inductive TimeUnit where
  | second | minute | hour | day | week | month | year
deriving DecidableEq, Repr

namespace TimeUnit

/-- From the shortest to the longest. -/
def all : List TimeUnit := [.second, .minute, .hour, .day, .week, .month, .year]

def name : TimeUnit → String
  | .second => "seconds"
  | .minute => "minutes"
  | .hour => "hours"
  | .day => "days"
  | .week => "weeks"
  | .month => "months"
  | .year => "years"

def symbol : TimeUnit → String
  | .second => "s"
  | .minute => "m"
  | .hour => "h"
  | .day => "d"
  | .week => "w"
  | .month => "mo"
  | .year => "y"

def seconds : TimeUnit → UInt64
  | .second => 1
  | .minute => 60
  | .hour => 3600
  | .day => 86400
  | .week => 604800
  | .month => 2592000
  | .year => 31536000

end TimeUnit

/-- The largest word, where sums and products stop. -/
def maxWord : Nat := Nat.pow 2 64 - 1

def saturated (n : Nat) : UInt64 := UInt64.ofNat (min n maxWord)

def saturatingAdd (a b : UInt64) : UInt64 := saturated (a.toNat + b.toNat)

def saturatingMul (a b : UInt64) : UInt64 := saturated (a.toNat * b.toNat)

structure Duration where
  seconds : UInt64 := 0
  minutes : UInt64 := 0
  hours : UInt64 := 0
  days : UInt64 := 0
  weeks : UInt64 := 0
  months : UInt64 := 0
  years : UInt64 := 0
deriving DecidableEq, Repr

namespace Duration

def zero : Duration := {}

def count (d : Duration) : TimeUnit → UInt64
  | .second => d.seconds
  | .minute => d.minutes
  | .hour => d.hours
  | .day => d.days
  | .week => d.weeks
  | .month => d.months
  | .year => d.years

/-- The duration with the given count of each unit. -/
def ofCounts (count : TimeUnit → UInt64) : Duration :=
  ⟨count .second, count .minute, count .hour, count .day, count .week, count .month, count .year⟩

def isZero (d : Duration) : Bool := d == zero

/-- The sum unit by unit. -/
def add (a b : Duration) : Duration :=
  ofCounts fun unit => saturatingAdd (a.count unit) (b.count unit)

/-- The length in seconds, summed from the shortest unit to the longest. -/
def length (d : Duration) : UInt64 :=
  TimeUnit.all.foldl
    (fun sum unit => saturatingAdd sum (saturatingMul (d.count unit) unit.seconds)) 0

/-- Durations are ordered by their lengths. -/
def compareLength (a b : Duration) : Ordering := compare a.length b.length

/-- The shorter of two durations, the first of two equally long ones. -/
def shortest (a b : Duration) : Duration := if b.length < a.length then b else a

/-- The longer of two durations, the first of two equally long ones. -/
def longest (a b : Duration) : Duration := if a.length < b.length then b else a

/-- The units that occur, from the shortest to the longest. -/
def present (d : Duration) : List TimeUnit := TimeUnit.all.filter fun unit => 0 < d.count unit

def encode (d : Duration) : Json :=
  if d.isZero then .obj [(TimeUnit.second.name, .ofUInt64 0)]
  else Json.object (d.present.map fun unit => (unit.name, .ofUInt64 (d.count unit)))

/-- The counts with their units, the longest first. -/
def display (d : Duration) : String :=
  if d.isZero then "0" ++ TimeUnit.second.symbol
  else String.join (d.present.reverse.map fun unit =>
    Text.decimal (d.count unit).toNat ++ unit.symbol)

end Duration

end EventSearch
