import EventSearch.Double.Layout
import EventSearch.Text.Quoted
import EventSearch.Time.DateTime

/-!
# Literal values

What a field can be compared with: scalars, strings, dates, points in time and geographic
regions. Whole numbers have sixty-four bits.
-/
namespace EventSearch

/-- A position by latitude and longitude. -/
structure Point where
  lat : Double
  lon : Double
deriving DecidableEq, Repr

inductive Region where
  | circle (center : Point) (radius : Double)
  | polygon (points : List Point)
deriving DecidableEq, Repr

inductive Value where
  | bool (b : Bool)
  | int (n : Int64)
  | double (d : Double)
  | string (s : String)
  | date (d : Date)
  | dateTime (t : DateTime)
  | region (r : Region)
deriving DecidableEq, Repr

namespace Point

def numEq (a b : Point) : Bool := a.lat.numEq b.lat && a.lon.numEq b.lon

def coordinates (p : Point) : List Double := [p.lat, p.lon]

end Point

namespace Region

def tag : Region → String
  | .circle .. => "circle"
  | .polygon _ => "polygon"

/-- All numbers of a region, in the order in which they are written. -/
def coordinates : Region → List Double
  | .circle center radius => center.coordinates ++ [radius]
  | .polygon points => points.flatMap Point.coordinates

def pointsEq : List Point → List Point → Bool
  | [], [] => true
  | p :: ps, q :: qs => p.numEq q && pointsEq ps qs
  | _, _ => false

def numEq : Region → Region → Bool
  | .circle c r, .circle c' r' => c.numEq c' && r.numEq r'
  | .polygon ps, .polygon qs => pointsEq ps qs
  | _, _ => false

end Region

namespace Value

def tag : Value → String
  | .bool _ => "bool"
  | .int _ => "int"
  | .double _ => "double"
  | .string _ => "string"
  | .date _ => "date"
  | .dateTime _ => "datetime"
  | .region r => r.tag

def isRegion : Value → Bool
  | .region _ => true
  | _ => false

/-- The doubles that a value holds. -/
def doubles : Value → List Double
  | .double d => [d]
  | .region r => r.coordinates
  | _ => []

/-- Whether every double of the value has a JSON form. -/
def isFinite (v : Value) : Bool := v.doubles.all Double.isFinite

/-- The offset of a point in time that is not given in universal time. -/
def offset? : Value → Option Offset
  | .dateTime t => if t.offset.seconds = 0 then none else some t.offset
  | _ => none

def display : Value → String
  | .bool b => if b then "true" else "false"
  | .int n => Text.signed n.toInt
  | .double d => d.display
  | .string s => Text.quoted s
  | .date d => d.display
  | .dateTime t => t.iso
  | .region r => r.tag

/-- Equality of what values denote: doubles as numbers and points in time as instants. -/
def same : Value → Value → Bool
  | .bool a, .bool b => a == b
  | .int a, .int b => a == b
  | .double a, .double b => a.numEq b
  | .string a, .string b => a == b
  | .date a, .date b => a == b
  | .dateTime a, .dateTime b => a.instant == b.instant
  | .region a, .region b => a.numEq b
  | _, _ => false

end Value

end EventSearch
