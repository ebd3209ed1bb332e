import EventSearch.Double.Rounding
import EventSearch.Time.Rfc3339
import EventSearch.Value.Checked

/-!
# Literals in documents

A value is encoded as an object that holds its tag and its content. Decoding reads the tag
first and takes no content of another kind, except a whole number for a double.
-/
namespace EventSearch

/-- The object of a tag and a content. -/
def literal (tag : String) (content : Json) : Json := .obj [("type", .str tag), ("val", content)]

/-- A number of either kind, a whole one rounded to the nearest double. -/
def Json.number : Json → Option Double
  | .int n _ => some (.ofInt n)
  | .double d _ => some d
  | _ => none

namespace Point

def encode (p : Point) : Json := .arr [.ofDouble p.lat, .ofDouble p.lon]

/-- The first two numbers of an array. -/
def decode? : Json → Option Point
  | .arr (lat :: lon :: _) => do some ⟨← lat.number, ← lon.number⟩
  | _ => none

end Point

namespace Region

def content : Region → Json
  | .circle center radius => .obj [("center", center.encode), ("radius", .ofDouble radius)]
  | .polygon points => .arr (points.map Point.encode)

def decodeCircle? (content : Json) : Option Region := do
  let center ← (← content.get? "center") |> Point.decode?
  let radius ← (← content.get? "radius").number
  some (.circle center radius)

def decodePolygon? (content : Json) : Option Region := do
  some (.polygon (← (← content.arr?).mapM Point.decode?))

end Region

namespace Value

def content : Value → Json
  | .bool b => .bool b
  | .int n => .ofInt64 n
  | .double d => .ofDouble d
  | .string s => .str s
  | .date d => .str d.document
  | .dateTime t => .str t.iso
  | .region r => r.content

def encode (v : Value) : Json := literal v.tag v.content

def int? : Json → Option Int64
  | .int n _ => int64? n
  | _ => none

/-- The value that a tag and a content denote, or the reason why there is none. -/
def decodeContent (object : Json) (tag : String) (content : Json) : Except QueryError Value :=
  let scalar (value : Option Value) : Except QueryError Value :=
    match value with
    | some v => .ok v
    | none => .error (.badLiteral tag content)
  let region (value : Option Region) : Except QueryError Value :=
    match value with
    | some r => .ok (.region r)
    | none => .error (.badRegion object)
  match tag with
  | "bool" => scalar (content.bool?.map .bool)
  | "int" => scalar ((int? content).map .int)
  | "double" => scalar (content.number.map .double)
  | "string" => scalar (content.str?.map .string)
  | "date" => scalar ((content.str?.bind Date.parse?).map .date)
  | "datetime" => scalar ((content.str?.bind Rfc3339.parse?).map .dateTime)
  | "circle" => region (Region.decodeCircle? content)
  | "polygon" => region (Region.decodePolygon? content)
  | _ => .error (.unknownTag tag)

def decode (object : Json) : Except QueryError Value :=
  match (object.get? "type").bind Json.str?, object.get? "val" with
  | none, _ => .error (.missingTag object)
  | some _, none => .error (.missingValue object)
  | some tag, some content => decodeContent object tag content

end Value

end EventSearch
