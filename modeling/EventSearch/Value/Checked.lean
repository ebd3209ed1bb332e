import EventSearch.QueryError

/-!
# Checked values

Values whose doubles are all finite, and regions that have a positive radius or enough
points. JSON scalars are values when they have a literal form.
-/
namespace EventSearch

/-- The first double without a JSON form is at fault. -/
def Region.finiteFault? (r : Region) : Option QueryError :=
  (r.coordinates.find? fun d => !d.isFinite).map .nonFiniteCoordinate

namespace Region

/-- A circle of positive radius. -/
def checkedCircle (lat lon radius : Double) : Except QueryError Region :=
  let region := circle ⟨lat, lon⟩ radius
  match region.finiteFault? with
  | some e => .error e
  | none => if radius.isNonPositive then .error (.radiusNotPositive radius) else .ok region

/-- A polygon of three points or more. -/
def checkedPolygon (points : List Point) : Except QueryError Region :=
  if points.length < 3 then .error (.tooFewPoints points.length)
  else
    let region := polygon points
    match region.finiteFault? with
    | some e => .error e
    | none => .ok region

end Region

namespace Value

/-- Why a value has no JSON form, if it has none. -/
def finiteFault? : Value → Option QueryError
  | .double d => if d.isFinite then none else some (.nonFiniteDouble d)
  | .region r => r.finiteFault?
  | _ => none

theorem finiteFault?_eq_none_iff (v : Value) : v.finiteFault? = none ↔ v.isFinite = true := by
  cases v with
  | region r =>
      simp [finiteFault?, Region.finiteFault?, isFinite, doubles, List.all_eq_true]
  | _ => simp [finiteFault?, isFinite, doubles]

def requireFinite (v : Value) : Except QueryError Unit :=
  match v.finiteFault? with
  | some e => .error e
  | none => .ok ()

/-- A whole number of sixty-four bits with sign. -/
def int64? (n : Int) : Option Int64 :=
  if -0x8000000000000000 ≤ n ∧ n < 0x8000000000000000 then some (Int64.ofInt n) else none

/-- The value of a JSON scalar. -/
def ofJson : Json → Except QueryError Value
  | .bool b => .ok (.bool b)
  | .int n _ =>
      match int64? n with
      | some n => .ok (.int n)
      | none => .error (.intOutOfRange n)
  | .double d _ => .ok (.double d)
  | .str s => .ok (.string s)
  | .null => .error .nullLiteral
  | .arr _ => .error .arrayLiteral
  | .obj _ => .error .objectLiteral

end Value

end EventSearch
