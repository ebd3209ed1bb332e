import EventSearch.QueryError
import EventSearch.Span.Constraints

/-!
# Merging constraints

Two sets of constraints on one span are merged into the set that both together amount to:
the shorter bound for a start soon enough, the longer one for a start late enough, and the
lengths that both admit. Lengths that no span can have are a conflict.
-/
namespace EventSearch

namespace Length

/-- No length when there are no bounds, and a conflict when the bounds are in the wrong order. -/
def normalize : Option Length → Except QueryError (Option Length)
  | some (.range (some low) (some high)) =>
      if high.length < low.length then .error (.conflictingLengths (atLeast low) (atMost high))
      else .ok (some (between low high))
  | some (.range none none) => .ok none
  | length => .ok length

def combine (choose : Duration → Duration → Duration) :
    Option Duration → Option Duration → Option Duration
  | some a, some b => some (choose a b)
  | some a, none => some a
  | none, b => b

/-- An exact length that the other length admits. A conflict names the exact one first. -/
def keepExact (exact : Duration) (other : Length) : Except QueryError (Option Length) :=
  if other.admits exact then .ok (some (.exactly exact))
  else .error (.conflictingLengths (.exactly exact) other)

/-- The lengths within two pairs of bounds. -/
def intersect (left right : Length) (low high : Option Duration) :
    Except QueryError (Option Length) :=
  match low, high with
  | some min, some max =>
      if max.length < min.length then .error (.conflictingLengths left right)
      else .ok (some (between min max))
  | _, _ => .ok (some (.range low high))

/-- The lengths that two normal constraints admit. -/
def meet : Option Length → Option Length → Except QueryError (Option Length)
  | none, other => .ok other
  | some left, none => .ok (some left)
  | some (.exactly a), some (.exactly b) =>
      if a.length = b.length then .ok (some (.exactly a))
      else .error (.conflictingLengths (.exactly a) (.exactly b))
  | some (.exactly a), some (.range low high) => keepExact a (.range low high)
  | some (.range low high), some (.exactly b) => keepExact b (.range low high)
  | some (.range low high), some (.range low' high') =>
      intersect (.range low high) (.range low' high')
        (combine Duration.longest low low') (combine Duration.shortest high high')

/-- The left constraint is normalized first, so its own conflict is the one reported. -/
def merge (left right : Option Length) : Except QueryError (Option Length) := do
  meet (← normalize left) (← normalize right)

end Length

def Constraints.merge (left right : Constraints) : Except QueryError Constraints := do
  let length ← Length.merge left.length right.length
  .ok
    { within := Length.combine Duration.shortest left.within right.within
      after := Length.combine Duration.longest left.after right.after
      length := length }

end EventSearch
