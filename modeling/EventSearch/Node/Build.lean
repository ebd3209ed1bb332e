import EventSearch.Node.Basic

/-!
# Building patterns

Conjunctions, disjunctions and sequences take in the members of their own kind, so that
grouping does not matter. A constraint on a pattern goes into a conjunction around it, and
conjunctions of a single child are merged with it.
-/
namespace EventSearch.Node

/-- What a member contributes to a conjunction: a conjunction without constraints is taken
apart. -/
def conjuncts : Node → List Node
  | .and children k => if k.isEmpty then children else [.and children k]
  | n => [n]

/-- A conjunction that consists of another one is that one. A single member of any other kind
is not kept. -/
def conjunction (members : List Node) : Node :=
  match members.flatMap conjuncts with
  | [.and children k] => .and children k
  | [_] => .and [] .empty
  | children => .and children .empty

def disjuncts : Node → List Node
  | .or children => children
  | n => [n]

def disjunction (members : List Node) : Node := .or (members.flatMap disjuncts)

def steps : Node → List Node
  | .serial steps => steps
  | n => [n]

/-- The steps of all members, one after the other. -/
def sequence (members : List Node) : Node := .serial (members.flatMap steps)

/-- A conjunction of one child. -/
def wrap (n : Node) : Node := .and [n] .empty

/-- The children and constraints of a conjunction of one child. What has a single child itself
stands for that child, and of two conjunctions the constraints of the inner one come first. -/
def absorb : Node → Constraints → Except QueryError (List Node × Constraints)
  | .or [n], k => absorb n k
  | .serial [n], k => absorb n k
  | .and [n] own, k => do absorb n (← own.merge k)
  | .and children own, k => do .ok (children, ← own.merge k)
  | n, k => .ok ([n], k)

/-- A conjunction with its sole child taken in, if it has a sole child. -/
def collapse (children : List Node) (k : Constraints) :
    Except QueryError (List Node × Constraints) :=
  match children with
  | [n] => absorb n k
  | _ => .ok (children, k)

/-- A conjunction with further constraints. -/
def constrain (children : List Node) (own extra : Constraints) : Except QueryError Node := do
  let (children, base) ← collapse children own
  .ok (.and children (← base.merge extra))

/-- Any pattern with constraints on its span. -/
def constrained (n : Node) (extra : Constraints) : Except QueryError Node :=
  constrain [n] .empty extra

/-- Starts at most so long after the span before it. -/
def within (n : Node) (gap : Duration) : Except QueryError Node :=
  n.constrained { within := some gap }

/-- Starts at least so long after the span before it. -/
def after (n : Node) (gap : Duration) : Except QueryError Node :=
  n.constrained { after := some gap }

def lasting (n : Node) (length : Length) : Except QueryError Node :=
  n.constrained { length := some length }

/-- Two patterns of which the second starts right where the first ends. -/
def andThen (first next : Node) : Node := sequence [first, next]

/-- Two patterns with a gap between them, which is a constraint on the first step of the
second one. -/
def thenWithGap (first : Node) (gap : Constraints) (next : Node) : Except QueryError Node :=
  match next.steps with
  | [] => .error (.emptyCombinator .serial)
  | step :: rest => do
      let step ← step.constrained gap
      .ok (.serial (first.steps ++ step :: rest))

/-- Two patterns with at most so long between them. -/
def thenWithin (first : Node) (gap : Duration) (next : Node) : Except QueryError Node :=
  first.thenWithGap { within := some gap } next

/-- Two patterns with at least so long between them. -/
def thenAfter (first : Node) (gap : Duration) (next : Node) : Except QueryError Node :=
  first.thenWithGap { after := some gap } next

/-- The values of a field between two bounds, which belong to them or not. -/
def between (path : PathRef) (inclusive : Bool) (low high : Value) : Except QueryError Node := do
  let lower ← Condition.compare path (if inclusive then .ge else .gt) low
  let upper ← Condition.compare path (if inclusive then .le else .lt) high
  .ok (conjunction [.condition lower, .condition upper])

end EventSearch.Node
