import EventSearch.Node.Build
import EventSearch.Node.Encode
import EventSearch.Query.Projection

/-!
# Queries

A query selects what a pattern matches within a window of time, and returns it in a
projection. It is assembled from statements, or by a builder that collects them.
-/
namespace EventSearch

/-- What to match, from a bound on and before another one. -/
structure Select where
  root : Option Node := none
  after : Option DateTime := none
  before : Option DateTime := none
deriving Repr

namespace Select

def all : Select := {}

def ofNode (root : Node) : Select := { root := some root }

def withAfter (s : Select) (bound : DateTime) : Select := { s with after := some bound }

def withBefore (s : Select) (bound : DateTime) : Select := { s with before := some bound }

/-- The key and the value that state the window, if there is one. -/
def window (s : Select) : Except QueryError (Option (WindowKey × Json)) :=
  match s.after, s.before with
  | some after, some before =>
      if after.instant.before before.instant then
        .ok (some (.between, .arr [.str after.iso, .str before.iso]))
      else .error (.emptyWindow after before)
  | some after, none => .ok (some (.after, .str after.iso))
  | none, some before => .ok (some (.before, .str before.iso))
  | none, none => .ok none

/-- The window is stated among the members of the pattern and must not replace one of them. -/
def addWindow (object : Fields Json) (key : WindowKey) (value : Json) :
    Except QueryError (Fields Json) :=
  match Fields.get? key.name object with
  | some present => .error (.windowClash key present)
  | none => .ok (Fields.insert key.name value object)

/-- What the pattern is written as. Without a pattern everything is selected. -/
def pattern (s : Select) : Except QueryError Json :=
  match s.root with
  | some root => root.encode
  | none => .ok (.obj [])

/-- The object of the pattern with the window. -/
def encode (s : Select) : Except QueryError Json := do
  match ← s.pattern with
  | .obj members =>
      match ← s.window with
      | some (key, value) => .ok (.obj (← addWindow members key value))
      | none => .ok (.obj members)
  | _ => .error .rootNotObject

end Select

inductive Statement where
  | select (s : Select)
  | returning (p : Projection)
deriving Repr

structure Query where
  select : Select
  projection : Option Projection
deriving Repr

namespace Query

/-- The statements of each kind that were seen so far. -/
structure Parts where
  select : Option Select := none
  projection : Option Projection := none

def Parts.add (parts : Parts) : Statement → Except QueryError Parts
  | .select s =>
      if parts.select.isSome then .error (.repeatedStatement .select)
      else .ok { parts with select := some s }
  | .returning p =>
      if parts.projection.isSome then .error (.repeatedStatement .returning)
      else .ok { parts with projection := some p }

/-- At most one statement of each kind. Without a select everything is selected. -/
def ofStatements (statements : List Statement) : Except QueryError Query := do
  let parts ← statements.foldlM Parts.add {}
  .ok ⟨parts.select.getD .all, parts.projection⟩

/-- The document of the query. The select is at fault before the projection is. -/
def encode (q : Query) : Except QueryError Json := do
  let select ← q.select.encode
  match q.projection with
  | none => .ok (.obj [("select", select)])
  | some projection => do
      let projection ← projection.encode
      .ok (.obj [("projections", projection), ("select", select)])

/-- The document as text. -/
def text (q : Query) : Except QueryError String := do .ok (← q.encode).print

end Query

/-- A select that is being given bounds, and the projections to return. -/
structure QueryBuilder where
  select : Select
  returning : List Projection := []
deriving Repr

namespace QueryBuilder

def after (b : QueryBuilder) (bound : DateTime) : QueryBuilder :=
  { b with select := b.select.withAfter bound }

def before (b : QueryBuilder) (bound : DateTime) : QueryBuilder :=
  { b with select := b.select.withBefore bound }

def between (b : QueryBuilder) (low high : DateTime) : QueryBuilder := (b.after low).before high

def addReturning (b : QueryBuilder) (p : Projection) : QueryBuilder :=
  { b with returning := b.returning ++ [p] }

def build (b : QueryBuilder) : Except QueryError Query :=
  Query.ofStatements (.select b.select :: b.returning.map .returning)

end QueryBuilder

end EventSearch
