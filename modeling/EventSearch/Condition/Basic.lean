import EventSearch.Stream

/-!
# Conditions

A test of a field, either of the current event or of the events of a stream. A condition on
a stream names at least one segment.
-/
namespace EventSearch

/-- An event path bound to a stream. -/
structure StreamPath where
  stream : Stream
  path : EventPath
deriving Repr

namespace StreamPath

def field (p : StreamPath) (name : String) : StreamPath := { p with path := p.path.field name }

def display (p : StreamPath) : String := p.stream.name ++ ":" ++ p.path.display

def same (a b : StreamPath) : Bool := a.stream.same b.stream && a.path == b.path

end StreamPath

/-- The path of a condition. -/
inductive PathRef where
  | event (path : EventPath)
  | stream (path : StreamPath)
deriving Repr

namespace PathRef

def eventPath : PathRef → EventPath
  | .event path => path
  | .stream path => path.path

def stream? : PathRef → Option Stream
  | .event _ => none
  | .stream path => some path.stream

def field (p : PathRef) (name : String) : PathRef :=
  match p with
  | .event path => .event (path.field name)
  | .stream path => .stream (path.field name)

def display : PathRef → String
  | .event path => path.display
  | .stream path => path.display

def same : PathRef → PathRef → Bool
  | .event a, .event b => a == b
  | .stream a, .stream b => a.same b
  | _, _ => false

/-- Whether the path is on an event or names a field of a stream. -/
def isGrounded (p : PathRef) : Bool := p.stream?.isNone || !p.eventPath.isRoot

end PathRef

structure Condition where
  path : PathRef
  test : Test
  grounded : path.isGrounded = true
deriving Repr

namespace Condition

def stream? (c : Condition) : Option Stream := c.path.stream?

def isBound (c : Condition) : Bool := c.stream?.isSome

/-- A path without a field is at fault before the test is. -/
def make (path : PathRef) (op : Operator) (arg : Argument) : Except QueryError Condition :=
  if grounded : path.isGrounded = true then do
    let test ← Test.make path.display op arg
    .ok ⟨path, test, grounded⟩
  else .error (.missingField ((path.stream?.map Stream.name).getD ""))

/-- A comparison with a single value. -/
def compare (path : PathRef) (op : Operator) (v : Value) : Except QueryError Condition :=
  make path op (.value v)

/-- The fields of a condition in documents. One on a stream is marked as a span, and the offset
of a point in time in its argument becomes that of the stream. -/
def fields (c : Condition) : Fields Json :=
  [("arg", c.test.arg.encode), ("op", .str c.test.op.text), ("path", c.path.eventPath.encode)] ++
    match c.stream? with
    | none => []
    | some stream =>
        [("stream", stream.referenceWith c.test.arg.offset?), ("type", .str "span")]

def encode (c : Condition) : Json := .obj c.fields

def display (c : Condition) : String := c.path.display ++ " " ++ c.test.display

def same (a b : Condition) : Bool := a.path.same b.path && a.test.same b.test

end Condition

namespace Stream

/-- Restricts the stream to events that meet a condition, which must not be bound. -/
def withFilter (s : Stream) (c : Condition) : Except QueryError Stream :=
  match c.path with
  | .event path => .ok { s with filter := some ⟨path, c.test⟩ }
  | .stream other => .error (.boundFilter s.name other.stream.name)

end Stream

end EventSearch
