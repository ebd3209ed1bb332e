import EventSearch.Condition.Test
import EventSearch.Path.Basic

/-!
# Event streams

A stream is known by its name and the condition that filters its events, which is on the
event alone. Its metadata and its time offset go into the reference to it but do not tell
it from another stream.
-/
namespace EventSearch

/-- A test of a field of the current event, whichever stream that comes from. -/
structure EventCondition where
  path : EventPath
  test : Test
deriving Repr

namespace EventCondition

def fields (c : EventCondition) : Fields Json :=
  [("arg", c.test.arg.encode), ("op", .str c.test.op.text), ("path", c.path.encode)]

def display (c : EventCondition) : String := c.path.display ++ " " ++ c.test.display

def same (a b : EventCondition) : Bool := a.path == b.path && a.test.same b.test

end EventCondition

structure Stream where
  name : String
  metadata : Fields Json := []
  filter : Option EventCondition := none
  offset : Option Offset := none
deriving Repr

namespace Stream

def named (name : String) : Stream := { name := name }

def withMetadata (s : Stream) (key : String) (value : Json) : Stream :=
  { s with metadata := Fields.insert key value s.metadata }

def withOffset (s : Stream) (offset : Offset) : Stream := { s with offset := some offset }

/-- The reference to a stream in documents, where an offset given along takes precedence over
the one of the stream. -/
def referenceWith (s : Stream) (offset : Option Offset) : Json :=
  .obj (Fields.optional "filter" (s.filter.map fun c => .obj c.fields) ++
    Fields.optional "metadata" (if s.metadata.isEmpty then none else some (.obj s.metadata)) ++
    [("name", .str s.name)] ++
    Fields.optional "tz" ((offset.or s.offset).map fun o => .str o.display))

def reference (s : Stream) : Json := s.referenceWith none

/-- Streams are the same when their names and filters are. -/
def same (a b : Stream) : Bool :=
  a.name == b.name &&
    match a.filter, b.filter with
    | none, none => true
    | some c, some d => c.same d
    | _, _ => false

end Stream

end EventSearch
