import EventSearch.Span.Length

/-!
# Constraints on spans

A span may have to start soon enough or late enough after the one before it, and to have a
certain length. Any of the three may be missing.
-/
namespace EventSearch

structure Constraints where
  within : Option Duration := none
  after : Option Duration := none
  length : Option Length := none
deriving DecidableEq, Repr

namespace Constraints

def empty : Constraints := {}

def isEmpty (k : Constraints) : Bool := k.within.isNone && k.after.isNone && k.length.isNone

/-- Whether the start is constrained. -/
def hasGap (k : Constraints) : Bool := k.within.isSome || k.after.isSome

/-- The fields by which a document states the constraints. -/
def fields (k : Constraints) : Fields Json :=
  Fields.optional "after" (k.after.map Duration.encode) ++
    Fields.optional "for" (k.length.map Length.encode) ++
    Fields.optional "within" (k.within.map Duration.encode)

/-- States the constraints in an object, where they replace members of the same names. What is
no object is left alone. -/
def apply (k : Constraints) : Json → Json
  | .obj members => .obj (Fields.insertAll members k.fields)
  | other => other

def display (k : Constraints) : String :=
  let parts := (k.within.map fun d => "within " ++ d.display).toList ++
    (k.after.map fun d => "after " ++ d.display).toList ++
    (k.length.map Length.display).toList
  if parts.isEmpty then "unconstrained" else "[" ++ String.intercalate ", " parts ++ "]"

end Constraints

end EventSearch
