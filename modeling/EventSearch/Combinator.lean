/-!
# Combinators

The ways in which patterns are combined, and their names in documents and messages.
-/
namespace EventSearch

/-- How a group combines its members. -/
inductive GroupMode where
  | any | all | during
deriving DecidableEq, Repr

def GroupMode.name : GroupMode → String
  | .any => "any"
  | .all => "all"
  | .during => "during"

inductive Combinator where
  | conjunction
  | disjunction
  | group (mode : GroupMode)
  | serial
deriving DecidableEq, Repr

def Combinator.name : Combinator → String
  | .conjunction => "and"
  | .disjunction => "or"
  | .group mode => mode.name
  | .serial => "serial"

end EventSearch
