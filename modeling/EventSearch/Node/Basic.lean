import EventSearch.Node.Switch
import EventSearch.Span.Merge

/-!
# Patterns

A pattern is a tree of conditions and switches under combinators. Conjunctions are the
places where constraints on spans are kept.
-/
namespace EventSearch

inductive Node where
  | condition (c : Condition)
  | and (children : List Node) (constraints : Constraints)
  | or (children : List Node)
  | group (mode : GroupMode) (children : List Node)
  | serial (steps : List Node)
  | switch (s : Switch)
deriving Repr

namespace Node

def kind : Node → String
  | .condition _ => "condition"
  | .and .. => Combinator.conjunction.name
  | .or _ => Combinator.disjunction.name
  | .group mode _ => mode.name
  | .serial _ => Combinator.serial.name
  | .switch _ => "switch"

mutual

def same : Node → Node → Bool
  | .condition a, .condition b => a.same b
  | .and as k, .and bs k' => allSame as bs && k == k'
  | .or as, .or bs => allSame as bs
  | .group mode as, .group mode' bs => mode == mode' && allSame as bs
  | .serial as, .serial bs => allSame as bs
  | .switch a, .switch b => a.same b
  | _, _ => false

def allSame : List Node → List Node → Bool
  | [], [] => true
  | a :: as, b :: bs => same a b && allSame as bs
  | _, _ => false

end

end Node

end EventSearch
