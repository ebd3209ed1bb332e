/-!
# Comparison operators

The operators of conditions, their text in documents, and the texts they are read from.
-/
namespace EventSearch

inductive Operator where
  | eq | ne | lt | le | gt | ge | isIn | notIn
deriving DecidableEq, Repr

namespace Operator

def text : Operator → String
  | .eq => "=="
  | .ne => "!="
  | .lt => "<"
  | .le => "<="
  | .gt => ">"
  | .ge => ">="
  | .isIn => "in"
  | .notIn => "not in"

/-- Equality and inequality have a second spelling each. -/
def parse? : String → Option Operator
  | "=" | "==" => some .eq
  | "!=" | "<>" => some .ne
  | "<" => some .lt
  | "<=" => some .le
  | ">" => some .gt
  | ">=" => some .ge
  | "in" => some .isIn
  | "not in" => some .notIn
  | _ => none

/-- Whether the operator compares with a set. -/
def isMembership : Operator → Bool
  | .isIn | .notIn => true
  | _ => false

theorem parse?_text (op : Operator) : parse? op.text = some op := by
  cases op <;> rfl

end Operator

end EventSearch
