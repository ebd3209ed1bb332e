import EventSearch.Value.Literal

/-!
# Tests

What a condition asks of a field: an operator and the value or the set of values that the
field is compared with. A test is only built when the two fit together.
-/
namespace EventSearch

inductive Argument where
  | value (v : Value)
  | set (vs : List Value)
deriving DecidableEq, Repr

namespace Argument

def values : Argument → List Value
  | .value v => [v]
  | .set vs => vs

def isSet : Argument → Bool
  | .value _ => false
  | .set _ => true

/-- A set goes with membership and a single value with any other operator, every double is
finite, and a region is compared for equality only. -/
structure Admissible (op : Operator) (arg : Argument) : Prop where
  shape : arg.isSet = op.isMembership
  finite : ∀ v ∈ arg.values, v.isFinite = true
  region : ∀ v ∈ arg.values, v.isRegion = true → op = .eq

/-- The offset of the first point in time that is not given in universal time. -/
def offset? (arg : Argument) : Option Offset := arg.values.findSome? Value.offset?

def encode : Argument → Json
  | .value v => v.encode
  | .set vs => literal "set" (.arr (vs.map Value.encode))

def display : Argument → String
  | .value v => v.display
  | .set vs => "[" ++ String.intercalate ", " (vs.map Value.display) ++ "]"

def valuesSame : List Value → List Value → Bool
  | [], [] => true
  | a :: as, b :: bs => a.same b && valuesSame as bs
  | _, _ => false

def same : Argument → Argument → Bool
  | .value a, .value b => a.same b
  | .set as, .set bs => valuesSame as bs
  | _, _ => false

end Argument

structure Test where
  op : Operator
  arg : Argument
  admissible : arg.Admissible op
deriving Repr

namespace Test

/-- The first region that the operator does not fit is at fault. -/
def regionFault? (path : String) (op : Operator) (values : List Value) : Option QueryError :=
  if op = .eq then none
  else (values.find? Value.isRegion).map fun v => .regionOperator path op v.tag

/-- Checks the shape of the argument, then its doubles, then its regions. The path is only
for the messages. -/
def make (path : String) (op : Operator) (arg : Argument) : Except QueryError Test :=
  if shape : arg.isSet = op.isMembership then
    match finite : arg.values.findSome? Value.finiteFault? with
    | some e => .error e
    | none =>
        match region : regionFault? path op arg.values with
        | some e => .error e
        | none => .ok
            { op := op
              arg := arg
              admissible :=
                { shape := shape
                  finite := fun v hv => (Value.finiteFault?_eq_none_iff v).1
                    (List.findSome?_eq_none_iff.1 finite v hv)
                  region := fun v hv hr => by
                    unfold regionFault? at region
                    split at region
                    · assumption
                    · rw [Option.map_eq_none_iff, List.find?_eq_none] at region
                      exact absurd hr (region v hv) } }
  else match arg with
    | .set _ => .error (.setForOne op path)
    | .value v => .error (.oneForSet op path v)

def display (t : Test) : String := t.op.text ++ " " ++ t.arg.display

def same (a b : Test) : Bool := a.op == b.op && a.arg.same b.arg

end Test

end EventSearch
