import EventSearch.Stream

/-!
# Projections

Which fields a query returns for each stream, and how they are computed from the fields of
the matched event.
-/
namespace EventSearch

inductive ArithOp where
  | add | sub | mul | div
deriving DecidableEq, Repr

def ArithOp.symbol : ArithOp → String
  | .add => "+"
  | .sub => "-"
  | .mul => "*"
  | .div => "/"

/-- How an output field is computed. -/
inductive Expr where
  | literal (v : Value)
  | path (p : EventPath)
  | arith (op : ArithOp) (lhs rhs : Expr)
  | object (fields : List (String × Expr))
deriving Repr

namespace Expr

/-- A nested object of the given fields, of which the last of a name counts. -/
def ofFields (fields : List (String × Expr)) : Expr := .object (Fields.ofList fields)

mutual

/-- Encodes operands and fields in order, so the first literal that is not finite is the one
reported. -/
def encode : Expr → Except QueryError Json
  | .literal v => do
      v.requireFinite
      .ok v.encode
  | .path p => .ok (.obj [("path", p.encode)])
  | .arith op lhs rhs => do
      let lhs ← encode lhs
      let rhs ← encode rhs
      .ok (.obj [("args", .arr [lhs, rhs]), ("expr", .str op.symbol)])
  | .object fields => do .ok (.obj (← encodeFields fields))

def encodeFields : List (String × Expr) → Except QueryError (Fields Json)
  | [] => .ok []
  | (name, e) :: rest => do
      let value ← encode e
      let others ← encodeFields rest
      .ok ((name, value) :: others)

end

theorem encode_literal (v : Value) :
    encode (.literal v) = (do v.requireFinite; .ok v.encode) := rfl

theorem encode_path (p : EventPath) : encode (.path p) = .ok (.obj [("path", p.encode)]) := rfl

theorem encode_arith (op : ArithOp) (lhs rhs : Expr) :
    encode (.arith op lhs rhs) =
      (do .ok (.obj [("args", .arr [← encode lhs, ← encode rhs]), ("expr", .str op.symbol)])) :=
  rfl

theorem encode_object (fields : List (String × Expr)) :
    encode (.object fields) = (do .ok (.obj (← encodeFields fields))) := rfl

theorem encodeFields_nil : encodeFields [] = .ok [] := rfl

theorem encodeFields_cons (name : String) (e : Expr) (rest : List (String × Expr)) :
    encodeFields ((name, e) :: rest) =
      (do .ok ((name, ← encode e) :: (← encodeFields rest))) := rfl

mutual

def same : Expr → Expr → Bool
  | .literal a, .literal b => a.same b
  | .path a, .path b => a == b
  | .arith op a b, .arith op' a' b' => op == op' && same a a' && same b b'
  | .object a, .object b => fieldsSame a b
  | _, _ => false

def fieldsSame : List (String × Expr) → List (String × Expr) → Bool
  | [], [] => true
  | (name, e) :: rest, (name', e') :: rest' => name == name' && same e e' && fieldsSame rest rest'
  | _, _ => false

end

end Expr

/-- The output fields of one stream. -/
structure StreamOutput where
  stream : Stream
  fields : Fields Expr
deriving Repr

/-- The outputs of the streams that were given any, and whether the other streams return their
default fields. -/
structure Projection where
  includeDefault : Option Bool := none
  outputs : List StreamOutput := []
deriving Repr

namespace Projection

def empty : Projection := {}

def isEmpty (p : Projection) : Bool := p.includeDefault.isNone && p.outputs.isEmpty

def withDefault (p : Projection) (returned : Bool) : Projection :=
  { p with includeDefault := some returned }

/-- Replaces the fields of the first entry for the same stream, or adds an entry. -/
def setFields (stream : Stream) (fields : Fields Expr) : List StreamOutput → List StreamOutput
  | [] => [⟨stream, fields⟩]
  | entry :: rest =>
      if entry.stream.same stream then { entry with fields := fields } :: rest
      else entry :: setFields stream fields rest

/-- Sets the output fields of one stream. -/
def withStream (p : Projection) (stream : Stream) (fields : List (String × Expr)) : Projection :=
  { p with outputs := setFields stream (Fields.ofList fields) p.outputs }

def encodeOutput (entry : StreamOutput) : Except QueryError Json := do
  let fields ← Expr.encodeFields entry.fields
  .ok (.obj [("projection", .obj fields), ("stream", entry.stream.reference)])

def encode (p : Projection) : Except QueryError Json := do
  let outputs ← p.outputs.mapM encodeOutput
  .ok (.obj (Fields.optional "..." (p.includeDefault.map .bool) ++
    Fields.optional "explicit" (if outputs.isEmpty then none else some (.arr outputs))))

def outputsSame : List StreamOutput → List StreamOutput → Bool
  | [], [] => true
  | a :: as, b :: bs =>
      a.stream.same b.stream && Expr.fieldsSame a.fields b.fields && outputsSame as bs
  | _, _ => false

def same (a b : Projection) : Bool :=
  a.includeDefault == b.includeDefault && outputsSame a.outputs b.outputs

end Projection

end EventSearch
