import EventSearch.Node.Basic

/-!
# Patterns in documents

Conjunctions and disjunctions are written as binary operators from the right, and what has
a single child is written as that child. Every step of a sequence but the first states its
gap, which is no time at all unless a constraint says otherwise.
-/
namespace EventSearch.Node

/-- An object with a gap of no time, unless it has a gap. -/
def withDefaultGap : Json → Json
  | .obj members =>
      if Fields.contains "within" members || Fields.contains "after" members then .obj members
      else .obj (Fields.insert "within" Duration.zero.encode members)
  | other => other

/-- The object of a type and its members. -/
def typed (type : String) (members : List Json) : Json :=
  .obj [("conds", .arr members), ("type", .str type)]

/-- The members of a combinator under its operator. -/
def folded (combinator : Combinator) (op : String) (asts : List Json) : Except QueryError Json :=
  match rightFold op asts with
  | none => .error (.emptyCombinator combinator)
  | some ast => .ok ast

/-- The steps of a sequence with their gaps. A single step stands for itself. -/
def sequenced : List Json → Except QueryError Json
  | [] => .error (.emptyCombinator .serial)
  | [only] => .ok only
  | first :: rest => .ok (typed "serial" (first :: rest.map withDefaultGap))

mutual

/-- What the pattern is written as, or the first fault in it. -/
def encode : Node → Except QueryError Json
  | .condition c => .ok c.encode
  | .and children k => do
      .ok (k.apply (← folded .conjunction "&&" (← encodeAll children)))
  | .or children => do
      folded .disjunction "||" (← encodeAll children)
  | .group mode children =>
      if children.isEmpty then .error (.emptyCombinator (.group mode))
      else do .ok (typed mode.name (← encodeAll children))
  | .serial steps => do
      sequenced (← encodeAll steps)
  | .switch s => s.encode

def encodeAll : List Node → Except QueryError (List Json)
  | [] => .ok []
  | n :: rest => do
      let first ← encode n
      let others ← encodeAll rest
      .ok (first :: others)

end

variable (n : Node) (children : List Node)

theorem encode_condition (c : Condition) : encode (.condition c) = .ok c.encode := rfl

theorem encode_and (k : Constraints) :
    encode (.and children k) =
      (do .ok (k.apply (← folded .conjunction "&&" (← encodeAll children)))) := rfl

theorem encode_or :
    encode (.or children) = (do folded .disjunction "||" (← encodeAll children)) := rfl

theorem encode_group (mode : GroupMode) :
    encode (.group mode children) =
      if children.isEmpty then .error (.emptyCombinator (.group mode))
      else (do .ok (typed mode.name (← encodeAll children))) := rfl

theorem encode_serial :
    encode (.serial children) = (do sequenced (← encodeAll children)) := rfl

theorem encode_switch (s : Switch) : encode (.switch s) = s.encode := rfl

theorem encodeAll_nil : encodeAll [] = .ok [] := rfl

theorem encodeAll_cons :
    encodeAll (n :: children) =
      (do .ok ((← encode n) :: (← encodeAll children))) := rfl

end EventSearch.Node
