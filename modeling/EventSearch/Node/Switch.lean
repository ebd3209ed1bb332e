import EventSearch.Condition.Basic

/-!
# Switches

The transition of one stream from one kind of event to the next. Each event is described by
conditions on the event alone. A switch is bound to its stream once, before it is encoded.
-/
namespace EventSearch

/-- A binary operator with its operands. -/
def binary (op : String) (left right : Json) : Json :=
  .obj [("args", .arr [left, right]), ("expr", .str op)]

/-- The members of a list combined by a binary operator from the right, if there are any. -/
def rightFold (op : String) : List Json → Option Json
  | [] => none
  | first :: rest => some (((rightFold op rest).map (binary op first)).getD first)

/-- Groups of conditions, one for each event, and the stream once there is one. -/
structure Switch where
  stream : Option Stream
  groups : List (List Condition)
deriving Repr

namespace Switch

/-- The reason why a group does not describe the event with the given index. A condition that
is bound to a stream is named, the first one if there are several. -/
def groupFault? (index : Nat) (group : List Condition) : Option QueryError :=
  if group.isEmpty then some (.eventWithoutConditions index)
  else (group.find? Condition.isBound).map fun c =>
    .boundEvent c.display ((c.stream?.map Stream.name).getD "")

/-- The fault of the first group that has one. -/
def fault? : Nat → List (List Condition) → Option QueryError
  | _, [] => none
  | index, group :: rest => (groupFault? index group).or (fault? (index + 1) rest)

/-- At least two events, whose groups are checked one after the other. -/
def make (groups : List (List Condition)) : Except QueryError Switch :=
  if groups.length < 2 then .error (.tooFewEvents groups.length)
  else match fault? 0 groups with
    | some e => .error e
    | none => .ok ⟨none, groups⟩

def bind (s : Switch) (stream : Stream) : Except QueryError Switch :=
  match s.stream with
  | some bound => .error (.alreadyBound bound.name)
  | none => .ok { s with stream := some stream }

/-- A switch that is bound from the start. -/
def makeBound (stream : Stream) (groups : List (List Condition)) : Except QueryError Switch := do
  (← make groups).bind stream

/-- The conjunction of the conditions of a group. -/
def encodeGroup (group : List Condition) : Option Json :=
  rightFold "&&" (group.map Condition.encode)

def encode (s : Switch) : Except QueryError Json :=
  match s.stream with
  | none => .error .unboundSwitch
  | some stream => .ok (.obj
      [("conds", .arr (s.groups.filterMap encodeGroup)), ("stream", stream.reference),
       ("type", .str "switch")])

def groupSame : List Condition → List Condition → Bool
  | [], [] => true
  | c :: cs, d :: ds => c.same d && groupSame cs ds
  | _, _ => false

def groupsSame : List (List Condition) → List (List Condition) → Bool
  | [], [] => true
  | g :: gs, h :: hs => groupSame g h && groupsSame gs hs
  | _, _ => false

def same (a b : Switch) : Bool :=
  groupsSame a.groups b.groups &&
    match a.stream, b.stream with
    | none, none => true
    | some s, some t => s.same t
    | _, _ => false

end Switch

end EventSearch
