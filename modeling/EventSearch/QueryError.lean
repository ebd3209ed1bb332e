import EventSearch.Combinator
import EventSearch.Json.Printer
import EventSearch.Operator
import EventSearch.Span.Length
import EventSearch.Value.Basic

/-!
# Errors of queries

Every reason for which a query cannot be built or encoded, with what it is about. The
reasons fall into families, of which some say that the query is malformed.
-/
namespace EventSearch

/-- Where the reading of a path stops: before any segment, or after some of them. -/
inductive PathStop where
  | start | rest
deriving DecidableEq, Repr

/-- The word for it in messages. -/
def PathStop.code : PathStop → String
  | .start => "TakeWhile1"
  | .rest => "Eof"

/-- The statements that a query holds at most one of. -/
inductive StatementKind where
  | select | returning
deriving DecidableEq, Repr

/-- The keys by which a time window is stated. -/
inductive WindowKey where
  | between | after | before
deriving DecidableEq, Repr

def WindowKey.name : WindowKey → String
  | .between => "between"
  | .after => "after"
  | .before => "before"

def StatementKind.name : StatementKind → String
  | .select => "select"
  | .returning => "returning"

inductive QueryError where
  | invalidPath (literal unread : String) (stop : PathStop)
  | radiusNotPositive (radius : Double)
  | tooFewPoints (count : Nat)
  | boundFilter (stream other : String)
  | missingField (stream : String)
  | setForOne (op : Operator) (path : String)
  | oneForSet (op : Operator) (path : String) (value : Value)
  | regionOperator (path : String) (op : Operator) (kind : String)
  | tooFewEvents (count : Nat)
  | eventWithoutConditions (index : Nat)
  | boundEvent (condition stream : String)
  | rootNotObject
  | emptyWindow (after before : DateTime)
  | windowClash (key : WindowKey) (present : Json)
  | repeatedStatement (kind : StatementKind)
  | emptyCombinator (combinator : Combinator)
  | unboundSwitch
  | alreadyBound (stream : String)
  | conflictingLengths (left right : Length)
  | nonFiniteDouble (d : Double)
  | nonFiniteCoordinate (d : Double)
  | intOutOfRange (n : Int)
  | nullLiteral
  | arrayLiteral
  | objectLiteral
  | unknownTag (tag : String)
  | missingTag (literal : Json)
  | missingValue (literal : Json)
  | badLiteral (tag : String) (value : Json)
  | badRegion (literal : Json)
deriving Repr

/-- The kinds of reasons that a caller can tell apart. -/
inductive ErrorFamily where
  | malformed
  | incompatibleOperator
  | emptyCombinator
  | unboundSwitch
  | alreadyBound
  | conflictingLengths
  | unsupportedLiteral
  | invalidLiteral
deriving DecidableEq, Repr

namespace QueryError

def family : QueryError → ErrorFamily
  | .regionOperator .. => .incompatibleOperator
  | .emptyCombinator _ => .emptyCombinator
  | .unboundSwitch => .unboundSwitch
  | .alreadyBound _ => .alreadyBound
  | .conflictingLengths .. => .conflictingLengths
  | .nonFiniteDouble _ | .nonFiniteCoordinate _ | .intOutOfRange _ | .nullLiteral
  | .arrayLiteral | .objectLiteral | .unknownTag _ => .unsupportedLiteral
  | .missingTag _ | .missingValue _ | .badLiteral .. | .badRegion _ => .invalidLiteral
  | _ => .malformed

/-- Whether the structure of the query is at fault, and not a literal or a length. -/
def isMalformed (e : QueryError) : Bool :=
  match e.family with
  | .conflictingLengths | .unsupportedLiteral | .invalidLiteral => false
  | _ => true

/-- What is at fault, without the words that all errors of the family begin with. -/
def detail : QueryError → String
  | .invalidPath literal unread stop =>
      "invalid path literal '" ++ literal ++ "': Error(Error \x7b input: " ++ Text.quoted unread ++
        ", code: " ++ stop.code ++ " \x7d)"
  | .radiusNotPositive radius => "circle radius must be positive, got " ++ radius.display
  | .tooFewPoints count => "polygon needs at least three points, got " ++ Text.decimal count
  | .boundFilter stream other =>
      "filter for stream `" ++ stream ++ "` must use an event path, found path bound to stream `" ++
        other ++ "`"
  | .missingField stream => "condition on stream `" ++ stream ++ "` needs a field path"
  | .setForOne op path =>
      "operator `" ++ op.text ++ "` at " ++ path ++ " takes a single value, not a set"
  | .oneForSet op path value =>
      "operator `" ++ op.text ++ "` at " ++ path ++ " takes a set, got " ++ value.display
  | .regionOperator path op kind =>
      "Operator `" ++ op.text ++ "` cannot be used with a " ++ kind ++ " value (path " ++ path ++
        ")"
  | .tooFewEvents count => "switch must contain at least two events, got " ++ Text.decimal count
  | .eventWithoutConditions index =>
      "switch event " ++ Text.decimal index ++ " has no conditions"
  | .boundEvent condition stream =>
      "switch conditions must use event paths, but " ++ condition ++ " is bound to stream `" ++
        stream ++ "`"
  | .rootNotObject => "select root must serialize to an object"
  | .emptyWindow after before =>
      "empty time window: after " ++ after.iso ++ " is not earlier than before " ++ before.iso
  | .windowClash key present =>
      "time window `" ++ key.name ++ "` clashes with `" ++ key.name ++ ": " ++ present.print ++
        "` on the selected node"
  | .repeatedStatement kind => "only one `" ++ kind.name ++ "` statement may be present"
  | .emptyCombinator combinator =>
      "Empty `" ++ combinator.name ++ "` combinator: at least one child is required"
  | .unboundSwitch => "Switch must be bound to a stream before it can be serialized"
  | .alreadyBound stream => "Switch is already bound to stream `" ++ stream ++ "`"
  | .conflictingLengths left right => left.display ++ " vs " ++ right.display
  | .nonFiniteDouble d => "non-finite double " ++ d.display
  | .nonFiniteCoordinate d => "non-finite region coordinate " ++ d.display
  | .intOutOfRange n => "integer " ++ Text.signed n ++ " is out of range for an int literal"
  | .nullLiteral => "null"
  | .arrayLiteral => "array"
  | .objectLiteral => "object"
  | .unknownTag tag => tag
  | .missingTag literal => "missing type tag in " ++ literal.print
  | .missingValue literal => "missing val in " ++ literal.print
  | .badLiteral tag value => "bad `" ++ tag ++ "` literal: " ++ value.print
  | .badRegion literal => "bad region literal: " ++ literal.print

/-- The words that the messages of a family begin with. -/
def lead : ErrorFamily → String
  | .malformed => "Query syntax error: "
  | .conflictingLengths => "Conflicting duration constraints: "
  | .unsupportedLiteral => "Unsupported literal type: "
  | .invalidLiteral => "Invalid literal: "
  | _ => ""

def message (e : QueryError) : String := lead e.family ++ e.detail

end QueryError

end EventSearch
