import EventSearch.Json.Printer
import EventSearch.Json.Reader
import EventSearch.Text.Character
import EventSearch.Text.Lines

/-!
# Records of a response

A response body holds records, each a JSON object: an envelope with a list of them, a list,
a single one, or one on each line. A body that is not JSON as a whole is read by lines.
-/
namespace EventSearch

inductive RecordError where
  | notObject (value : Json)
  | badEnvelope
  | badLine (line : Nat)
  | lineNotObject (line : Nat) (value : Json)
deriving Repr

namespace RecordError

/-- The message, with the given words for what cannot be read as JSON. -/
def message (unreadable : String) : RecordError → String
  | .notObject value => "expected a record object, found " ++ value.print
  | .badEnvelope => unreadable
  | .badLine line => "line " ++ Text.decimal line ++ ": " ++ unreadable
  | .lineNotObject line value =>
      "line " ++ Text.decimal line ++ ": expected a record object, found " ++ value.print

end RecordError

abbrev Record := Fields Json

namespace Records

/-- The members of the objects. The first value that is not an object is at fault. -/
def objects : List Json → Except RecordError (List Record)
  | [] => .ok []
  | .obj members :: rest => do .ok (members :: (← objects rest))
  | value :: _ => .error (.notObject value)

/-- The record of one line, or none for a line of white space. -/
def ofLine? (number : Nat) (line : List Char) : Except RecordError (Option Record) :=
  if (Text.trimChars line).isEmpty then .ok none
  else match Json.read? Json.maxDepth line with
    | some (.obj members) => .ok (some members)
    | some value => .error (.lineNotObject number value)
    | none => .error (.badLine number)

/-- The records of lines, of which the first has the given number. -/
def ofLines : Nat → List (List Char) → Except RecordError (List Record)
  | _, [] => .ok []
  | number, line :: rest => do
      let record ← ofLine? number line
      let records ← ofLines (number + 1) rest
      .ok (record.toList ++ records)

/-- The records of a body that is JSON as a whole. -/
def ofJson : Json → Except RecordError (List Record)
  | .arr items => objects items
  | .obj members =>
      match Fields.get? "records" members with
      | some (.arr items) => objects items
      | some _ => .error .badEnvelope
      | none => .ok [members]
  | value => .error (.notObject value)

def ofChars (cs : List Char) : Except RecordError (List Record) :=
  let body := Text.trimChars cs
  if body.isEmpty then .ok []
  else match Json.read? Json.maxDepth body with
    | some value => ofJson value
    | none => ofLines 1 (Text.lines body)

/-- The records of a response body. -/
def parse (body : String) : Except RecordError (List Record) := ofChars body.toList

end Records

end EventSearch
