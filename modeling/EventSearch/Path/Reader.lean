import EventSearch.Path.Basic
import EventSearch.QueryError

/-!
# Reading event paths

A path literal is a list of segments with points between them. A segment is an identifier,
or any characters but quotes between quotes, and has at least one character.
-/
namespace EventSearch.EventPath

def quotedSegment? (cs : List Char) : Option (String × List Char) :=
  match cs with
  | '"' :: rest =>
      let body := rest.takeWhile (· != '"')
      match rest.dropWhile (· != '"') with
      | _ :: after => if body.isEmpty then none else some (String.ofList body, after)
      | [] => none
  | _ => none

def bareSegment? (cs : List Char) : Option (String × List Char) :=
  let body := cs.takeWhile isIdentifierChar
  if body.isEmpty then none else some (String.ofList body, cs.dropWhile isIdentifierChar)

def segment? (cs : List Char) : Option (String × List Char) :=
  match quotedSegment? cs with
  | some found => some found
  | none => bareSegment? cs

/-- The further segments, each after a point, and the characters behind the last of them. -/
def moreSegments : Nat → List Char → List String × List Char
  | 0, cs => ([], cs)
  | fuel + 1, cs =>
      match cs with
      | '.' :: rest =>
          match segment? rest with
          | some (s, after) =>
              let (more, unread) := moreSegments fuel after
              (s :: more, unread)
          | none => ([], cs)
      | _ => ([], cs)

/-- The segments that a text starts with, and the characters behind them. -/
def segments? (cs : List Char) : Option (List String × List Char) := do
  let (first, rest) ← segment? cs
  let (more, unread) := moreSegments rest.length rest
  some (first :: more, unread)

/-- Reads a path literal, with white space around it. -/
def parse (literal : String) : Except QueryError EventPath :=
  let cs := Text.trimChars literal.toList
  match segments? cs with
  | none => .error (.invalidPath literal (String.ofList cs) .start)
  | some (segments, []) => .ok ⟨segments⟩
  | some (_, unread) => .error (.invalidPath literal (String.ofList unread) .rest)

end EventSearch.EventPath
