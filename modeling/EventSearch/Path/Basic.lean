import EventSearch.Json.Basic
import EventSearch.Text.Character

/-!
# Event paths

A field inside the current event, named by the segments that lead to it. A segment that is
not an identifier is shown between quotes.
-/
namespace EventSearch

/-- The segment that every path begins with in documents. -/
def eventRoot : String := "event"

structure EventPath where
  segments : List String
deriving DecidableEq, Repr

def isIdentifierChar (c : Char) : Bool := Text.isAlphanumeric c || c == '_'

def isIdentifier (s : String) : Bool := !s.toList.isEmpty && s.toList.all isIdentifierChar

namespace EventPath

/-- The event itself. -/
def root : EventPath := ⟨[]⟩

/-- The path extended by one segment. -/
def field (p : EventPath) (name : String) : EventPath := ⟨p.segments ++ [name]⟩

def isRoot (p : EventPath) : Bool := p.segments.isEmpty

def encode (p : EventPath) : Json := .arr (.str eventRoot :: p.segments.map .str)

def segmentText (s : String) : String := if isIdentifier s then s else "\"" ++ s ++ "\""

def display (p : EventPath) : String :=
  eventRoot ++ String.join (p.segments.map fun s => "." ++ segmentText s)

end EventPath

end EventSearch
