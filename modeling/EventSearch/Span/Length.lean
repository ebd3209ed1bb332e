import EventSearch.Span.Duration

/-!
# Lengths of spans

A span is asked to last exactly as long as a duration, or to have a length within bounds
either of which may be missing.
-/
namespace EventSearch

inductive Length where
  | exactly (d : Duration)
  | range (atLeast atMost : Option Duration)
deriving DecidableEq, Repr

namespace Length

def atLeast (d : Duration) : Length := .range (some d) none

def atMost (d : Duration) : Length := .range none (some d)

def between (low high : Duration) : Length := .range (some low) (some high)

def isUnbounded (l : Length) : Bool := l == .range none none

/-- Whether a span of the given duration has such a length. -/
def admits (l : Length) (d : Duration) : Bool :=
  match l with
  | .exactly exact => exact.length == d.length
  | .range low high =>
      low.all (fun min => min.length ≤ d.length) && high.all (fun max => d.length ≤ max.length)

def encode : Length → Json
  | .exactly d => .obj [("exactly", d.encode)]
  | .range low high =>
      .obj (Fields.optional "at_least" (low.map Duration.encode) ++
        Fields.optional "at_most" (high.map Duration.encode))

def display : Length → String
  | .exactly d => "for == " ++ d.display
  | .range (some low) (some high) => "for " ++ low.display ++ ".." ++ high.display
  | .range (some low) none => "for >= " ++ low.display
  | .range none (some high) => "for <= " ++ high.display
  | .range none none => "for any"

end Length

end EventSearch
