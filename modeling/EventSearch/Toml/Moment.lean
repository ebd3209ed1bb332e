import EventSearch.Time.Rfc3339
import EventSearch.Toml.Basic

/-!
# TOML dates and times

A date, a time of day, or both with or without an offset. Only the extent of the text is
of interest here.
-/
namespace EventSearch.Toml

/-- What is behind a fraction of a second, if there is one. -/
def dropFraction (cs : List Char) : List Char :=
  match cs with
  | '.' :: rest =>
      if (rest.takeWhile Text.isDigit).isEmpty then cs else rest.dropWhile Text.isDigit
  | _ => cs

/-- What is behind a clock time. -/
def time? (cs : List Char) : Option (List Char) := do
  let (hour, cs) ← Rfc3339.fixed? 2 cs
  let cs ← Rfc3339.skip? (· == ':') cs
  let (minute, cs) ← Rfc3339.fixed? 2 cs
  let cs ← Rfc3339.skip? (· == ':') cs
  let (second, cs) ← Rfc3339.fixed? 2 cs
  if hour < 24 ∧ minute < 60 ∧ second ≤ 60 then some (dropFraction cs) else none

/-- What is behind an offset, if there is one. -/
def dropOffset : List Char → Option (List Char)
  | c :: rest =>
      if c = 'Z' ∨ c = 'z' then some rest
      else if c = '+' ∨ c = '-' then do
        let (hours, rest) ← Rfc3339.fixed? 2 rest
        let rest ← Rfc3339.skip? (· == ':') rest
        let (minutes, rest) ← Rfc3339.fixed? 2 rest
        if hours < 24 ∧ minutes < 60 then some rest else none
      else some (c :: rest)
  | [] => some []

/-- What is behind the time and offset after a date, if there are any. -/
def dropTime (cs : List Char) : Option (List Char) :=
  match cs with
  | c :: after =>
      if c = 'T' ∨ c = 't' ∨ c = ' ' then
        match time? after with
        | some rest => dropOffset rest
        | none => some cs
      else some cs
  | [] => some cs

/-- What is behind a date, alone or with a time and an offset, or behind a time alone. -/
def dropDateTime (cs : List Char) : Option (List Char) :=
  match Rfc3339.fixed? 4 cs with
  | some (year, '-' :: rest) => do
      let (month, rest) ← Rfc3339.fixed? 2 rest
      let rest ← Rfc3339.skip? (· == '-') rest
      let (day, rest) ← Rfc3339.fixed? 2 rest
      if inCalendar year month day then dropTime rest else none
  | _ => time? cs

def dateTime? (cs : List Char) : Option (Toml × List Char) := do
  let rest ← dropDateTime cs
  some (.dateTime (String.ofList (cs.take (cs.length - rest.length))), rest)

end EventSearch.Toml
