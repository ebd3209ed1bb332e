import EventSearch.Toml.Scalar

/-!
# Reading TOML documents

A document is a list of table headers and of keys with values, one on each line. The
recursion follows the nesting of arrays and inline tables, which is limited.
-/
namespace EventSearch.Toml

def skipSpace (cs : List Char) : List Char := cs.dropWhile isSpace

/-- Drops a comment, if there is one, up to the end of its line. -/
def skipComment : List Char → List Char
  | '#' :: rest => rest.dropWhile isPlain
  | cs => cs

/-- Drops white space and a comment, and then the end of the line or of the text. -/
def lineEnd? (cs : List Char) : Option (List Char) :=
  match skipComment (skipSpace cs) with
  | [] => some []
  | rest => newline? rest

/-- Drops white space, line ends and comments. A comment reaches to a line end. -/
def skipLines : Nat → List Char → Option (List Char)
  | 0, cs => some cs
  | fuel + 1, cs =>
      match skipSpace cs with
      | '#' :: rest => do skipLines fuel (← newline? (rest.dropWhile isPlain))
      | rest =>
          match newline? rest with
          | some rest => skipLines fuel rest
          | none => some rest

def isBareKey (c : Char) : Bool :=
  ('a' ≤ c && c ≤ 'z') || ('A' ≤ c && c ≤ 'Z') || Text.isDigit c || c == '-' || c == '_'

def simpleKey? (cs : List Char) : Option (String × List Char) :=
  match shortString? cs with
  | some found => some found
  | none =>
      let body := cs.takeWhile isBareKey
      if body.isEmpty then none else some (String.ofList body, cs.drop body.length)

/-- The parts of a key after the first, each after a point. -/
def moreKeys : Nat → List Char → Option (List String × List Char)
  | 0, cs => some ([], cs)
  | fuel + 1, cs =>
      match skipSpace cs with
      | '.' :: rest => do
          let (key, rest) ← simpleKey? (skipSpace rest)
          let (keys, rest) ← moreKeys fuel rest
          some (key :: keys, rest)
      | rest => some ([], rest)

/-- Nesting and dotted keys stay below this. -/
def limit : Nat := 80

/-- A key of one part or more with points between them, and the white space around it. -/
def key? (cs : List Char) : Option (List String × List Char) := do
  let (first, rest) ← simpleKey? (skipSpace cs)
  let (more, rest) ← moreKeys rest.length rest
  if more.length + 1 < limit then some (first :: more, rest) else none

/-- A key, the sign of equality and a value. -/
def pair? (item : List Char → Option (Toml × List Char)) (cs : List Char) :
    Option ((List String × Toml) × List Char) := do
  let (path, rest) ← key? cs
  match rest with
  | '=' :: rest =>
      let (value, rest) ← item (skipSpace rest)
      some ((path, value), rest)
  | _ => none

/-- The items of an array up to its closing bracket. A comma may follow the last one. -/
def items : Nat → (List Char → Option (Toml × List Char)) → List Char →
    Option (List Toml × List Char)
  | 0, _, _ => none
  | fuel + 1, item, cs => do
      match ← skipLines cs.length cs with
      | ']' :: rest => some ([], rest)
      | start =>
          let (value, rest) ← item start
          match ← skipLines rest.length rest with
          | ']' :: rest => some ([value], rest)
          | ',' :: rest =>
              let (values, rest) ← items fuel item rest
              some (value :: values, rest)
          | _ => none

/-- The pairs of an inline table up to its closing brace. -/
def pairs : Nat → (List Char → Option (Toml × List Char)) → List Char →
    Option (List (List String × Toml) × List Char)
  | 0, _, _ => none
  | fuel + 1, item, cs => do
      let (pair, rest) ← pair? item cs
      match skipSpace rest with
      | '\x7d' :: rest => some ([pair], rest)
      | ',' :: rest =>
          let (more, rest) ← pairs fuel item rest
          some (pair :: more, rest)
      | _ => none

def inlineTable? (item : List Char → Option (Toml × List Char)) (cs : List Char) :
    Option (Toml × List Char) := do
  match skipSpace cs with
  | '\x7d' :: rest => some (.table [], rest)
  | start =>
      let (found, rest) ← pairs (start.length + 1) item start
      some (← ofPairs found, rest)

/-- A value that nests arrays and inline tables at most so deep. -/
def value? : Nat → List Char → Option (Toml × List Char)
  | 0, cs => scalar? cs
  | depth + 1, cs =>
      match cs with
      | '[' :: rest =>
          (items (rest.length + 1) (value? depth) rest).map fun (vs, rest) => (.array vs, rest)
      | '\x7b' :: rest => inlineTable? (value? depth) rest
      | _ => scalar? cs

/-- The deepest nesting that is read. -/
def maxDepth : Nat := limit - 1

/-- One statement with the end of its line. -/
def statement? (cs : List Char) : Option (Statement × List Char) := do
  match cs with
  | '[' :: '[' :: rest =>
      let (path, rest) ← key? rest
      match rest with
      | ']' :: ']' :: rest => some (.listHeader path, ← lineEnd? rest)
      | _ => none
  | '[' :: rest =>
      let (path, rest) ← key? rest
      match rest with
      | ']' :: rest => some (.header path, ← lineEnd? rest)
      | _ => none
  | _ =>
      let ((path, value), rest) ← pair? (value? maxDepth) cs
      some (.pair path value, ← lineEnd? rest)

/-- The statements of a text, with blank lines and comments between them. -/
def statements? : Nat → List Char → Option (List Statement)
  | 0, _ => none
  | fuel + 1, cs =>
      match skipSpace cs with
      | [] => some []
      | '#' :: _ => do statements? fuel (← lineEnd? cs)
      | start =>
          match newline? start with
          | some rest => statements? fuel rest
          | none => do
              let (statement, rest) ← statement? start
              let more ← statements? fuel rest
              some (statement :: more)

/-- Reads a document, with or without a byte order mark in front. -/
def parse? (text : String) : Option Toml := do
  let cs := match text.toList with
    | '\ufeff' :: rest => rest
    | cs => cs
  ofStatements (← statements? (cs.length + 1) cs)

end EventSearch.Toml
