import EventSearch.Text.Digits

/-!
# TOML strings

Strings of four kinds: with escapes or literal, on one line or over several. Each function
reads a string at the start of a text and returns what is behind it.
-/
namespace EventSearch.Toml

def isSpace (c : Char) : Bool := c == ' ' || c == '\t'

/-- Characters of comments and literal strings: all but the controls, except the tab. -/
def isPlain (c : Char) : Bool := c == '\t' || (32 ≤ c.toNat && c.toNat != 127)

/-- Drops one line end. -/
def newline? : List Char → Option (List Char)
  | '\n' :: rest => some rest
  | '\r' :: '\n' :: rest => some rest
  | _ => none

/-- The character of so many hexadecimal digits, if it is one. -/
def unicode? (width : Nat) (cs : List Char) : Option (Char × List Char) := do
  let values ← (cs.take width).mapM Text.hexValue?
  if values.length = width then
    let code := values.foldl (fun n v => 16 * n + v) 0
    if code.isValidChar then some (Char.ofNat code, cs.drop width) else none
  else none

/-- The character that an escape stands for, after its backslash. -/
def escape? : List Char → Option (Char × List Char)
  | 'u' :: rest => unicode? 4 rest
  | 'U' :: rest => unicode? 8 rest
  | c :: rest =>
      match c with
      | 'b' => some (Char.ofNat 8, rest)
      | 't' => some ('\t', rest)
      | 'n' => some ('\n', rest)
      | 'f' => some (Char.ofNat 12, rest)
      | 'r' => some ('\r', rest)
      | '"' => some ('"', rest)
      | '\\' => some ('\\', rest)
      | _ => none
  | [] => none

/-- The characters of a string on one line up to its closing quote, in reverse. -/
def basicBody : Nat → List Char → List Char → Option (List Char × List Char)
  | 0, _, _ => none
  | fuel + 1, acc, cs =>
      match cs with
      | [] => none
      | '"' :: rest => some (acc, rest)
      | '\\' :: rest => do
          let (c, rest) ← escape? rest
          basicBody fuel (c :: acc) rest
      | c :: rest => if isPlain c then basicBody fuel (c :: acc) rest else none

/-- Drops white space and line ends. -/
def dropBlank : List Char → List Char
  | ' ' :: rest => dropBlank rest
  | '\t' :: rest => dropBlank rest
  | '\n' :: rest => dropBlank rest
  | '\r' :: '\n' :: rest => dropBlank rest
  | cs => cs

/-- What follows the end of a line, when only spaces and tabs are before it. -/
def lineEndAhead? (cs : List Char) : Option (List Char) :=
  (newline? (cs.dropWhile isSpace)).map dropBlank

/-- Up to two quotes that belong to the text, then the three that close it. -/
def closing? (quote : Char) (cs : List Char) : Option (List Char × List Char) :=
  let run := (cs.takeWhile (· == quote)).length
  if run < 3 then none
  else
    let kept := min (run - 3) 2
    some (List.replicate kept quote, cs.drop (kept + 3))

/-- The characters of a string over several lines, in reverse. A backslash at the end of a line
joins it with the next text. -/
def longBasicBody : Nat → List Char → List Char → Option (List Char × List Char)
  | 0, _, _ => none
  | fuel + 1, acc, cs =>
      match cs with
      | [] => none
      | '"' :: rest =>
          match closing? '"' cs with
          | some (kept, rest) => some (kept ++ acc, rest)
          | none => longBasicBody fuel ('"' :: acc) rest
      | '\\' :: rest =>
          match lineEndAhead? rest with
          | some rest => longBasicBody fuel acc rest
          | none => do
              let (c, rest) ← escape? rest
              longBasicBody fuel (c :: acc) rest
      | c :: rest =>
          match newline? cs with
          | some rest => longBasicBody fuel ('\n' :: acc) rest
          | none => if isPlain c then longBasicBody fuel (c :: acc) rest else none

/-- The characters of a literal string over several lines, in reverse. -/
def longLiteralBody : Nat → List Char → List Char → Option (List Char × List Char)
  | 0, _, _ => none
  | fuel + 1, acc, cs =>
      match cs with
      | [] => none
      | '\'' :: rest =>
          match closing? '\'' cs with
          | some (kept, rest) => some (kept ++ acc, rest)
          | none => longLiteralBody fuel ('\'' :: acc) rest
      | c :: rest =>
          match newline? cs with
          | some rest => longLiteralBody fuel ('\n' :: acc) rest
          | none => if isPlain c then longLiteralBody fuel (c :: acc) rest else none

def finishBody (found : Option (List Char × List Char)) : Option (String × List Char) :=
  found.map fun (acc, rest) => (String.ofList acc.reverse, rest)

def literalBody? (cs : List Char) : Option (String × List Char) :=
  let body := cs.takeWhile fun c => c != '\'' && isPlain c
  match cs.drop body.length with
  | '\'' :: rest => some (String.ofList body, rest)
  | _ => none

/-- A line end right after the opening quotes does not count. -/
def dropFirstNewline (cs : List Char) : List Char := (newline? cs).getD cs

/-- A string on one line. -/
def shortString? : List Char → Option (String × List Char)
  | '"' :: rest => finishBody (basicBody (rest.length + 1) [] rest)
  | '\'' :: rest => literalBody? rest
  | _ => none

def string? : List Char → Option (String × List Char)
  | '"' :: '"' :: '"' :: rest =>
      let body := dropFirstNewline rest
      finishBody (longBasicBody (body.length + 1) [] body)
  | '\'' :: '\'' :: '\'' :: rest =>
      let body := dropFirstNewline rest
      finishBody (longLiteralBody (body.length + 1) [] body)
  | cs => shortString? cs

end EventSearch.Toml
