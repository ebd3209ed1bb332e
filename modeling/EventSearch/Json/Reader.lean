import EventSearch.Json.Number

/-!
# Reading JSON texts

The recursion follows the nesting of arrays and objects, which is limited. White space is
the space, the tab and the two line ends, and escapes of half a surrogate pair are refused.
-/
namespace EventSearch.Json

def isSpace (c : Char) : Bool := c == ' ' || c == '\t' || c == '\n' || c == '\r'

def skipSpace (cs : List Char) : List Char := cs.dropWhile isSpace

/-- The code unit of four hexadecimal digits. -/
def unit? (a b c d : Char) : Option Nat := do
  let a ← Text.hexValue? a
  let b ← Text.hexValue? b
  let c ← Text.hexValue? c
  let d ← Text.hexValue? d
  some (((a * 16 + b) * 16 + c) * 16 + d)

/-- The character of two halves of a surrogate pair. -/
def surrogatePair? (high low : Nat) : Option Char :=
  if 0xd800 ≤ high ∧ high < 0xdc00 ∧ 0xdc00 ≤ low ∧ low < 0xe000 then
    some (Char.ofNat (0x10000 + (high - 0xd800) * 0x400 + (low - 0xdc00)))
  else none

/-- The character that a letter after a backslash stands for. -/
def escaped? (c : Char) : Option Char :=
  match c with
  | '"' => some '"'
  | '\\' => some '\\'
  | '/' => some '/'
  | 'b' => some (Char.ofNat 8)
  | 'f' => some (Char.ofNat 12)
  | 'n' => some '\n'
  | 'r' => some '\r'
  | 't' => some '\t'
  | _ => none

/-- The characters up to the closing quote, in reverse order, and what is behind it. -/
def stringBody (acc : List Char) : List Char → Option (List Char × List Char)
  | [] => none
  | '"' :: rest => some (acc, rest)
  | '\\' :: 'u' :: a :: b :: c :: d :: rest =>
      match unit? a b c d with
      | none => none
      | some high =>
          if high.isValidChar then stringBody (Char.ofNat high :: acc) rest
          else match rest with
            | '\\' :: 'u' :: e :: f :: g :: h :: rest =>
                match (unit? e f g h).bind (surrogatePair? high) with
                | none => none
                | some c => stringBody (c :: acc) rest
            | _ => none
  | '\\' :: c :: rest =>
      match escaped? c with
      | none => none
      | some c => stringBody (c :: acc) rest
  | c :: rest => if c.toNat < 32 then none else stringBody (c :: acc) rest

/-- The text after its opening quote. -/
def string? (cs : List Char) : Option (String × List Char) :=
  (stringBody [] cs).map fun (acc, rest) => (String.ofList acc.reverse, rest)

/-- The remaining items of an array, each after a comma, up to the closing bracket. -/
def moreItems (item : List Char → Option (Json × List Char)) :
    Nat → List Json → List Char → Option (List Json × List Char)
  | 0, _, _ => none
  | fuel + 1, acc, cs =>
      match skipSpace cs with
      | ']' :: rest => some (acc.reverse, rest)
      | ',' :: rest => do
          let (value, rest) ← item (skipSpace rest)
          moreItems item fuel (value :: acc) rest
      | _ => none

/-- The items of an array after its opening bracket. -/
def items? (item : List Char → Option (Json × List Char)) (fuel : Nat) (cs : List Char) :
    Option (List Json × List Char) :=
  match skipSpace cs with
  | ']' :: rest => some ([], rest)
  | start => do
      let (value, rest) ← item start
      moreItems item fuel [value] rest

def member? (item : List Char → Option (Json × List Char)) (cs : List Char) :
    Option ((String × Json) × List Char) :=
  match skipSpace cs with
  | '"' :: rest => do
      let (name, rest) ← string? rest
      match skipSpace rest with
      | ':' :: rest =>
          let (value, rest) ← item (skipSpace rest)
          some ((name, value), rest)
      | _ => none
  | _ => none

/-- The remaining members of an object, each after a comma, up to the closing brace. -/
def moreMembers (item : List Char → Option (Json × List Char)) :
    Nat → Fields Json → List Char → Option (Fields Json × List Char)
  | 0, _, _ => none
  | fuel + 1, acc, cs =>
      match skipSpace cs with
      | '\x7d' :: rest => some (acc, rest)
      | ',' :: rest => do
          let ((name, value), rest) ← member? item rest
          moreMembers item fuel (acc.insert name value) rest
      | _ => none

/-- The members of an object after its opening brace. -/
def members? (item : List Char → Option (Json × List Char)) (fuel : Nat) (cs : List Char) :
    Option (Fields Json × List Char) :=
  match skipSpace cs with
  | '\x7d' :: rest => some ([], rest)
  | start => do
      let ((name, value), rest) ← member? item start
      moreMembers item fuel [(name, value)] rest

def scalar? : List Char → Option (Json × List Char)
  | 'n' :: 'u' :: 'l' :: 'l' :: rest => some (.null, rest)
  | 't' :: 'r' :: 'u' :: 'e' :: rest => some (.bool true, rest)
  | 'f' :: 'a' :: 'l' :: 's' :: 'e' :: rest => some (.bool false, rest)
  | '"' :: rest => (string? rest).map fun (s, rest) => (.str s, rest)
  | cs => number? cs

/-- A value that starts here and nests arrays and objects at most so deep. The fuel bounds the
count of items in each of them. -/
def value? (fuel : Nat) : Nat → List Char → Option (Json × List Char)
  | 0, cs => scalar? cs
  | depth + 1, cs =>
      match cs with
      | '[' :: rest =>
          (items? (value? fuel depth) fuel rest).map fun (items, rest) => (.arr items, rest)
      | '\x7b' :: rest =>
          (members? (value? fuel depth) fuel rest).map fun (members, rest) => (.obj members, rest)
      | _ => scalar? cs

/-- The deepest nesting that is read. -/
def maxDepth : Nat := 127

/-- Reads a text that holds one value, with white space around it. -/
def read? (depth : Nat) (cs : List Char) : Option Json := do
  let (value, rest) ← value? cs.length depth (skipSpace cs)
  if (skipSpace rest).isEmpty then some value else none

def parse? (text : String) : Option Json := read? maxDepth text.toList

end EventSearch.Json
