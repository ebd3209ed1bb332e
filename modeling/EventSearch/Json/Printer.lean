import EventSearch.Double.Layout
import EventSearch.Json.Basic

/-!
# Printing JSON values

Compact text without spaces between the parts of arrays and objects.
-/
namespace EventSearch.Json

def printChar (c : Char) : String :=
  match c with
  | '"' => "\\\""
  | '\\' => "\\\\"
  | '\n' => "\\n"
  | '\r' => "\\r"
  | '\t' => "\\t"
  | _ =>
      if c.toNat = 8 then "\\b"
      else if c.toNat = 12 then "\\f"
      else if c.toNat < 32 then
        "\\u" ++ String.ofList (Text.zeroPadded 4 (Text.digitsIn 16 c.toNat))
      else String.singleton c

def printString (s : String) : String :=
  "\"" ++ s.toList.foldl (fun out c => out ++ printChar c) "" ++ "\""

mutual

def print : Json → String
  | .null => "null"
  | .bool b => if b then "true" else "false"
  | .int n _ => Text.signed n
  | .double d _ => d.document
  | .str s => printString s
  | .arr items => "[" ++ printItems items ++ "]"
  | .obj members => "\x7b" ++ printMembers members ++ "\x7d"

def printItems : List Json → String
  | [] => ""
  | [v] => print v
  | v :: rest => print v ++ "," ++ printItems rest

def printMembers : List (String × Json) → String
  | [] => ""
  | [(k, v)] => printString k ++ ":" ++ print v
  | (k, v) :: rest => printString k ++ ":" ++ print v ++ "," ++ printMembers rest

end

end EventSearch.Json
