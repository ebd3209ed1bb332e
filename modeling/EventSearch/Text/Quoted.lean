import EventSearch.Text.Character
import EventSearch.Text.Digits

/-!
# Quoted text

A text between double quotes in which every character can be read. Quotes, backslashes
and the common controls are escaped by a letter, characters without a visible form and
those that join the character before them by their code point.
-/
namespace EventSearch.Text

def escapeChar (c : Char) : String :=
  if c = '"' then "\\\""
  else if c = '\\' then "\\\\"
  else if c = '\n' then "\\n"
  else if c = '\r' then "\\r"
  else if c = '\t' then "\\t"
  else if c.toNat = 0 then "\\0"
  else if isExtender c || isHidden c then "\\u\x7b" ++ hexadecimal c.toNat ++ "\x7d"
  else String.singleton c

def quoted (text : String) : String :=
  "\"" ++ text.toList.foldl (fun out c => out ++ escapeChar c) "" ++ "\""

end EventSearch.Text
