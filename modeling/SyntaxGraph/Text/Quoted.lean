import SyntaxGraph.Text.Range
import SyntaxGraph.Text.Unprintable

/-!
# Quoted text

A text is quoted between double quotes.  A quote and a backslash inside it get a
backslash, tab, newline, carriage return and the null character are written with a
letter or a digit, and any other character that is not shown as it is becomes its
hexadecimal code point in braces.
-/

set_option autoImplicit false

namespace SyntaxGraph.Text

def hex (n : Nat) : String := String.ofList (Nat.toDigits 16 n)

def quotedChar (c : Char) : String :=
  if c = '\x22' then "\\\""
  else if c = '\\' then "\\\\"
  else if c = '\t' then "\\t"
  else if c = '\n' then "\\n"
  else if c = '\r' then "\\r"
  else if c.toNat = 0 then "\\0"
  else if inRanges unprintable c then "\\u\x7b" ++ hex c.toNat ++ "\x7d"
  else c.toString

def quoted (text : String) : String :=
  "\"" ++ String.join (text.toList.map quotedChar) ++ "\""

end SyntaxGraph.Text
