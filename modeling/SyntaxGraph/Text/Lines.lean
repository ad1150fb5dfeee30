/-!
# Lines

A text is laid out with its lines behind the first one indented, or cut behind its
first line.
-/

set_option autoImplicit false

namespace SyntaxGraph.Text

/-- The text with `indent` spaces in front of each line but the first. -/
def hanging (indent : Nat) (text : String) : String :=
  String.ofList (text.toList.flatMap fun c =>
    if c = '\n' then c :: List.replicate indent ' ' else [c])

/-- The characters in front of the first line break, which is a newline with or without
a carriage return before it. -/
def firstLineOf : List Char → List Char
  | [] => []
  | '\n' :: _ => []
  | '\r' :: '\n' :: _ => []
  | c :: rest => c :: firstLineOf rest

def firstLine (text : String) : String := String.ofList (firstLineOf text.toList)

end SyntaxGraph.Text
