import SyntaxGraph.Text.Range

/-!
# White space

White space in the sense of any script, and the text without the white space at its
end.
-/

set_option autoImplicit false

namespace SyntaxGraph.Text

def whiteSpace : Array (Nat × Nat) :=
  #[(0x9, 0xd), (0x20, 0x20), (0x85, 0x85), (0xa0, 0xa0), (0x1680, 0x1680), (0x2000, 0x200a),
    (0x2028, 0x2029), (0x202f, 0x202f), (0x205f, 0x205f), (0x3000, 0x3000)]

def isWhiteSpace (c : Char) : Bool := inRanges whiteSpace c

/-- The text without the white space at its end. -/
def trimmedEnd (text : String) : String :=
  String.ofList ((text.toList.reverse.dropWhile isWhiteSpace).reverse)

end SyntaxGraph.Text
