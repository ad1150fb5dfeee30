import SyntaxGraph.Node.Type
import SyntaxGraph.Token.Kind

/-!
# Basic type words

A basic type is written with words in any order: at most one of `void`, `_Bool`,
`char`, `float` and `double`, with sizes and signedness where they make sense.  The
type that the words name depends on which of them occur and on the number of times
`long` does.
-/

set_option autoImplicit false

namespace SyntaxGraph.Grammar

open Token (Keyword)

structure TypeWords where
  void : Bool := false
  bool : Bool := false
  char : Bool := false
  short : Bool := false
  int : Bool := false
  long : Nat := 0
  float : Bool := false
  double : Bool := false
  signed : Bool := false
  unsigned : Bool := false
deriving DecidableEq, Inhabited

namespace TypeWords

def isEmpty (w : TypeWords) : Bool := w = {}

/-- The words with one more, or nothing for a keyword that is no type word. -/
def insert? (w : TypeWords) : Keyword → Option TypeWords
  | .voidKw => some { w with void := true }
  | .boolKw => some { w with bool := true }
  | .charKw => some { w with char := true }
  | .shortKw => some { w with short := true }
  | .intKw => some { w with int := true }
  | .longKw => some { w with long := w.long + 1 }
  | .floatKw => some { w with float := true }
  | .doubleKw => some { w with double := true }
  | .signedKw => some { w with signed := true }
  | .unsignedKw => some { w with unsigned := true }
  | _ => none

/-- Some word gives a size. -/
def isSized (w : TypeWords) : Bool := w.short || w.long > 0

/-- Some word says whether there is a sign. -/
def isSigned (w : TypeWords) : Bool := w.signed || w.unsigned

/-- How many of the words that name a type by themselves occur. -/
def primaries (w : TypeWords) : Nat :=
  [w.void, w.bool, w.char, w.float, w.double].count true

/-- Words that contradict each other whatever else occurs. -/
def isContradictory (w : TypeWords) : Bool :=
  (w.signed && w.unsigned) || (w.short && w.long > 0) || w.long > 2 || w.primaries > 1

/-- The type that the words name, if they name one. -/
def kind? (w : TypeWords) : Option TypeKind :=
  if w.isContradictory then none
  else if w.void || w.bool || w.float then
    if w.isSized || w.isSigned || w.int then none
    else some (if w.void then .void else if w.bool then .bool else .float)
  else if w.char then
    if w.isSized || w.int then none
    else some (if w.signed then .schar else if w.unsigned then .uchar else .char)
  else if w.double then
    if w.short || w.int || w.isSigned || w.long > 1 then none
    else some (if w.long = 1 then .longDouble else .double)
  else if w.short then some (if w.unsigned then .ushort else .short)
  else if w.long = 2 then some (if w.unsigned then .ulonglong else .longlong)
  else if w.long = 1 then some (if w.unsigned then .ulong else .long)
  else some (if w.unsigned then .uint else .int)

end TypeWords

end SyntaxGraph.Grammar
