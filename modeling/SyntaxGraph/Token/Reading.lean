import SyntaxGraph.Source.Location
import SyntaxGraph.Token.Lexeme

/-!
# Reading a text as tokens

A reading holds the tokens and the comments of a text in the order of the text.
It either reaches the end, and then its last token is the end of the file, or it
stops at a failure, and then it holds what came before.  The reading of a text is
its first lexeme followed by the reading of what is left, so every character is
covered by exactly one lexeme.
-/

set_option autoImplicit false

namespace SyntaxGraph.Token

structure LexicalFailure where
  error : LexicalError
  place : Location
deriving DecidableEq

/-- `Lexer error at line L, column C: DETAIL`. -/
def LexicalFailure.message (failure : LexicalFailure) : String :=
  s!"Lexer error at line {failure.place.line}, column {failure.place.column}: {failure.error.message}"

structure Reading where
  tokens : List Token
  comments : List Comment
  failure : Option LexicalFailure
deriving DecidableEq

namespace Reading

/-- The reading of an empty text at `place`. -/
def finished (place : Location) : Reading := ⟨[⟨.eof, place, place⟩], [], none⟩

def failed (error : LexicalError) (place : Location) : Reading := ⟨[], [], some ⟨error, place⟩⟩

/-- Put the lexeme that covers `text` in front of the reading of what follows. -/
def prepend (category : Category) (text : List Char) (start finish : Location)
    (reading : Reading) : Reading :=
  let spelled := String.ofList text
  match category.kind? spelled with
  | some kind => { reading with tokens := ⟨kind, start, finish⟩ :: reading.tokens }
  | none =>
    match category with
    | .comment => { reading with comments := ⟨spelled, start⟩ :: reading.comments }
    | _ => reading

/-- Read a text that starts at `place`. -/
def ofChars (place : Location) (fresh : Bool) : List Char → Reading
  | [] => finished place
  | first :: rest =>
    match scan fresh first rest with
    | .error error => failed error place
    | .ok lexeme =>
      let text := first :: rest.take lexeme.more
      let next := place.past text
      (ofChars next (freshAfter fresh text) (rest.drop lexeme.more)).prepend
        lexeme.category text place next
termination_by text => text.length
decreasing_by
  simp only [List.length_drop, List.length_cons]
  omega

/-- Read a whole source text. -/
def ofSource (source : String) : Reading := ofChars .origin true source.toList

end Reading

end SyntaxGraph.Token
