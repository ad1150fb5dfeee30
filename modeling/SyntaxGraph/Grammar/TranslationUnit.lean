import SyntaxGraph.Grammar.Statement
import SyntaxGraph.Program.Basic
import SyntaxGraph.Token.Reading

/-!
# Translation units

`Rules.nested n` are the rules of the grammar with at most `n` levels of nesting; as
many levels as there are tokens are enough.  A translation unit is read as a list of
external declarations, each with the places where it starts and ends.  Then the
comments are handed out in one pass over the declarations: those that start before a
declaration go before it, those that start inside it are dropped, those behind it
that start on its last line become its suffix, and what is left over at the end goes
after the last declaration.
-/

set_option autoImplicit false

namespace SyntaxGraph.Grammar

open Token (Kind Keyword Punctuator)
open Parse

/-- The rules of the grammar with a bound on their nesting. -/
def Rules.nested : Nat → Rules
  | 0 => .exceeded
  | depth + 1 =>
    let inner := Rules.nested depth
    { expression := Grammar.expression inner
      assignment := Grammar.assignment inner
      conditional := Grammar.conditional inner
      cast := Grammar.cast inner
      unary := Grammar.unary inner
      typeName := Grammar.typeName inner
      specifiers := Grammar.specifiers inner
      declarator := Grammar.declarator inner
      initializers := Grammar.initializers inner
      statement := Grammar.statement inner }

/-- The body of a function, in a scope that binds the names of its parameters. -/
def functionBody (rules : Rules) (type : TypeId) : Parse StmtId := inScope do
  let parameters := (← typeNode type).decls
  parameters.forM fun parameter => do bindName (← declName parameter) .object
  compoundStatement rules

def functionDefinition (rules : Rules) (start : Location) (specifiers : Specifiers)
    (declarator : Declarator) : Parse DeclId := do
  match declarator.name with
  | none => fail .unnamedFunction
  | some name =>
    bindName name .object
    let body ← functionBody rules declarator.type
    addDecl {
      name, storage := specifiers.storage, isInline := specifiers.isInline,
      type := declarator.type, body := some body, span := ← spanFrom start }

/-- The declarations of one external declaration, in order, and the places where it
starts and ends. -/
structure External where
  decls : List DeclId
  start : Location
  finish : Location
deriving DecidableEq

def external? (rules : Rules) : Parse (Option External) := do
  if ← at? .eof then return none
  let start ← here
  let decls ← declaration rules (functionDefinition rules)
  let finish ← finishBefore
  return some { decls, start, finish }

/-! ## Comments -/

/-- Change the comments of a declaration, if there is one. -/
def annotate (decl : Option DeclId) (change : Comments → Comments) : Parse Unit :=
  match decl with
  | some id => modifyComments id change
  | none => return ()

/-- Hand out comments to external declarations; answers the comments left over. -/
def attachComments : List External → List Comment → Parse (List Comment)
  | [], comments => return comments
  | unit :: units, comments => do
    let before := comments.takeWhile (·.start < unit.start)
    let behind := (comments.drop before.length).dropWhile (·.start < unit.finish)
    let suffix := behind.takeWhile (·.start.line = unit.finish.line)
    annotate unit.decls.head? ({ · with before := before.map Comment.text })
    annotate unit.decls.getLast? ({ · with suffix := suffix.map Comment.text })
    attachComments units (behind.drop suffix.length)

/-! ## Files -/

/-- The top-level declarations of a file, to which its comments are handed out; what is
left over goes after the last declaration. -/
def translationUnit (comments : List Comment) : Parse (List DeclId) := do
  let rules := Rules.nested (← read).size
  let units ← many (external? rules)
  let left ← attachComments units comments
  let decls := units.flatMap External.decls
  annotate decls.getLast? ({ · with after := left.map Comment.text })
  return decls

end SyntaxGraph.Grammar

namespace SyntaxGraph

open Grammar

/-- What the grammar makes of the tokens and comments of a source. -/
def Token.Reading.parse (reading : Reading) : EStateM.Result Cause State (List DeclId) :=
  translationUnit reading.comments reading.tokens.toArray {}

/-- Read the program that a source text writes. -/
def Program.read (file source : String) : Except ParseError Program :=
  let reading := Token.Reading.ofSource source
  match reading.failure with
  | some failure => .error ⟨file, failure.place, .lexical failure.error⟩
  | none =>
    match reading.parse with
    | .ok decls state => .ok { file, decls, arenas := state.arenas }
    | .error cause state =>
      .error ⟨file, Tokens.start reading.tokens.toArray state.position, cause⟩

end SyntaxGraph
