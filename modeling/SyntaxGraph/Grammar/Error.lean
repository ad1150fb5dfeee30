import SyntaxGraph.Node.Type
import SyntaxGraph.Token.Lexeme

/-!
# Why a source is refused

Each cause stands for one rule of the language that a source breaks; `detail` words
it.  A fault is no rule of the language but a check of the reader on itself: it stands
for something that no source brings about.
-/

set_option autoImplicit false

namespace SyntaxGraph.Grammar

open Token (Kind)

inductive Fault
  /-- The bound on the nesting of the rules is used up. -/
  | nesting
  /-- A repetition goes on although it has not consumed a token. -/
  | idle
  /-- There is no token at a position that is read or gone to. -/
  | outside (position : Nat)
  /-- A parenthesis closes that has not been opened. -/
  | unopened
  /-- A node is looked up that has not been added. -/
  | missing (node : NodeRef)
deriving DecidableEq

def Fault.detail : Fault → String
  | .nesting => "Nesting is too deep"
  | .idle => "Repetition without progress"
  | .outside position => s!"No token at position {position}"
  | .unopened => "Unbalanced parenthesis"
  | .missing node => s!"{node.describe} is missing"

inductive Cause
  | lexical (error : Token.LexicalError)
  | expected (wanted : Kind) (context : String) (found : Kind)
  | expectedIdentifier (found : Kind)
  | expectedExpression (found : Kind)
  | expectedTypeSpecifier (found : Kind)
  | expectedTag (kind : TypeKind)
  | unclosedDeclarator
  | unclosedMembers
  | multipleStorageClasses
  | multipleTypes
  | invalidTypeWords
  | redefinition (kind : TypeKind) (tag : String)
  | tagMismatch (tag : String) (declared wanted : TypeKind)
  | bitFieldType (kind : TypeKind)
  | nestedFunction
  | initializedTypedef (name : String)
  | storageInTypeName
  | nameInTypeName (name : String)
  | secondForDeclaration
  | unnamedFunction
  | unnamedDeclarator
  | fault (fault : Fault)
deriving DecidableEq

def Cause.detail : Cause → String
  | .lexical error => error.message
  | .expected wanted context found =>
    s!"Expected {wanted.describe} {context}, found {found.describe}"
  | .expectedIdentifier found => s!"Expected identifier, found {found.describe}"
  | .expectedExpression found => s!"Expected expression, found {found.describe}"
  | .expectedTypeSpecifier found => s!"Expected type specifier, found {found.describe}"
  | .expectedTag kind => s!"Expected '\x7b' or tag after {kind.name}"
  | .unclosedDeclarator => "Expected ')' to close declarator"
  | .unclosedMembers => "Expected '\x7d' after struct members"
  | .multipleStorageClasses => "Multiple storage classes in declaration"
  | .multipleTypes => "Multiple types in declaration"
  | .invalidTypeWords => "Invalid combination of type specifiers"
  | .redefinition kind tag => s!"Redefinition of {kind.name} {tag}"
  | .tagMismatch tag declared wanted =>
    s!"'{tag}' was declared as {declared.name}, not {wanted.name}"
  | .bitFieldType kind => s!"Bit-field has non-integer type {kind.name}"
  | .nestedFunction => "Function definition is not allowed here"
  | .initializedTypedef name => s!"Typedef '{name}' cannot be initialized"
  | .storageInTypeName => "Storage class in type name"
  | .nameInTypeName name => s!"Unexpected name '{name}' in type name"
  | .secondForDeclaration => "Only one declaration is allowed in a for initializer"
  | .unnamedFunction => "Expected function name"
  | .unnamedDeclarator => "Expected declarator name"
  | .fault reason => reason.detail

end SyntaxGraph.Grammar

namespace SyntaxGraph

/-- A source that cannot be read: the file, the place, and the cause. -/
structure ParseError where
  file : String
  place : Location
  cause : Grammar.Cause
deriving DecidableEq

namespace ParseError

def detail (error : ParseError) : String := error.cause.detail

/-- `FILE: parse error at line L, column C: DETAIL`. -/
def message (error : ParseError) : String :=
  s!"{error.file}: parse error at line {error.place.line}, column {error.place.column}: {error.detail}"

end ParseError

end SyntaxGraph
