import SyntaxGraph.Grammar.Parse

/-!
# The recursive rules of the grammar

The grammar is recursive through a handful of rules.  `Rules` holds them as they
are one level of nesting further in, and every rule of the grammar is defined over
such a record; it goes through the record only after it has consumed a token.  So
the nesting of a reading is at most the number of tokens, and a bound on it can be
fixed before reading starts.
-/

set_option autoImplicit false

namespace SyntaxGraph.Grammar

/-- Storage class and type, which all declarators of one declaration share. -/
structure Specifiers where
  storage : Storage
  isInline : Bool
  type : TypeId
deriving DecidableEq, Inhabited

/-- What a declarator declares: a name, which may be missing, and its type. -/
structure Declarator where
  name : Option String
  type : TypeId
deriving DecidableEq, Inhabited

structure Rules where
  expression : Parse ExprId
  assignment : Parse ExprId
  conditional : Parse ExprId
  cast : Parse ExprId
  unary : Parse ExprId
  typeName : Parse TypeId
  specifiers : Parse Specifiers
  /-- A declarator over a type; the flag allows its name to be missing. -/
  declarator : TypeId → Bool → Parse Declarator
  /-- The items of a braced initializer behind its opening brace, with the closing one. -/
  initializers : Parse (List InitId)
  statement : Parse StmtId

/-- The rules with which no nesting is left. -/
def Rules.exceeded : Rules where
  expression := .fail (.fault .nesting)
  assignment := .fail (.fault .nesting)
  conditional := .fail (.fault .nesting)
  cast := .fail (.fault .nesting)
  unary := .fail (.fault .nesting)
  typeName := .fail (.fault .nesting)
  specifiers := .fail (.fault .nesting)
  declarator _ _ := .fail (.fault .nesting)
  initializers := .fail (.fault .nesting)
  statement := .fail (.fault .nesting)

end SyntaxGraph.Grammar
