import SyntaxGraph.Source.Location
import SyntaxGraph.Node.Id

/-!
# Declarations

A declaration gives a name to a variable, function, parameter, member, enumerator
or type; the name is empty where the source gives none, as in a declaration that
only introduces a tag.  The comments around a top-level declaration are kept with
their delimiters: those before it, those behind it on its last line, and, for the
last declaration of a file, those that belong to nothing else.  The output group
is empty until it is assigned.
-/

set_option autoImplicit false

namespace SyntaxGraph

inductive Storage
  | none | auto | register | static | external | typedef
deriving DecidableEq, Inhabited

structure Comments where
  before : List String := []
  suffix : List String := []
  after : List String := []
deriving DecidableEq, Inhabited

def Comments.isEmpty (c : Comments) : Bool :=
  c.before.isEmpty && c.suffix.isEmpty && c.after.isEmpty

structure Decl where
  name : String
  storage : Storage := .none
  isInline : Bool := false
  type : TypeId
  init : Option InitId := none
  body : Option StmtId := none
  span : Span
  comments : Comments := {}
  group : Option String := none
deriving DecidableEq, Inhabited

def Decl.isTypedef (decl : Decl) : Bool := decl.storage = .typedef

end SyntaxGraph
