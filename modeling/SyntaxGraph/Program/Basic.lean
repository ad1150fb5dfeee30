import SyntaxGraph.Program.Arenas

/-!
# Programs

A program is a file name, the list of its top-level declarations, and the arenas
that hold its nodes.  Nothing forces the identities stored in nodes to name nodes
of the same program; a look-up of one that does not finds nothing.
-/

set_option autoImplicit false

namespace SyntaxGraph

structure Program where
  file : String
  decls : List DeclId
  arenas : Arenas
deriving DecidableEq, Inhabited

namespace Program

def decl? (p : Program) (id : DeclId) : Option Decl := p.arenas.decl? id
def type? (p : Program) (id : TypeId) : Option TypeNode := p.arenas.type? id
def expr? (p : Program) (id : ExprId) : Option Expr := p.arenas.expr? id
def stmt? (p : Program) (id : StmtId) : Option Stmt := p.arenas.stmt? id
def init? (p : Program) (id : InitId) : Option Init := p.arenas.init? id
def label? (p : Program) (id : LabelId) : Option Label := p.arenas.label? id

def owns (p : Program) (node : NodeRef) : Bool := p.arenas.owns node

end Program

end SyntaxGraph
