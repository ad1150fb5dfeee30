/-!
# Node identities

A node is named by its kind and by its index among the nodes of that kind.  Two
nodes with equal contents are still two nodes, and a node reached along two paths
is one node, so everything that walks or binds works on these identities.  An index is
any number here; a build of the reader has only so many of them, and `Grammar.Build` says
what it does at a node for which there is none left.
-/

set_option autoImplicit false

namespace SyntaxGraph

structure DeclId where
  index : Nat
deriving DecidableEq, Inhabited

structure TypeId where
  index : Nat
deriving DecidableEq, Inhabited

structure ExprId where
  index : Nat
deriving DecidableEq, Inhabited

structure StmtId where
  index : Nat
deriving DecidableEq, Inhabited

structure InitId where
  index : Nat
deriving DecidableEq, Inhabited

structure LabelId where
  index : Nat
deriving DecidableEq, Inhabited

/-- Any node that a walk can reach. -/
inductive NodeRef
  | program
  | decl (id : DeclId)
  | type (id : TypeId)
  | expr (id : ExprId)
  | stmt (id : StmtId)
  | init (id : InitId)
  | label (id : LabelId)
deriving DecidableEq, Inhabited

/-- How a message names a node. -/
def NodeRef.describe : NodeRef → String
  | .program => "Program"
  | .decl id => s!"Decl(DeclId({id.index}))"
  | .type id => s!"Type(TypeId({id.index}))"
  | .expr id => s!"Expr(ExprId({id.index}))"
  | .stmt id => s!"Stmt(StmtId({id.index}))"
  | .init id => s!"Init(InitId({id.index}))"
  | .label id => s!"Label(LabelId({id.index}))"

end SyntaxGraph
