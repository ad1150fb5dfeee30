import SyntaxGraph.Program.Basic

/-!
# The children of a node

Each kind of node lists its children in a fixed order: a declaration its type, its
initializer and its body; a type its base, its declarations and its width; an
expression its left and right operands, its list, its type, its initializer and its
block; a statement its first, main and last expressions, its declaration, its body,
its alternative, its block and its labels; an initializer its items or its
expression; a label its value.  Designators have no children of their own, and the
expressions and declarations they mention are not reached through them.
-/

set_option autoImplicit false

namespace SyntaxGraph

def Decl.children (d : Decl) : List NodeRef :=
  .type d.type :: (d.init.map NodeRef.init).toList ++ (d.body.map NodeRef.stmt).toList

def TypeNode.children (t : TypeNode) : List NodeRef :=
  (t.base.map NodeRef.type).toList ++ t.decls.map .decl ++ (t.width.map NodeRef.expr).toList

def Expr.children (e : Expr) : List NodeRef :=
  (e.left.map NodeRef.expr).toList ++ (e.right.map NodeRef.expr).toList ++
    e.list.map .expr ++ (e.typeOperand.map NodeRef.type).toList ++
    (e.init.map NodeRef.init).toList ++ e.block.map .stmt

def Stmt.children (s : Stmt) : List NodeRef :=
  (s.pre.map NodeRef.expr).toList ++ (s.expr.map NodeRef.expr).toList ++
    (s.post.map NodeRef.expr).toList ++ (s.decl.map NodeRef.decl).toList ++
    (s.body.map NodeRef.stmt).toList ++ (s.otherwise.map NodeRef.stmt).toList ++
    s.block.map .stmt ++ s.labels.map .label

def Init.children (i : Init) : List NodeRef :=
  i.items.map .init ++ (i.scalar.map NodeRef.expr).toList

def Label.children (l : Label) : List NodeRef := (l.expr.map NodeRef.expr).toList

/-- The children of a node in order; a node that the program does not own has none. -/
def Program.children (p : Program) : NodeRef → List NodeRef
  | .program => p.decls.map .decl
  | .decl id => (p.decl? id).elim [] Decl.children
  | .type id => (p.type? id).elim [] TypeNode.children
  | .expr id => (p.expr? id).elim [] Expr.children
  | .stmt id => (p.stmt? id).elim [] Stmt.children
  | .init id => (p.init? id).elim [] Init.children
  | .label id => (p.label? id).elim [] Label.children

end SyntaxGraph
