import SyntaxGraph.Program.Arenas
import SyntaxGraph.Program.Missing

/-!
# Assembling a graph by hand

Whoever adds nodes to arenas one by one may fill in a node only if it is there.
Reading a source never fails at this, since it fills in nodes that it has added.
-/

set_option autoImplicit false

namespace SyntaxGraph.Arenas

/-- Change arenas, provided that they own the node that the change is about. -/
def ifOwned (a : Arenas) (node : NodeRef) (changed : Arenas) : Except MissingNode Arenas :=
  if a.owns node then .ok changed else .error (.lookedUp node)

def completeType? (a : Arenas) (id : TypeId) (decls : List DeclId) :
    Except MissingNode Arenas :=
  a.ifOwned (.type id) (a.completeType id decls)

def attachBlock? (a : Arenas) (id : ExprId) (block : List StmtId) :
    Except MissingNode Arenas :=
  a.ifOwned (.expr id) (a.attachBlock id block)

/-- Replace the comments of a declaration. -/
def setComments? (a : Arenas) (id : DeclId) (comments : Comments) :
    Except MissingNode Arenas :=
  a.ifOwned (.decl id) (a.modifyComments id fun _ => comments)

end SyntaxGraph.Arenas
