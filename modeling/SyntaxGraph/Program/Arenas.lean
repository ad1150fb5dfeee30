import SyntaxGraph.Node.Type
import SyntaxGraph.Node.Decl
import SyntaxGraph.Node.Expr
import SyntaxGraph.Node.Init
import SyntaxGraph.Node.Stmt

/-!
# Arenas

The nodes of a graph are kept in six arenas, one per kind, each in the order in
which its nodes were added; the index of a node is its identity.  Adding a node
answers its identity and leaves every earlier node as it was.  Two things may be
filled in later: the declarations of a type, and the comments of a declaration; and
statements may be appended to the block of an expression.
-/

set_option autoImplicit false

namespace SyntaxGraph

structure Arenas where
  decls : Array Decl := #[]
  types : Array TypeNode := #[]
  exprs : Array Expr := #[]
  stmts : Array Stmt := #[]
  inits : Array Init := #[]
  labels : Array Label := #[]
deriving DecidableEq, Inhabited

namespace Arenas

/-! ## Looking up -/

def decl? (a : Arenas) (id : DeclId) : Option Decl := a.decls[id.index]?
def type? (a : Arenas) (id : TypeId) : Option TypeNode := a.types[id.index]?
def expr? (a : Arenas) (id : ExprId) : Option Expr := a.exprs[id.index]?
def stmt? (a : Arenas) (id : StmtId) : Option Stmt := a.stmts[id.index]?
def init? (a : Arenas) (id : InitId) : Option Init := a.inits[id.index]?
def label? (a : Arenas) (id : LabelId) : Option Label := a.labels[id.index]?

/-- Whether a node is in the arenas; the program itself always is. -/
def owns (a : Arenas) : NodeRef → Bool
  | .program => true
  | .decl id => id.index < a.decls.size
  | .type id => id.index < a.types.size
  | .expr id => id.index < a.exprs.size
  | .stmt id => id.index < a.stmts.size
  | .init id => id.index < a.inits.size
  | .label id => id.index < a.labels.size

/-! ## Adding -/

/-- The identity that the next declaration gets. -/
def nextDecl (a : Arenas) : DeclId := ⟨a.decls.size⟩

def addDecl (a : Arenas) (decl : Decl) : DeclId × Arenas :=
  (⟨a.decls.size⟩, { a with decls := a.decls.push decl })

def addType (a : Arenas) (type : TypeNode) : TypeId × Arenas :=
  (⟨a.types.size⟩, { a with types := a.types.push type })

def addExpr (a : Arenas) (expr : Expr) : ExprId × Arenas :=
  (⟨a.exprs.size⟩, { a with exprs := a.exprs.push expr })

def addStmt (a : Arenas) (stmt : Stmt) : StmtId × Arenas :=
  (⟨a.stmts.size⟩, { a with stmts := a.stmts.push stmt })

def addInit (a : Arenas) (init : Init) : InitId × Arenas :=
  (⟨a.inits.size⟩, { a with inits := a.inits.push init })

def addLabel (a : Arenas) (label : Label) : LabelId × Arenas :=
  (⟨a.labels.size⟩, { a with labels := a.labels.push label })

/-! ## Filling in -/

/-- Give a type its declarations. -/
def completeType (a : Arenas) (id : TypeId) (decls : List DeclId) : Arenas :=
  { a with types := a.types.modify id.index fun type => { type with decls } }

/-- Append statements to the block of an expression. -/
def attachBlock (a : Arenas) (id : ExprId) (block : List StmtId) : Arenas :=
  { a with exprs := a.exprs.modify id.index fun expr =>
      { expr with block := expr.block ++ block } }

/-- Change the comments of a declaration. -/
def modifyComments (a : Arenas) (id : DeclId) (change : Comments → Comments) : Arenas :=
  { a with decls := a.decls.modify id.index fun decl =>
      { decl with comments := change decl.comments } }

end Arenas

end SyntaxGraph
