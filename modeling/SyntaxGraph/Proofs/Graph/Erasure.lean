import SyntaxGraph.Program.Basic

/-!
# Programs without places and comments

Erasing gives all nodes the same span and takes the comments away from declarations; all
else stays as it is.  It goes through arenas node by node, so it makes no difference
whether a node is added or filled in before it or afterwards.
-/

set_option autoImplicit false

namespace SyntaxGraph

/-- The span of everything that has been erased. -/
def Span.blank : Span := .point .origin

def Decl.erased (decl : Decl) : Decl := { decl with span := .blank, comments := {} }

def TypeNode.erased (type : TypeNode) : TypeNode := { type with span := .blank }

theorem TypeNode.kind_eq {one other : TypeNode} (equal : one.erased = other.erased) :
    one.kind = other.kind := by
  have kinds : one.erased.kind = other.erased.kind := congrArg TypeNode.kind equal
  exact kinds

theorem TypeNode.decls_eq {one other : TypeNode} (equal : one.erased = other.erased) :
    one.decls = other.decls := by
  have decls : one.erased.decls = other.erased.decls := congrArg TypeNode.decls equal
  exact decls

def Expr.erased (expr : Expr) : Expr := { expr with span := .blank }

def Stmt.erased (stmt : Stmt) : Stmt := { stmt with span := .blank }

def Designator.erased (designator : Designator) : Designator :=
  { designator with span := .blank }

def Init.erased (init : Init) : Init :=
  { init with designators := init.designators.map Designator.erased, span := .blank }

def Label.erased (label : Label) : Label := { label with span := .blank }

namespace Arenas

variable {a b : Arenas}

def erased (a : Arenas) : Arenas where
  decls := a.decls.map Decl.erased
  types := a.types.map TypeNode.erased
  exprs := a.exprs.map Expr.erased
  stmts := a.stmts.map Stmt.erased
  inits := a.inits.map Init.erased
  labels := a.labels.map Label.erased

/-! ## Looking up -/

theorem erased_decl? (a : Arenas) (id : DeclId) :
    a.erased.decl? id = (a.decl? id).map Decl.erased := by
  simp [decl?, erased]

theorem erased_type? (a : Arenas) (id : TypeId) :
    a.erased.type? id = (a.type? id).map TypeNode.erased := by
  simp [type?, erased]

theorem erased_expr? (a : Arenas) (id : ExprId) :
    a.erased.expr? id = (a.expr? id).map Expr.erased := by
  simp [expr?, erased]

/-! ## Adding -/

theorem erased_addDecl (a : Arenas) (decl : Decl) :
    a.erased.addDecl decl.erased = ((a.addDecl decl).1, (a.addDecl decl).2.erased) := by
  simp [addDecl, erased]

theorem erased_addType (a : Arenas) (type : TypeNode) :
    a.erased.addType type.erased = ((a.addType type).1, (a.addType type).2.erased) := by
  simp [addType, erased]

theorem erased_addExpr (a : Arenas) (expr : Expr) :
    a.erased.addExpr expr.erased = ((a.addExpr expr).1, (a.addExpr expr).2.erased) := by
  simp [addExpr, erased]

theorem erased_addStmt (a : Arenas) (stmt : Stmt) :
    a.erased.addStmt stmt.erased = ((a.addStmt stmt).1, (a.addStmt stmt).2.erased) := by
  simp [addStmt, erased]

theorem erased_addInit (a : Arenas) (init : Init) :
    a.erased.addInit init.erased = ((a.addInit init).1, (a.addInit init).2.erased) := by
  simp [addInit, erased]

theorem erased_addLabel (a : Arenas) (label : Label) :
    a.erased.addLabel label.erased = ((a.addLabel label).1, (a.addLabel label).2.erased) := by
  simp [addLabel, erased]

/-! ## Filling in -/

theorem map_modify {α : Type} {erase change other : α → α}
    (commutes : ∀ value, erase (change value) = other (erase value)) (values : Array α)
    (index : Nat) :
    (values.modify index change).map erase = (values.map erase).modify index other := by
  refine Array.ext (by simp) fun place inside _ => ?_
  simp only [Array.getElem_map, Array.getElem_modify]
  split
  · exact commutes _
  · rfl

theorem erased_completeType (a : Arenas) (id : TypeId) (decls : List DeclId) :
    (a.completeType id decls).erased = a.erased.completeType id decls := by
  have types : (a.types.modify id.index fun type => { type with decls }).map TypeNode.erased =
      (a.types.map TypeNode.erased).modify id.index fun type => { type with decls } := by
    refine map_modify (fun type => ?_) a.types id.index
    rfl
  simp only [erased, completeType, types]

/-- Comments leave no trace. -/
theorem erased_modifyComments (a : Arenas) (id : DeclId) (change : Comments → Comments) :
    (a.modifyComments id change).erased = a.erased := by
  have decls : (a.decls.modify id.index fun decl =>
      { decl with comments := change decl.comments }).map Decl.erased =
      a.decls.map Decl.erased := by
    refine Array.ext (by simp) fun place _ _ => ?_
    simp only [Array.getElem_map, Array.getElem_modify]
    split <;> rfl
  simp only [erased, modifyComments, decls]

end Arenas

def Program.erased (p : Program) : Program := { p with arenas := p.arenas.erased }

end SyntaxGraph
