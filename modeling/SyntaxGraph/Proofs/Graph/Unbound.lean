import SyntaxGraph.Program.Basic

/-!
# Programs without bindings

Five fields of nodes are empty until something is bound to them.  Taking the bindings away
empties these fields and leaves all else as it is.  What is written without bindings stays
so however nodes are put together, so a program is found to be unbound node by node; and
what is the same without its bindings has none of them filled.
-/

set_option autoImplicit false

namespace SyntaxGraph

def Decl.unbound (decl : Decl) : Decl := { decl with group := none }

def Expr.unbound (expr : Expr) : Expr := { expr with resolvedType := none, resolvedDecl := none }

def Selector.unbound : Selector → Selector
  | .field name _ => .field name none
  | .index expr => .index expr

def Designator.unbound (designator : Designator) : Designator :=
  { designator with selector := designator.selector.unbound }

def Init.unbound (init : Init) : Init :=
  { init with designators := init.designators.map Designator.unbound, resolvedType := none }

namespace Arenas

def unbound (a : Arenas) : Arenas :=
  { a with
    decls := a.decls.map Decl.unbound
    exprs := a.exprs.map Expr.unbound
    inits := a.inits.map Init.unbound }

theorem unbound_decl? (a : Arenas) (id : DeclId) :
    a.unbound.decl? id = (a.decl? id).map Decl.unbound := by
  simp [decl?, unbound]

theorem unbound_expr? (a : Arenas) (id : ExprId) :
    a.unbound.expr? id = (a.expr? id).map Expr.unbound := by
  simp [expr?, unbound]

theorem unbound_init? (a : Arenas) (id : InitId) :
    a.unbound.init? id = (a.init? id).map Init.unbound := by
  simp [init?, unbound]

theorem unbound_owns (a : Arenas) (node : NodeRef) : a.unbound.owns node = a.owns node := by
  cases node with
  | decl id => simp [owns, unbound]
  | expr id => simp [owns, unbound]
  | init id => simp [owns, unbound]
  | _ => rfl

/-- No node is bound to a group, to a type or to a declaration. -/
structure Unresolved (a : Arenas) : Prop where
  decls : ∀ decl ∈ a.decls, decl.group = none
  exprs : ∀ expr ∈ a.exprs, expr.resolvedType = none ∧ expr.resolvedDecl = none
  inits : ∀ init ∈ a.inits, init.resolvedType = none
  designators : ∀ init ∈ a.inits, ∀ designator ∈ init.designators, ∀ name resolved,
    designator.selector = .field name resolved → resolved = none

/-- What is the same without its bindings has none. -/
theorem unresolved_of_unbound {a : Arenas} (same : a.unbound = a) : a.Unresolved := by
  have decls : a.decls.map Decl.unbound = a.decls.map id :=
    (congrArg Arenas.decls same).trans (Array.map_id _).symm
  have exprs : a.exprs.map Expr.unbound = a.exprs.map id :=
    (congrArg Arenas.exprs same).trans (Array.map_id _).symm
  have inits : a.inits.map Init.unbound = a.inits.map id :=
    (congrArg Arenas.inits same).trans (Array.map_id _).symm
  constructor
  case decls =>
    intro decl member
    exact (congrArg Decl.group (Array.map_inj_left.mp decls decl member)).symm
  case exprs =>
    intro expr member
    have free := Array.map_inj_left.mp exprs expr member
    exact ⟨(congrArg Expr.resolvedType free).symm, (congrArg Expr.resolvedDecl free).symm⟩
  case inits =>
    intro init member
    exact (congrArg Init.resolvedType (Array.map_inj_left.mp inits init member)).symm
  case designators =>
    intro init member designator inside name resolved field
    have free := congrArg Init.designators (Array.map_inj_left.mp inits init member)
    have each := List.map_inj_left.mp (free.trans (List.map_id _).symm) designator inside
    have selector : designator.selector.unbound = designator.selector :=
      congrArg Designator.selector each
    rw [field] at selector
    exact (Selector.field.inj selector).2.symm

end Arenas

namespace Program

def unbound (p : Program) : Program := { p with arenas := p.arenas.unbound }

theorem owns_of_unbound {p q : Program} (same : q.unbound = p.unbound) (node : NodeRef) :
    q.owns node = p.owns node := by
  have arenas : q.arenas.unbound = p.arenas.unbound := congrArg Program.arenas same
  change q.arenas.owns node = p.arenas.owns node
  rw [← q.arenas.unbound_owns, arenas, Arenas.unbound_owns]

end Program

end SyntaxGraph
