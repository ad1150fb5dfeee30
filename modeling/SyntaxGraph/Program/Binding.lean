import SyntaxGraph.Program.Missing
import SyntaxGraph.Program.Basic

/-!
# Bindings

Five fields of a finished program are empty until something is bound to them: the
type and the declaration of an expression, the type of an initializer, the member
that a field designator selects, and the output group of a declaration.  Each is
written once; a second binding is refused and changes nothing.  What is bound is
not checked.
-/

set_option autoImplicit false

namespace SyntaxGraph

inductive Binding
  | exprType (expr : ExprId) (type : TypeId)
  | exprDecl (expr : ExprId) (decl : DeclId)
  | initType (init : InitId) (type : TypeId)
  | designator (init : InitId) (index : Nat) (field : DeclId)
  | group (decl : DeclId) (name : String)
deriving DecidableEq

namespace Binding

/-- The node that holds the field. -/
def node : Binding → NodeRef
  | .exprType expr _ | .exprDecl expr _ => .expr expr
  | .initType init _ | .designator init _ _ => .init init
  | .group decl _ => .decl decl

/-- The name of the field. -/
def what : Binding → String
  | .exprType _ _ | .initType _ _ => "type"
  | .exprDecl _ _ => "declaration"
  | .designator _ _ _ => "designator field"
  | .group _ _ => "output group"

end Binding

inductive BindError
  | missing (node : MissingNode)
  | alreadyBound (binding : Binding)
  | notAFieldDesignator (init : InitId) (index : Nat)
deriving DecidableEq

def BindError.message? : BindError → Option String
  | .missing node => node.message?
  | .alreadyBound binding => some s!"{binding.what} of {binding.node.describe} is already bound"
  | .notAFieldDesignator init index =>
    some s!"prefix {index} of InitId({init.index}) is not a field designator"

namespace Program

def setExpr (p : Program) (id : ExprId) (expr : Expr) : Program :=
  { p with arenas := { p.arenas with exprs := p.arenas.exprs.setIfInBounds id.index expr } }

def setInit (p : Program) (id : InitId) (init : Init) : Program :=
  { p with arenas := { p.arenas with inits := p.arenas.inits.setIfInBounds id.index init } }

def setDecl (p : Program) (id : DeclId) (decl : Decl) : Program :=
  { p with arenas := { p.arenas with decls := p.arenas.decls.setIfInBounds id.index decl } }

/-- The program with one more field bound. -/
def bind (p : Program) (binding : Binding) : Except BindError Program :=
  match binding with
  | .exprType id type =>
    match p.expr? id with
    | none => .error (.missing (.lookedUp (.expr id)))
    | some expr =>
      if expr.resolvedType.isSome then .error (.alreadyBound binding)
      else .ok (p.setExpr id { expr with resolvedType := some type })
  | .exprDecl id decl =>
    match p.expr? id with
    | none => .error (.missing (.lookedUp (.expr id)))
    | some expr =>
      if expr.resolvedDecl.isSome then .error (.alreadyBound binding)
      else .ok (p.setExpr id { expr with resolvedDecl := some decl })
  | .initType id type =>
    match p.init? id with
    | none => .error (.missing (.lookedUp (.init id)))
    | some init =>
      if init.resolvedType.isSome then .error (.alreadyBound binding)
      else .ok (p.setInit id { init with resolvedType := some type })
  | .designator id index field =>
    match p.init? id with
    | none => .error (.missing (.lookedUp (.init id)))
    | some init =>
      match init.designators[index]? with
      | some ⟨.field name resolved, span⟩ =>
        if resolved.isSome then .error (.alreadyBound binding)
        else
          let designators := init.designators.set index ⟨.field name (some field), span⟩
          .ok (p.setInit id { init with designators })
      | _ => .error (.notAFieldDesignator id index)
  | .group id name =>
    match p.decl? id with
    | none => .error (.missing (.lookedUp (.decl id)))
    | some decl =>
      if decl.group.isSome then .error (.alreadyBound binding)
      else .ok (p.setDecl id { decl with group := some name })

/-- The first top-level declaration of a name. -/
def lookup (p : Program) (name : String) : Except MissingNode (Option DeclId) :=
  go p.decls
where
  go : List DeclId → Except MissingNode (Option DeclId)
    | [] => .ok none
    | id :: rest =>
      match p.decl? id with
      | none => .error (.lookedUp (.decl id))
      | some decl => if decl.name = name then .ok (some id) else go rest

end Program

end SyntaxGraph
