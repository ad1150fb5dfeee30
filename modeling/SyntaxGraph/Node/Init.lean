import SyntaxGraph.Source.Location
import SyntaxGraph.Node.Id

/-!
# Initializers

An initializer is one expression or a braced list of initializers, with the
designators in front of it.  A designator selects a member by its name, and then
the declaration of the member may be bound to it, or an element by an index.
-/

set_option autoImplicit false

namespace SyntaxGraph

inductive Selector
  | field (name : String) (resolved : Option DeclId)
  | index (expr : ExprId)
deriving DecidableEq, Inhabited

structure Designator where
  selector : Selector
  span : Span
deriving DecidableEq, Inhabited

namespace Designator

def field (name : String) (span : Span) : Designator := ⟨.field name none, span⟩

def index (expr : ExprId) (span : Span) : Designator := ⟨.index expr, span⟩

end Designator

inductive Init.Form
  | scalar (expr : ExprId)
  | braced (items : List InitId)
deriving DecidableEq, Inhabited

structure Init where
  designators : List Designator := []
  form : Init.Form
  span : Span
  resolvedType : Option TypeId := none
deriving DecidableEq, Inhabited

namespace Init

def scalar (init : Init) : Option ExprId :=
  match init.form with
  | .scalar expr => some expr
  | .braced _ => none

def items (init : Init) : List InitId :=
  match init.form with
  | .scalar _ => []
  | .braced items => items

end Init

end SyntaxGraph
