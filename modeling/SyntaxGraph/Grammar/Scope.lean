import SyntaxGraph.Node.Id

/-!
# Scopes

A scope binds ordinary names, each as the name of a type or of an object, and
tags, each to its type.  Scopes are stacked with the innermost first; the last one
is the scope of the file.  A binding is made in the innermost scope, where it hides
an earlier binding of the same name, and looked up from the inside out.
-/

set_option autoImplicit false

namespace SyntaxGraph.Grammar

inductive NameKind
  | typedef
  | object
deriving DecidableEq, Inhabited

structure Scope where
  names : List (String × NameKind) := []
  tags : List (String × TypeId) := []
deriving DecidableEq, Inhabited

abbrev Scopes := List Scope

namespace Scopes

/-- The stack with which a file begins. -/
def start : Scopes := [{}]

/-- Change the innermost scope. -/
def modifyInner (scopes : Scopes) (change : Scope → Scope) : Scopes :=
  match scopes with
  | [] => []
  | inner :: outer => change inner :: outer

/-- Bind a name; the empty name is never bound. -/
def bindName (scopes : Scopes) (name : String) (kind : NameKind) : Scopes :=
  if name.isEmpty then scopes
  else scopes.modifyInner fun scope => { scope with names := (name, kind) :: scope.names }

def bindTag (scopes : Scopes) (tag : String) (type : TypeId) : Scopes :=
  scopes.modifyInner fun scope => { scope with tags := (tag, type) :: scope.tags }

def findName? (scopes : Scopes) (name : String) : Option NameKind :=
  scopes.findSome? fun scope => scope.names.lookup name

/-- Whether the innermost binding of `name` makes it the name of a type. -/
def isTypedef (scopes : Scopes) (name : String) : Bool :=
  scopes.findName? name = some .typedef

def findTag? (scopes : Scopes) (tag : String) : Option TypeId :=
  scopes.findSome? fun scope => scope.tags.lookup tag

/-- The type bound to `tag` in the innermost scope itself. -/
def innerTag? (scopes : Scopes) (tag : String) : Option TypeId :=
  scopes.head?.bind fun scope => scope.tags.lookup tag

end Scopes

end SyntaxGraph.Grammar
