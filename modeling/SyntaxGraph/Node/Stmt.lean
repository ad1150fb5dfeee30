import SyntaxGraph.Source.Location
import SyntaxGraph.Node.Id

/-!
# Statements and labels

A statement holds the labels in front of it.  A declaration of several names in a
block is one statement per name, and a `for` statement either declares or
evaluates in its first clause.  The accessors read the parts of any form by their
role.
-/

set_option autoImplicit false

namespace SyntaxGraph

inductive Stmt.Form
  | empty
  | block (items : List StmtId)
  | expr (value : ExprId)
  | decl (decl : DeclId)
  | ifElse (condition : ExprId) (body : StmtId) (otherwise : Option StmtId)
  | whileLoop (condition : ExprId) (body : StmtId)
  | doWhile (body : StmtId) (condition : ExprId)
  | forLoop (pre condition post : Option ExprId) (decl : Option DeclId) (body : StmtId)
  | switch (condition : ExprId) (body : StmtId)
  | returnValue (value : Option ExprId)
  | breakOut
  | continueOn
  | goto (label : String)
deriving DecidableEq, Inhabited

structure Stmt where
  form : Stmt.Form
  labels : List LabelId := []
  span : Span
deriving DecidableEq, Inhabited

namespace Stmt

/-- The name of the kind of statement. -/
def operator (s : Stmt) : String :=
  match s.form with
  | .empty => "Empty"
  | .block _ => "Block"
  | .expr _ => "StmtExpr"
  | .decl _ => "StmtDecl"
  | .ifElse _ _ _ => "If"
  | .whileLoop _ _ => "While"
  | .doWhile _ _ => "Do"
  | .forLoop _ _ _ _ _ => "For"
  | .switch _ _ => "Switch"
  | .returnValue _ => "Return"
  | .breakOut => "Break"
  | .continueOn => "Continue"
  | .goto _ => "Goto"

/-- The expression that a `for` statement evaluates first. -/
def pre (s : Stmt) : Option ExprId :=
  match s.form with
  | .forLoop pre _ _ _ _ => pre
  | _ => none

/-- The condition, or the value of an expression or return statement. -/
def expr (s : Stmt) : Option ExprId :=
  match s.form with
  | .expr value => some value
  | .ifElse condition _ _ | .whileLoop condition _ | .doWhile _ condition
  | .switch condition _ => some condition
  | .forLoop _ condition _ _ _ => condition
  | .returnValue value => value
  | _ => none

/-- The expression that a `for` statement evaluates after each round. -/
def post (s : Stmt) : Option ExprId :=
  match s.form with
  | .forLoop _ _ post _ _ => post
  | _ => none

def decl (s : Stmt) : Option DeclId :=
  match s.form with
  | .decl decl => some decl
  | .forLoop _ _ _ decl _ => decl
  | _ => none

def body (s : Stmt) : Option StmtId :=
  match s.form with
  | .ifElse _ body _ | .whileLoop _ body | .doWhile body _ | .forLoop _ _ _ _ body
  | .switch _ body => some body
  | _ => none

def otherwise (s : Stmt) : Option StmtId :=
  match s.form with
  | .ifElse _ _ otherwise => otherwise
  | _ => none

def block (s : Stmt) : List StmtId :=
  match s.form with
  | .block items => items
  | _ => []

/-- The label that a `goto` statement names. -/
def target (s : Stmt) : Option String :=
  match s.form with
  | .goto label => some label
  | _ => none

end Stmt

inductive Label.Form
  | named (name : String)
  | case (value : ExprId)
  | default
deriving DecidableEq, Inhabited

structure Label where
  form : Label.Form
  span : Span
deriving DecidableEq, Inhabited

namespace Label

def operator (label : Label) : String :=
  match label.form with
  | .named _ => "LabelName"
  | .case _ => "Case"
  | .default => "Default"

def expr (label : Label) : Option ExprId :=
  match label.form with
  | .case value => some value
  | _ => none

def name (label : Label) : Option String :=
  match label.form with
  | .named name => some name
  | _ => none

end Label

end SyntaxGraph
