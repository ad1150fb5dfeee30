import SyntaxGraph.Source.Location
import SyntaxGraph.Node.Id

/-!
# Expressions

Operators that take operands in the same way share a constructor of `Expr.Form`,
so an expression holds the operands of its operator; a comma and a conditional
expression hold theirs in a list.  Parentheses and `sizeof` applied to an expression
are unary operators.  The accessors read the operands of any form by their role: left,
right, list, type and initializer.

The block of an expression holds statements that a later pass splices in; reading
a source leaves it empty.  The resolved type and declaration are empty until they
are bound.
-/

set_option autoImplicit false

namespace SyntaxGraph

inductive BinaryOp
  | add | sub | mul | div | mod
  | eqEq | notEq | lt | ltEq | gt | gtEq
  | andAnd | orOr
  | and | or | xor | lsh | rsh
  | eq | addEq | subEq | mulEq | divEq | modEq | andEq | orEq | xorEq | lshEq | rshEq
  | index
deriving DecidableEq, Inhabited

namespace BinaryOp

def all : List BinaryOp :=
  [.add, .sub, .mul, .div, .mod, .eqEq, .notEq, .lt, .ltEq, .gt, .gtEq, .andAnd, .orOr,
   .and, .or, .xor, .lsh, .rsh, .eq, .addEq, .subEq, .mulEq, .divEq, .modEq, .andEq, .orEq,
   .xorEq, .lshEq, .rshEq, .index]

def name : BinaryOp → String
  | .add => "Add"
  | .sub => "Sub"
  | .mul => "Mul"
  | .div => "Div"
  | .mod => "Mod"
  | .eqEq => "EqEq"
  | .notEq => "NotEq"
  | .lt => "Lt"
  | .ltEq => "LtEq"
  | .gt => "Gt"
  | .gtEq => "GtEq"
  | .andAnd => "AndAnd"
  | .orOr => "OrOr"
  | .and => "And"
  | .or => "Or"
  | .xor => "Xor"
  | .lsh => "Lsh"
  | .rsh => "Rsh"
  | .eq => "Eq"
  | .addEq => "AddEq"
  | .subEq => "SubEq"
  | .mulEq => "MulEq"
  | .divEq => "DivEq"
  | .modEq => "ModEq"
  | .andEq => "AndEq"
  | .orEq => "OrEq"
  | .xorEq => "XorEq"
  | .lshEq => "LshEq"
  | .rshEq => "RshEq"
  | .index => "Index"

def ofName? (text : String) : Option BinaryOp := all.find? fun op => op.name = text

/-- `=` and every compound assignment. -/
def isAssignment : BinaryOp → Bool
  | .eq | .addEq | .subEq | .mulEq | .divEq | .modEq | .andEq | .orEq | .xorEq | .lshEq
  | .rshEq => true
  | _ => false

/-- How many kinds of operators that associate to the left bind at least as tightly.
Subscripts and assignments are read by rules of their own and are in no tier. -/
def tier : BinaryOp → Nat
  | .mul | .div | .mod => 1
  | .add | .sub => 2
  | .lsh | .rsh => 3
  | .lt | .ltEq | .gt | .gtEq => 4
  | .eqEq | .notEq => 5
  | .and => 6
  | .xor => 7
  | .or => 8
  | .andAnd => 9
  | .orOr => 10
  | _ => 0

end BinaryOp

inductive UnaryOp
  | addr | indir | minus | plus | not | twid
  | preInc | preDec | postInc | postDec
  | paren | sizeofExpr
deriving DecidableEq, Inhabited

namespace UnaryOp

def all : List UnaryOp :=
  [.addr, .indir, .minus, .plus, .not, .twid, .preInc, .preDec, .postInc, .postDec, .paren,
   .sizeofExpr]

def name : UnaryOp → String
  | .addr => "Addr"
  | .indir => "Indir"
  | .minus => "Minus"
  | .plus => "Plus"
  | .not => "Not"
  | .twid => "Twid"
  | .preInc => "PreInc"
  | .preDec => "PreDec"
  | .postInc => "PostInc"
  | .postDec => "PostDec"
  | .paren => "Paren"
  | .sizeofExpr => "SizeofExpr"

def ofName? (text : String) : Option UnaryOp := all.find? fun op => op.name = text

end UnaryOp

inductive MemberOp
  | dot | arrow
deriving DecidableEq, Inhabited

namespace MemberOp

def name : MemberOp → String
  | .dot => "Dot"
  | .arrow => "Arrow"

def ofName? (text : String) : Option MemberOp := [dot, arrow].find? fun op => op.name = text

end MemberOp

/-- An operator with its operands. -/
inductive Expr.Form
  | binary (op : BinaryOp) (left right : ExprId)
  | unary (op : UnaryOp) (operand : ExprId)
  | member (op : MemberOp) (object : ExprId) (field : String)
  | name (text : String)
  | number (text : String)
  | string (pieces : List String)
  | call (callee : ExprId) (arguments : List ExprId)
  | cast (type : TypeId) (operand : ExprId)
  | castInit (type : TypeId) (init : InitId)
  | sizeofType (type : TypeId)
  | offsetof (type : TypeId) (path : ExprId)
  | vaArg (list : ExprId) (type : TypeId)
  | comma (items : List ExprId)
  | conditional (operands : List ExprId)
deriving DecidableEq

/-- `condition ? first : second`. -/
@[match_pattern] abbrev Expr.Form.cond (condition first second : ExprId) : Expr.Form :=
  .conditional [condition, first, second]

structure Expr where
  form : Expr.Form
  span : Span
  block : List StmtId := []
  resolvedType : Option TypeId := none
  resolvedDecl : Option DeclId := none
deriving DecidableEq

namespace Expr

/-- The name of the operator. -/
def operator (e : Expr) : String :=
  match e.form with
  | .binary op _ _ => op.name
  | .unary op _ => op.name
  | .member op _ _ => op.name
  | .name _ => "Name"
  | .number _ => "Number"
  | .string _ => "String"
  | .call _ _ => "Call"
  | .cast _ _ => "Cast"
  | .castInit _ _ => "CastInit"
  | .sizeofType _ => "SizeofType"
  | .offsetof _ _ => "Offsetof"
  | .vaArg _ _ => "VaArg"
  | .comma _ => "Comma"
  | .conditional _ => "Cond"

/-- The text of a name or a constant, or the field of a member access. -/
def text (e : Expr) : Option String :=
  match e.form with
  | .name text | .number text => some text
  | .member _ _ field => some field
  | _ => none

/-- The literals of a string. -/
def pieces (e : Expr) : List String :=
  match e.form with
  | .string pieces => pieces
  | _ => []

/-- The left or only operand. -/
def left (e : Expr) : Option ExprId :=
  match e.form with
  | .binary _ left _ => some left
  | .unary _ operand | .cast _ operand => some operand
  | .member _ object _ => some object
  | .call callee _ => some callee
  | .offsetof _ path => some path
  | .vaArg list _ => some list
  | _ => none

def right (e : Expr) : Option ExprId :=
  match e.form with
  | .binary _ _ right => some right
  | _ => none

/-- The arguments of a call, or the operands of a comma or conditional expression. -/
def list (e : Expr) : List ExprId :=
  match e.form with
  | .call _ arguments => arguments
  | .comma items | .conditional items => items
  | _ => []

def typeOperand (e : Expr) : Option TypeId :=
  match e.form with
  | .cast type _ | .castInit type _ | .sizeofType type | .offsetof type _ | .vaArg _ type =>
    some type
  | _ => none

def init (e : Expr) : Option InitId :=
  match e.form with
  | .castInit _ init => some init
  | _ => none

end Expr

end SyntaxGraph
