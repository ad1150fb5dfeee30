import Mathlib.Data.List.Forall2
import Mathlib.Logic.Relation
import SyntaxGraph.Program.Arenas
import SyntaxGraph.Token.Kind

/-!
# Expressions as trees

An expression without types is a tree, and a tree is written as a list of tokens from
left to right.  The levels of precedence are numbered from the loosest to the tightest:
0 comma, 1 assignment, 2 conditional, 3 logical or, 4 logical and, 5 to 7 the bitwise
operators, 8 equality, 9 relation, 10 shift, 11 sum, 12 product, 13 cast, 14 prefix,
15 postfix, 16 primary.  A tree is canonical if every operand has at least the level that
its operator asks for, so that it can be written without further parentheses.
-/

set_option autoImplicit false

namespace SyntaxGraph

open Token (Kind Keyword Punctuator)

/-! ## Operators -/

/-- How a binary operator is written; a subscript is closed by another mark behind it. -/
def BinaryOp.mark : BinaryOp → Punctuator
  | .add => .plus
  | .sub => .minus
  | .mul => .star
  | .div => .slash
  | .mod => .percent
  | .eqEq => .eqEq
  | .notEq => .notEq
  | .lt => .lt
  | .ltEq => .le
  | .gt => .gt
  | .gtEq => .ge
  | .andAnd => .ampAmp
  | .orOr => .pipePipe
  | .and => .amp
  | .or => .pipe
  | .xor => .caret
  | .lsh => .shl
  | .rsh => .shr
  | .eq => .eq
  | .addEq => .plusEq
  | .subEq => .minusEq
  | .mulEq => .starEq
  | .divEq => .slashEq
  | .modEq => .percentEq
  | .andEq => .ampEq
  | .orEq => .pipeEq
  | .xorEq => .caretEq
  | .lshEq => .shlEq
  | .rshEq => .shrEq
  | .index => .bracketOpen

def BinaryOp.level : BinaryOp → Nat
  | .eq | .addEq | .subEq | .mulEq | .divEq | .modEq | .andEq | .orEq | .xorEq | .lshEq
  | .rshEq => 1
  | .orOr => 3
  | .andAnd => 4
  | .or => 5
  | .xor => 6
  | .and => 7
  | .eqEq | .notEq => 8
  | .lt | .ltEq | .gt | .gtEq => 9
  | .lsh | .rsh => 10
  | .add | .sub => 11
  | .mul | .div | .mod => 12
  | .index => 15

/-- An assignment stores into a conditional expression; every other operator takes one of
its own level on the left. -/
def BinaryOp.leftLevel (op : BinaryOp) : Nat := if op.level = 1 then 2 else op.level

/-- An assignment associates to the right, and anything can be a subscript. -/
def BinaryOp.rightLevel (op : BinaryOp) : Nat :=
  if op.level = 1 then 1 else if op = .index then 0 else op.level + 1

namespace UnaryOp

/-- The token of an operator that stands in front of its operand, or behind it. -/
def token : UnaryOp → Kind
  | .addr => .punctuator .amp
  | .indir => .punctuator .star
  | .minus => .punctuator .minus
  | .plus => .punctuator .plus
  | .not => .punctuator .bang
  | .twid => .punctuator .tilde
  | .preInc | .postInc => .punctuator .plusPlus
  | .preDec | .postDec => .punctuator .minusMinus
  | .paren => .punctuator .parenOpen
  | .sizeofExpr => .keyword .sizeofKw

def level : UnaryOp → Nat
  | .paren => 16
  | .postInc | .postDec => 15
  | _ => 14

def operandLevel : UnaryOp → Nat
  | .paren => 0
  | .postInc | .postDec => 15
  | .preInc | .preDec | .sizeofExpr => 14
  | _ => 13

end UnaryOp

def MemberOp.mark : MemberOp → Punctuator
  | .dot => .dot
  | .arrow => .arrow

/-! ## Trees -/

inductive Expr.Tree
  | name (text : String)
  | number (text : String)
  | character (text : String)
  | string (pieces : List String)
  | unary (op : UnaryOp) (operand : Expr.Tree)
  | binary (op : BinaryOp) (left right : Expr.Tree)
  | member (op : MemberOp) (object : Expr.Tree) (field : String)
  | call (callee : Expr.Tree) (arguments : List Expr.Tree)
  | comma (items : List Expr.Tree)
  | cond (condition first second : Expr.Tree)

namespace Expr.Tree

mutual

/-- The tokens that write a tree. -/
def kinds : Expr.Tree → List Kind
  | .name text => [.identifier text]
  | .number text => [.number text]
  | .character text => [.character text]
  | .string pieces => pieces.map Kind.string
  | .unary .paren inner =>
    .punctuator .parenOpen :: (inner.kinds ++ [.punctuator .parenClose])
  | .unary .postInc operand => operand.kinds ++ [.punctuator .plusPlus]
  | .unary .postDec operand => operand.kinds ++ [.punctuator .minusMinus]
  | .unary op operand => op.token :: operand.kinds
  | .binary .index array index =>
    array.kinds ++ .punctuator .bracketOpen :: (index.kinds ++ [.punctuator .bracketClose])
  | .binary op left right => left.kinds ++ .punctuator op.mark :: right.kinds
  | .member op object field => object.kinds ++ [.punctuator op.mark, .identifier field]
  | .call callee arguments =>
    callee.kinds ++ .punctuator .parenOpen ::
      (separated arguments ++ [.punctuator .parenClose])
  | .comma items => separated items
  | .cond condition first second =>
    condition.kinds ++ .punctuator .question :: (first.kinds ++ .punctuator .colon ::
      second.kinds)

/-- Trees with commas between them. -/
def separated : List Expr.Tree → List Kind
  | [] => []
  | first :: others => first.kinds ++ behindCommas others

/-- Trees with a comma in front of each. -/
def behindCommas : List Expr.Tree → List Kind
  | [] => []
  | first :: others => .punctuator .comma :: (first.kinds ++ behindCommas others)

end

mutual

/-- The names that a tree mentions; the members it accesses are none of them. -/
def names : Expr.Tree → List String
  | .name text => [text]
  | .number _ | .character _ | .string _ => []
  | .unary _ operand => operand.names
  | .binary _ left right => left.names ++ right.names
  | .member _ object _ => object.names
  | .call callee arguments => callee.names ++ namesOf arguments
  | .comma items => namesOf items
  | .cond condition first second => condition.names ++ first.names ++ second.names

def namesOf : List Expr.Tree → List String
  | [] => []
  | first :: others => first.names ++ namesOf others

end

/-- The level of the operator at the root. -/
def level : Expr.Tree → Nat
  | .name _ | .number _ | .character _ | .string _ => 16
  | .unary op _ => op.level
  | .binary op _ _ => op.level
  | .member _ _ _ | .call _ _ => 15
  | .comma _ => 0
  | .cond _ _ _ => 2

/-- Every operand has at least the level that its operator asks for. -/
inductive Canonical : Expr.Tree → Prop
  | name {text : String} : Canonical (.name text)
  | number {text : String} : Canonical (.number text)
  | character {text : String} : Canonical (.character text)
  | string {pieces : List String} (some : pieces ≠ []) : Canonical (.string pieces)
  | unary {op : UnaryOp} {operand : Expr.Tree} (inner : Canonical operand)
      (level : op.operandLevel ≤ operand.level) : Canonical (.unary op operand)
  | binary {op : BinaryOp} {left right : Expr.Tree} (first : Canonical left)
      (second : Canonical right) (leftLevel : op.leftLevel ≤ left.level)
      (rightLevel : op.rightLevel ≤ right.level) : Canonical (.binary op left right)
  | member {op : MemberOp} {object : Expr.Tree} {field : String} (inner : Canonical object)
      (level : 15 ≤ object.level) : Canonical (.member op object field)
  | call {callee : Expr.Tree} {arguments : List Expr.Tree} (inner : Canonical callee)
      (level : 15 ≤ callee.level) (each : ∀ argument ∈ arguments, Canonical argument)
      (levels : ∀ argument ∈ arguments, 1 ≤ argument.level) : Canonical (.call callee arguments)
  | comma {items : List Expr.Tree} (several : 2 ≤ items.length)
      (each : ∀ item ∈ items, Canonical item) (levels : ∀ item ∈ items, 1 ≤ item.level) :
      Canonical (.comma items)
  | cond {condition first second : Expr.Tree} (test : Canonical condition)
      (whenTrue : Canonical first) (whenFalse : Canonical second)
      (testLevel : 3 ≤ condition.level) (falseLevel : 2 ≤ second.level) :
      Canonical (.cond condition first second)

theorem separated_cons (first : Expr.Tree) (others : List Expr.Tree) :
    separated (first :: others) = first.kinds ++ behindCommas others := by
  rw [separated]

theorem kinds_prefix {op : UnaryOp} (level : op.level = 14) (operand : Expr.Tree) :
    (Expr.Tree.unary op operand).kinds = op.token :: operand.kinds := by
  cases op
  case paren | postInc | postDec => cases level
  all_goals rfl

theorem kinds_infix {op : BinaryOp} (other : op ≠ .index) (left right : Expr.Tree) :
    (Expr.Tree.binary op left right).kinds =
      left.kinds ++ .punctuator op.mark :: right.kinds := by
  cases op
  case index => exact absurd rfl other
  all_goals rfl

example : kinds (.unary .indir (.unary .postInc (.name "p"))) =
    [.punctuator .star, .identifier "p", .punctuator .plusPlus] := by
  rfl

end Expr.Tree

/-! ## Trees in arenas -/

namespace Arenas

variable {a b : Arenas} {id : ExprId}

def form? (a : Arenas) (id : ExprId) : Option Expr.Form := (a.expr? id).map Expr.form

/-- The tree stands in the arenas at an expression.  Characters are kept as numbers. -/
inductive Stands (a : Arenas) : ExprId → Expr.Tree → Prop
  | name {id : ExprId} {text : String} (node : a.form? id = some (.name text)) :
      Stands a id (.name text)
  | number {id : ExprId} {text : String} (node : a.form? id = some (.number text)) :
      Stands a id (.number text)
  | character {id : ExprId} {text : String} (node : a.form? id = some (.number text)) :
      Stands a id (.character text)
  | string {id : ExprId} {pieces : List String} (node : a.form? id = some (.string pieces)) :
      Stands a id (.string pieces)
  | unary {id inner : ExprId} {op : UnaryOp} {operand : Expr.Tree}
      (node : a.form? id = some (.unary op inner)) (stands : Stands a inner operand) :
      Stands a id (.unary op operand)
  | binary {id first second : ExprId} {op : BinaryOp} {left right : Expr.Tree}
      (node : a.form? id = some (.binary op first second)) (stands : Stands a first left)
      (besides : Stands a second right) : Stands a id (.binary op left right)
  | member {id inner : ExprId} {op : MemberOp} {object : Expr.Tree} {field : String}
      (node : a.form? id = some (.member op inner field)) (stands : Stands a inner object) :
      Stands a id (.member op object field)
  | call {id inner : ExprId} {ids : List ExprId} {callee : Expr.Tree}
      {arguments : List Expr.Tree} (node : a.form? id = some (.call inner ids))
      (stands : Stands a inner callee) (length : ids.length = arguments.length)
      (each : ∀ pair ∈ ids.zip arguments, Stands a pair.1 pair.2) :
      Stands a id (.call callee arguments)
  | comma {id : ExprId} {ids : List ExprId} {items : List Expr.Tree}
      (node : a.form? id = some (.comma ids)) (length : ids.length = items.length)
      (each : ∀ pair ∈ ids.zip items, Stands a pair.1 pair.2) : Stands a id (.comma items)
  | cond {id test first second : ExprId} {condition whenTrue whenFalse : Expr.Tree}
      (node : a.form? id = some (.cond test first second)) (tested : Stands a test condition)
      (stands : Stands a first whenTrue) (besides : Stands a second whenFalse) :
      Stands a id (.cond condition whenTrue whenFalse)

/-- One arena of expressions begins with another. -/
def KeepsExprs (a b : Arenas) : Prop := a.exprs.toList <+: b.exprs.toList

theorem KeepsExprs.refl (a : Arenas) : KeepsExprs a a := List.prefix_rfl

/-- What stands in an arena stands at its place in every arena that begins with it. -/
theorem getElem?_of_prefix {Node : Type} {before after : Array Node} {place : Nat} {node : Node}
    (keeps : before.toList <+: after.toList) (found : before[place]? = some node) :
    after[place]? = some node := by
  rw [← Array.getElem?_toList] at found ⊢
  obtain ⟨added, equal⟩ := keeps
  obtain ⟨inside, -⟩ := List.getElem?_eq_some_iff.mp found
  rw [← equal, List.getElem?_append_left inside]
  exact found

theorem KeepsExprs.expr? (keeps : KeepsExprs a b) {expr : Expr}
    (found : a.expr? id = some expr) : b.expr? id = some expr :=
  getElem?_of_prefix keeps found

theorem KeepsExprs.form? (keeps : KeepsExprs a b) {form : Expr.Form}
    (found : a.form? id = some form) : b.form? id = some form := by
  obtain ⟨expr, node, same⟩ := Option.map_eq_some_iff.mp found
  exact Option.map_eq_some_iff.mpr ⟨expr, keeps.expr? node, same⟩

theorem Stands.mono {tree : Expr.Tree} (stands : Stands a id tree) (keeps : KeepsExprs a b) :
    Stands b id tree := by
  induction stands with
  | name node => exact .name (keeps.form? node)
  | number node => exact .number (keeps.form? node)
  | character node => exact .character (keeps.form? node)
  | string node => exact .string (keeps.form? node)
  | unary node _ inner => exact .unary (keeps.form? node) inner
  | binary node _ _ left right => exact .binary (keeps.form? node) left right
  | member node _ object => exact .member (keeps.form? node) object
  | call node _ length _ callee each => exact .call (keeps.form? node) callee length each
  | comma node length _ each => exact .comma (keeps.form? node) length each
  | cond node _ _ _ test first second => exact .cond (keeps.form? node) test first second

theorem Stands.expr? {tree : Expr.Tree} (stands : Stands a id tree) :
    ∃ expr, a.expr? id = some expr := by
  have found {form : Expr.Form} (node : a.form? id = some form) :
      ∃ expr, a.expr? id = some expr := by
    obtain ⟨expr, there, -⟩ := Option.map_eq_some_iff.mp node
    exact ⟨expr, there⟩
  cases stands <;> exact found ‹_›

/-! ## Expressions without types -/

/-- The expression `inner` is an operand of `outer`. -/
def Operand (a : Arenas) (outer inner : ExprId) : Prop :=
  ∃ expr, a.expr? outer = some expr ∧ inner ∈ expr.left.toList ++ expr.right.toList ++ expr.list

/-- No expression of the tree below `id` has a type operand or an initializer. -/
def Typeless (a : Arenas) (id : ExprId) : Prop :=
  ∀ inner expr, Relation.ReflTransGen a.Operand id inner → a.expr? inner = some expr →
    expr.typeOperand = none ∧ expr.init = none

theorem Typeless.of_all (typeless : ∀ expr ∈ a.exprs, expr.typeOperand = none ∧ expr.init = none)
    (id : ExprId) : a.Typeless id :=
  fun _ expr _ found => typeless expr (Array.mem_of_getElem? found)

theorem Typeless.operand {inner : ExprId} (typeless : a.Typeless id)
    (operand : a.Operand id inner) : a.Typeless inner :=
  fun other expr reached => typeless other expr (.head operand reached)

theorem Typeless.mono (typeless : b.Typeless id) (keeps : KeepsExprs a b) : a.Typeless id := by
  intro inner expr reached found
  have step (outer other : ExprId) : a.Operand outer other → b.Operand outer other := by
    rintro ⟨node, there, member⟩
    exact ⟨node, keeps.expr? there, member⟩
  exact typeless inner expr (Relation.ReflTransGen.mono step _ _ reached) (keeps.expr? found)

end Arenas

end SyntaxGraph
