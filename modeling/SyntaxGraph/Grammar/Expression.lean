import SyntaxGraph.Grammar.Rules

/-!
# Expressions

From the loosest to the tightest: comma, assignment, conditional, ten tiers of
binary operators that associate to the left, cast, unary, suffixes, primary.
Assignment and conditional associate to the right.  Parentheses become nodes of
their own, so the tokens of an expression can be read back from its tree.

A parenthesis opens a cast, or the type of `sizeof`, exactly if the token behind it
can begin the name of a type, which for an identifier depends on the scopes.
-/

set_option autoImplicit false

namespace SyntaxGraph.Grammar

open Token (Kind Keyword Punctuator)
open Parse

/-! ## Operators -/

/-- The operator that a punctuator writes between two operands. -/
def binaryOp? : Punctuator → Option BinaryOp
  | .plus => some .add
  | .minus => some .sub
  | .star => some .mul
  | .slash => some .div
  | .percent => some .mod
  | .eqEq => some .eqEq
  | .notEq => some .notEq
  | .lt => some .lt
  | .le => some .ltEq
  | .gt => some .gt
  | .ge => some .gtEq
  | .ampAmp => some .andAnd
  | .pipePipe => some .orOr
  | .amp => some .and
  | .pipe => some .or
  | .caret => some .xor
  | .shl => some .lsh
  | .shr => some .rsh
  | .eq => some .eq
  | .plusEq => some .addEq
  | .minusEq => some .subEq
  | .starEq => some .mulEq
  | .slashEq => some .divEq
  | .percentEq => some .modEq
  | .ampEq => some .andEq
  | .pipeEq => some .orEq
  | .caretEq => some .xorEq
  | .shlEq => some .lshEq
  | .shrEq => some .rshEq
  | _ => none

/-- The operator that a punctuator writes in front of its operand. -/
def prefixOp? : Punctuator → Option UnaryOp
  | .plusPlus => some .preInc
  | .minusMinus => some .preDec
  | .amp => some .addr
  | .star => some .indir
  | .plus => some .plus
  | .minus => some .minus
  | .bang => some .not
  | .tilde => some .twid
  | _ => none

/-- The binary operator at the current token, if `admits` allows it. -/
def operatorAt (admits : BinaryOp → Bool) : Parse (Option BinaryOp) := do
  match ← peek with
  | .punctuator mark => return (binaryOp? mark).filter admits
  | _ => return none

/-- A binary node, which covers what its operands cover. -/
def joined (op : BinaryOp) (left right : ExprId) : Parse ExprId := do
  addExpr (.binary op left right) ((← exprSpan left).join (← exprSpan right))

/-! ## Where a type begins -/

/-- Whether a token can begin the name of a type. -/
def startsTypeName (scopes : Scopes) : Kind → Bool
  | .keyword word =>
    match word with
    | .voidKw | .boolKw | .charKw | .shortKw | .intKw | .longKw | .floatKw | .doubleKw
    | .signedKw | .unsignedKw | .structKw | .unionKw | .enumKw
    | .constKw | .volatileKw | .restrictKw => true
    | _ => false
  | .identifier name => scopes.isTypedef name
  | _ => false

/-- Whether a token can begin a declaration. -/
def startsDeclaration (scopes : Scopes) (kind : Kind) : Bool :=
  match kind with
  | .keyword .autoKw | .keyword .registerKw | .keyword .staticKw | .keyword .externKw
  | .keyword .typedefKw | .keyword .inlineKw => true
  | _ => startsTypeName scopes kind

/-- Whether a type in parentheses begins at the current token. -/
def atParenthesizedType : Parse Bool := do
  let opens ← at? (.punctuator .parenOpen)
  return opens && startsTypeName (← scopes) (← peekNext)

/-! ## Primary expressions and suffixes -/

/-- Arguments with commas between them, unless the parenthesis closes at once. -/
def argumentList (rules : Rules) : Parse (List ExprId) := do
  if ← at? (.punctuator .parenClose) then return [] else separated rules.assignment

/-- The arguments of a call behind its opening parenthesis, with the closing one. -/
def arguments (rules : Rules) : Parse (List ExprId) := do
  let found ← argumentList rules
  expectMark .parenClose "after function arguments"
  return found

/-- One more suffix of the expression `operand`, which starts at `start`. -/
def suffixRound (rules : Rules) (start : Location) (operand : ExprId) :
    Parse (Option ExprId) := do
  match ← peek with
  | .punctuator .bracketOpen =>
    advance
    let index ← rules.expression
    expectMark .bracketClose "after array index"
    some <$> addExpr (.binary .index operand index) (← spanFrom start)
  | .punctuator .parenOpen =>
    advance
    let found ← arguments rules
    some <$> addExpr (.call operand found) (← spanFrom start)
  | .punctuator .dot =>
    advance
    let field ← identifier
    some <$> addExpr (.member .dot operand field) (← spanFrom start)
  | .punctuator .arrow =>
    advance
    let field ← identifier
    some <$> addExpr (.member .arrow operand field) (← spanFrom start)
  | .punctuator .plusPlus =>
    advance
    some <$> addExpr (.unary .postInc operand) (← spanFrom start)
  | .punctuator .minusMinus =>
    advance
    some <$> addExpr (.unary .postDec operand) (← spanFrom start)
  | _ => return none

def suffixed (rules : Rules) (operand : ExprId) : Parse ExprId := do
  let start := (← exprSpan operand).start
  iterate (suffixRound rules start) operand

def stringPiece? : Parse (Option String) := do
  match ← peek with
  | .string text =>
    advance
    return some text
  | _ => return none

def memberPathRound (rules : Rules) (start : Location) (path : ExprId) :
    Parse (Option ExprId) := do
  match ← peek with
  | .punctuator .dot =>
    advance
    let field ← identifier
    some <$> addExpr (.member .dot path field) (← spanFrom start)
  | .punctuator .bracketOpen =>
    advance
    let index ← rules.expression
    expectMark .bracketClose "after offsetof index"
    some <$> addExpr (.binary .index path index) (← spanFrom start)
  | _ => return none

/-- The member that `offsetof` measures: a name with `.name` and `[index]` behind it. -/
def memberPath (rules : Rules) : Parse ExprId := do
  let start ← here
  let name ← identifier
  let first ← addExpr (.name name) (← spanFrom start)
  iterate (memberPathRound rules start) first

def primary (rules : Rules) : Parse ExprId := do
  let start ← here
  match ← peek with
  | .identifier name =>
    advance
    addExpr (.name name) (← spanFrom start)
  | .number text =>
    advance
    addExpr (.number text) (← spanFrom start)
  | .character text =>
    advance
    addExpr (.number text) (← spanFrom start)
  | .string _ =>
    let pieces ← many stringPiece?
    addExpr (.string pieces) (← spanFrom start)
  | .punctuator .parenOpen =>
    advance
    let inner ← rules.expression
    expectMark .parenClose "after expression"
    addExpr (.unary .paren inner) (← spanFrom start)
  | .keyword .offsetofKw =>
    advance
    expectMark .parenOpen "after offsetof"
    let type ← rules.typeName
    expectMark .comma "in offsetof"
    let path ← memberPath rules
    expectMark .parenClose "after offsetof member"
    addExpr (.offsetof type path) (← spanFrom start)
  | .keyword .vaArgKw =>
    advance
    expectMark .parenOpen "after va_arg"
    let list ← rules.assignment
    expectMark .comma "in va_arg"
    let type ← rules.typeName
    expectMark .parenClose "after va_arg type"
    addExpr (.vaArg list type) (← spanFrom start)
  | found => fail (.expectedExpression found)

/-! ## Unary expressions and casts -/

/-- The operand of `sizeof`, which has been consumed. -/
def sizeofOperand (rules : Rules) (start : Location) : Parse ExprId := do
  if ← atParenthesizedType then
    advance
    let type ← rules.typeName
    expectMark .parenClose "after sizeof type"
    addExpr (.sizeofType type) (← spanFrom start)
  else
    let operand ← rules.unary
    addExpr (.unary .sizeofExpr operand) (← spanFrom start)

/-- The operand of an operator in front of it: increment and decrement apply to a
unary expression, the others to a cast. -/
def prefixOperand (rules : Rules) : UnaryOp → Parse ExprId
  | .preInc | .preDec => rules.unary
  | _ => rules.cast

def unary (rules : Rules) : Parse ExprId := do
  let start ← here
  match ← peek with
  | .punctuator mark =>
    match prefixOp? mark with
    | some op =>
      advance
      let operand ← prefixOperand rules op
      addExpr (.unary op operand) (← spanFrom start)
    | none => primary rules >>= suffixed rules
  | .keyword .sizeofKw =>
    advance
    sizeofOperand rules start
  | _ => primary rules >>= suffixed rules

/-- A type in parentheses makes a cast, or with a brace behind it a compound literal,
which may have suffixes. -/
def cast (rules : Rules) : Parse ExprId := do
  if ← atParenthesizedType then
    let start ← here
    advance
    let type ← rules.typeName
    expectMark .parenClose "after cast type"
    let initStart ← here
    if ← acceptMark .braceOpen then
      let items ← rules.initializers
      let init ← addInit { form := .braced items, span := ← spanFrom initStart }
      let literal ← addExpr (.castInit type init) (← spanFrom start)
      suffixed rules literal
    else
      let operand ← rules.cast
      addExpr (.cast type operand) (← spanFrom start)
  else unary rules

/-! ## Binary operators, conditional, assignment, comma -/

/-- Operands with operators between them, joined from the left. -/
def chain (admits : BinaryOp → Bool) (operand : Parse ExprId) : Parse ExprId := do
  let first ← operand
  iterate (fun left => do
    match ← operatorAt admits with
    | none => return none
    | some op =>
      advance
      let right ← operand
      some <$> joined op left right) first

/-- The binary operators of the first `tier` tiers, over casts. -/
def binary (rules : Rules) : (tier : Nat) → Parse ExprId
  | 0 => cast rules
  | tier + 1 => chain (fun op => op.tier = tier + 1) (binary rules tier)

def conditional (rules : Rules) : Parse ExprId := do
  let start ← here
  let condition ← binary rules 10
  if ← acceptMark .question then
    let first ← rules.expression
    expectMark .colon "in ternary expression"
    let second ← rules.conditional
    addExpr (.cond condition first second) (← spanFrom start)
  else return condition

def assignment (rules : Rules) : Parse ExprId := do
  let left ← conditional rules
  match ← operatorAt BinaryOp.isAssignment with
  | none => return left
  | some op =>
    advance
    let right ← rules.assignment
    joined op left right

def expression (rules : Rules) : Parse ExprId := do
  let start ← here
  match ← separated (assignment rules) with
  | [only] => return only
  | items => addExpr (.comma items) (← spanFrom start)

end SyntaxGraph.Grammar
