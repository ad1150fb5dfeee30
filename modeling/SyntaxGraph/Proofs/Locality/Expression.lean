import SyntaxGraph.Grammar.Expression
import SyntaxGraph.Proofs.Locality.Judgement

/-!
# Expressions are read locally

An expression ends where no operator follows.  Whether a type stands in parentheses is the
only question for which more than the current token is looked at.
-/

set_option autoImplicit false

namespace SyntaxGraph.Grammar

open Token (Kind Keyword Punctuator)

variable {cut : Cut} {rules others : Rules}

/-- The recursive rules are local. -/
structure Rules.AllLocal (rules others : Rules) (cut : Cut) : Prop where
  expression : Local cut rules.expression others.expression
  assignment : Local cut rules.assignment others.assignment
  conditional : Local cut rules.conditional others.conditional
  cast : Local cut rules.cast others.cast
  unary : Local cut rules.unary others.unary
  typeName : Local cut rules.typeName others.typeName
  specifiers : Local cut rules.specifiers others.specifiers
  declarator (type : TypeId) (abstractOk : Bool) :
    Local cut (rules.declarator type abstractOk) (others.declarator type abstractOk)
  initializers : Local cut rules.initializers others.initializers
  statement : Local cut rules.statement others.statement

theorem spannedExpr_local {form : Expr.Form} {start : Location} :
    Local cut (do Parse.addExpr form (← Parse.spanFrom start))
      (do Parse.addExpr form (← Parse.spanFrom start)) :=
  .bind .spanFrom fun _ => .add

theorem offeredExpr_local {form : Expr.Form} {start : Location} :
    Local cut (do some <$> Parse.addExpr form (← Parse.spanFrom start))
      (do some <$> Parse.addExpr form (← Parse.spanFrom start)) :=
  .bind .spanFrom fun _ => .map .add

/-- Nothing but a parenthesis opens one. -/
theorem atParenthesizedType_local : Local cut atParenthesizedType atParenthesizedType := by
  refine .at?From fun kind => .look scopes_observes .scopes fun scopes => .peekNext ?_ ?_
  · intro closes one other
    have apart : kind ≠ .punctuator .parenOpen := by
      rintro rfl
      cases closes
    simp [apart]
  · exact fun behind => .of_local .pure

theorem argumentList_local (near : rules.AllLocal others cut) :
    Local cut (argumentList rules) (argumentList others) := by
  refine .bind .at? fun closes => ?_
  split
  · exact .pure
  · exact .separated near.assignment

theorem arguments_local (near : rules.AllLocal others cut) :
    Local cut (arguments rules) (arguments others) :=
  (argumentList_local near).bind fun _ => .bind .expect fun _ => .pure

theorem suffixRound_local (near : rules.AllLocal others cut) {start : Location} {operand : ExprId} :
    Local cut (suffixRound rules start operand) (suffixRound others start operand) := by
  refine .bind .peek fun kind => ?_
  split
  · refine .bind .advance fun _ => near.expression.bind fun index => ?_
    exact .bind .expect fun _ => offeredExpr_local
  · refine .bind .advance fun _ => (arguments_local near).bind fun found => ?_
    exact offeredExpr_local
  · exact .bind .advance fun _ => .bind .identifier fun field => offeredExpr_local
  · exact .bind .advance fun _ => .bind .identifier fun field => offeredExpr_local
  · exact .bind .advance fun _ => offeredExpr_local
  · exact .bind .advance fun _ => offeredExpr_local
  · exact .pure

theorem suffixed_local (near : rules.AllLocal others cut) {operand : ExprId} :
    Local cut (suffixed rules operand) (suffixed others operand) :=
  .bind .exprSpan fun _ => .iterate (fun _ => suffixRound_local near) _

theorem stringPiece?_local : Local cut stringPiece? stringPiece? := by
  refine .bind .peek fun kind => ?_
  split
  · exact .bind .advance fun _ => .pure
  · exact .pure

theorem memberPathRound_local (near : rules.AllLocal others cut) {start : Location}
    {path : ExprId} :
    Local cut (memberPathRound rules start path) (memberPathRound others start path) := by
  refine .bind .peek fun kind => ?_
  split
  · exact .bind .advance fun _ => .bind .identifier fun field => offeredExpr_local
  · refine .bind .advance fun _ => near.expression.bind fun index => ?_
    exact .bind .expect fun _ => offeredExpr_local
  · exact .pure

theorem memberPath_local (near : rules.AllLocal others cut) :
    Local cut (memberPath rules) (memberPath others) := by
  refine .bind .here fun start => .bind .identifier fun name => ?_
  refine .bind .spanFrom fun span => .bind .add fun first => ?_
  exact .iterate (fun _ => memberPathRound_local near) _

theorem primary_local (near : rules.AllLocal others cut) :
    Local cut (primary rules) (primary others) := by
  refine .bind .here fun start => .bind .peek fun kind => ?_
  split
  · exact .bind .advance fun _ => spannedExpr_local
  · exact .bind .advance fun _ => spannedExpr_local
  · exact .bind .advance fun _ => spannedExpr_local
  · exact .bind (.many stringPiece?_local) fun _ => spannedExpr_local
  · refine .bind .advance fun _ => near.expression.bind fun inner => ?_
    exact .bind .expect fun _ => spannedExpr_local
  · refine .bind .advance fun _ => .bind .expect fun _ => near.typeName.bind fun type => ?_
    refine .bind .expect fun _ => (memberPath_local near).bind fun path => ?_
    exact .bind .expect fun _ => spannedExpr_local
  · refine .bind .advance fun _ => .bind .expect fun _ => near.assignment.bind fun list => ?_
    refine .bind .expect fun _ => near.typeName.bind fun type => ?_
    exact .bind .expect fun _ => spannedExpr_local
  · exact .fail

/-! ## Unary expressions and casts -/

theorem sizeofOperand_local (near : rules.AllLocal others cut) {start : Location} :
    Local cut (sizeofOperand rules start) (sizeofOperand others start) := by
  refine .bind atParenthesizedType_local fun typed => ?_
  split
  · refine .bind .advance fun _ => near.typeName.bind fun type => ?_
    exact .bind .expect fun _ => spannedExpr_local
  · exact near.unary.bind fun operand => spannedExpr_local

theorem prefixOperand_local (near : rules.AllLocal others cut) (op : UnaryOp) :
    Local cut (prefixOperand rules op) (prefixOperand others op) := by
  cases op with
  | preInc | preDec => exact near.unary
  | _ => exact near.cast

theorem postfix_local (near : rules.AllLocal others cut) :
    Local cut (primary rules >>= suffixed rules) (primary others >>= suffixed others) :=
  (primary_local near).bind fun _ => suffixed_local near

theorem unary_local (near : rules.AllLocal others cut) :
    Local cut (unary rules) (unary others) := by
  refine .bind .here fun start => .bind .peek fun kind => ?_
  split
  · split
    · next op _ =>
        refine .bind .advance fun _ => (prefixOperand_local near op).bind fun operand => ?_
        exact spannedExpr_local
    · exact postfix_local near
  · exact .bind .advance fun _ => sizeofOperand_local near
  · exact postfix_local near

theorem cast_local (near : rules.AllLocal others cut) : Local cut (cast rules) (cast others) := by
  refine .bind atParenthesizedType_local fun typed => ?_
  split
  · refine .bind .here fun start => .bind .advance fun _ => near.typeName.bind fun type => ?_
    refine .bind .expect fun _ => .bind .here fun initStart => .bind .accept fun braced => ?_
    split
    · refine near.initializers.bind fun items => .bind .spanFrom fun span => ?_
      refine .bind .add fun init => .bind .spanFrom fun span => ?_
      exact .bind .add fun literal => suffixed_local near
    · exact near.cast.bind fun operand => spannedExpr_local
  · exact unary_local near

/-! ## Binary operators, conditional, assignment, comma -/

theorem operatorAt_local {admits : BinaryOp → Bool} :
    Local cut (operatorAt admits) (operatorAt admits) := by
  refine .bind .peek fun kind => ?_
  split <;> exact .pure

theorem joined_local {op : BinaryOp} {left right : ExprId} :
    Local cut (joined op left right) (joined op left right) :=
  .bind .exprSpan fun _ => .bind .exprSpan fun _ => .add

theorem chain_local {admits : BinaryOp → Bool} {operand another : Parse ExprId}
    (near : Local cut operand another) :
    Local cut (chain admits operand) (chain admits another) := by
  refine near.bind fun first => .iterate (fun left => ?_) first
  refine .bind operatorAt_local fun op => ?_
  cases op with
  | none => exact .pure
  | some op => exact .bind .advance fun _ => near.bind fun right => .map joined_local

theorem binary_local (near : rules.AllLocal others cut) (tier : Nat) :
    Local cut (binary rules tier) (binary others tier) := by
  induction tier with
  | zero => exact cast_local near
  | succ tier ih => exact chain_local ih

theorem conditional_local (near : rules.AllLocal others cut) :
    Local cut (conditional rules) (conditional others) := by
  refine .bind .here fun start => (binary_local near 10).bind fun condition => ?_
  refine .bind .accept fun asks => ?_
  split
  · refine near.expression.bind fun first => .bind .expect fun _ => ?_
    exact near.conditional.bind fun second => spannedExpr_local
  · exact .pure

theorem assignment_local (near : rules.AllLocal others cut) :
    Local cut (assignment rules) (assignment others) := by
  refine (conditional_local near).bind fun left => .bind operatorAt_local fun op => ?_
  cases op with
  | none => exact .pure
  | some op => exact .bind .advance fun _ => near.assignment.bind fun right => joined_local

theorem expression_local (near : rules.AllLocal others cut) :
    Local cut (expression rules) (expression others) := by
  refine .bind .here fun start => ?_
  refine .bind (.separated (assignment_local near)) fun items => ?_
  split
  · exact .pure
  · exact spannedExpr_local

end SyntaxGraph.Grammar

