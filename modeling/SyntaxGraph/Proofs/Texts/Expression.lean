import SyntaxGraph.Proofs.Texts.Judgement

/-!
# Expressions cite their tokens

A name and the field of a member access are read as identifiers, and a constant is the text
of the token at which it begins; every other expression has no text.
-/

set_option autoImplicit false

namespace SyntaxGraph.Grammar

open Token (Kind Keyword Punctuator)

variable {tokens : Tokens} {rules : Rules}

theorem spannedExpr_cites {form : Expr.Form} {start : Location} (cites : form.Cites tokens) :
    Steady tokens (do Parse.addExpr form (← Parse.spanFrom start)) :=
  .past .spanFrom fun _ => .addExpr cites

theorem offeredExpr_cites {form : Expr.Form} {start : Location} (cites : form.Cites tokens) :
    Steady tokens (do some <$> Parse.addExpr form (← Parse.spanFrom start)) :=
  .past .spanFrom fun _ => .mapAny (.addExpr cites)

theorem atParenthesizedType_cites : Steady tokens atParenthesizedType :=
  .past .at? fun _ => .past (.look scopes_observes) fun _ =>
    .past (.look peekNext_observes) fun _ => .pure trivial

theorem argumentList_cites (cite : rules.Cite tokens) : Steady tokens (argumentList rules) := by
  refine .past .at? fun closes => ?_
  split
  · exact .pure trivial
  · exact .separated cite.assignment

theorem arguments_cites (cite : rules.Cite tokens) : Steady tokens (arguments rules) :=
  (argumentList_cites cite).past fun _ => .past .expect fun _ => .pure trivial

theorem suffixRound_cites (cite : rules.Cite tokens) {start : Location} {operand : ExprId} :
    Steady tokens (suffixRound rules start operand) := by
  refine .past .peek fun kind => ?_
  split
  · refine .past .advance fun _ => cite.expression.past fun index => ?_
    exact .past .expect fun _ => offeredExpr_cites trivial
  · refine .past .advance fun _ => (arguments_cites cite).past fun found => ?_
    exact offeredExpr_cites trivial
  · exact .past .advance fun _ => .bind .identifier fun field named => offeredExpr_cites named
  · exact .past .advance fun _ => .bind .identifier fun field named => offeredExpr_cites named
  · exact .past .advance fun _ => offeredExpr_cites trivial
  · exact .past .advance fun _ => offeredExpr_cites trivial
  · exact .pure trivial

theorem suffixed_cites (cite : rules.Cite tokens) {operand : ExprId} :
    Steady tokens (suffixed rules operand) :=
  .past (.look exprSpan_observes) fun _ => .iterateAny (fun _ => suffixRound_cites cite) _

theorem stringPiece?_cites : Steady tokens stringPiece? := by
  refine .past .peek fun kind => ?_
  split
  · exact .past .advance fun _ => .pure trivial
  · exact .pure trivial

theorem memberPathRound_cites (cite : rules.Cite tokens) {start : Location} {path : ExprId} :
    Steady tokens (memberPathRound rules start path) := by
  refine .past .peek fun kind => ?_
  split
  · exact .past .advance fun _ => .bind .identifier fun field named => offeredExpr_cites named
  · refine .past .advance fun _ => cite.expression.past fun index => ?_
    exact .past .expect fun _ => offeredExpr_cites trivial
  · exact .pure trivial

theorem memberPath_cites (cite : rules.Cite tokens) : Steady tokens (memberPath rules) := by
  refine .past .here fun start => .bind .identifier fun name named => ?_
  refine .past .spanFrom fun span => .past (.addExpr named) fun first => ?_
  exact .iterateAny (fun _ => memberPathRound_cites cite) _

theorem primary_cites (cite : rules.Cite tokens) : Steady tokens (primary rules) := by
  refine .past .here fun start => .bind .peek fun kind there => ?_
  split
  · exact .past .advance fun _ => spannedExpr_cites there
  · exact .past .advance fun _ => spannedExpr_cites (.inl there)
  · exact .past .advance fun _ => spannedExpr_cites (.inr there)
  · exact .past (.many stringPiece?_cites) fun _ => spannedExpr_cites trivial
  · refine .past .advance fun _ => cite.expression.past fun inner => ?_
    exact .past .expect fun _ => spannedExpr_cites trivial
  · refine .past .advance fun _ => .past .expect fun _ => cite.typeName.past fun type => ?_
    refine .past .expect fun _ => (memberPath_cites cite).past fun path => ?_
    exact .past .expect fun _ => spannedExpr_cites trivial
  · refine .past .advance fun _ => .past .expect fun _ => cite.assignment.past fun list => ?_
    refine .past .expect fun _ => cite.typeName.past fun type => ?_
    exact .past .expect fun _ => spannedExpr_cites trivial
  · exact .fail

/-! ## Unary expressions and casts -/

theorem sizeofOperand_cites (cite : rules.Cite tokens) {start : Location} :
    Steady tokens (sizeofOperand rules start) := by
  refine .past atParenthesizedType_cites fun typed => ?_
  split
  · refine .past .advance fun _ => cite.typeName.past fun type => ?_
    exact .past .expect fun _ => spannedExpr_cites trivial
  · exact cite.unary.past fun operand => spannedExpr_cites trivial

theorem prefixOperand_cites (cite : rules.Cite tokens) (op : UnaryOp) :
    Steady tokens (prefixOperand rules op) := by
  cases op with
  | preInc | preDec => exact cite.unary
  | _ => exact cite.cast

theorem postfix_cites (cite : rules.Cite tokens) :
    Steady tokens (primary rules >>= suffixed rules) :=
  (primary_cites cite).past fun _ => suffixed_cites cite

theorem unary_cites (cite : rules.Cite tokens) : Steady tokens (unary rules) := by
  refine .past .here fun start => .past .peek fun kind => ?_
  split
  · split
    · next op _ =>
        refine .past .advance fun _ => (prefixOperand_cites cite op).past fun operand => ?_
        exact spannedExpr_cites trivial
    · exact postfix_cites cite
  · exact .past .advance fun _ => sizeofOperand_cites cite
  · exact postfix_cites cite

theorem cast_cites (cite : rules.Cite tokens) : Steady tokens (cast rules) := by
  refine .past atParenthesizedType_cites fun typed => ?_
  split
  · refine .past .here fun start => .past .advance fun _ => ?_
    refine cite.typeName.past fun type => .past .expect fun _ => ?_
    refine .past .here fun initStart => .past .accept fun braced => ?_
    split
    · refine cite.initializers.past fun items => .past .spanFrom fun span => ?_
      refine .past .addInit fun init => .past .spanFrom fun span => ?_
      exact .past (.addExpr trivial) fun literal => suffixed_cites cite
    · exact cite.cast.past fun operand => spannedExpr_cites trivial
  · exact unary_cites cite

/-! ## Binary operators, conditional, assignment, comma -/

theorem operatorAt_cites {admits : BinaryOp → Bool} : Steady tokens (operatorAt admits) := by
  refine .past .peek fun kind => ?_
  split <;> exact .pure trivial

theorem joined_cites {op : BinaryOp} {left right : ExprId} :
    Steady tokens (joined op left right) :=
  .past (.look exprSpan_observes) fun _ => .past (.look exprSpan_observes) fun _ =>
    .addExpr trivial

theorem chain_cites {admits : BinaryOp → Bool} {operand : Parse ExprId}
    (cites : Steady tokens operand) : Steady tokens (chain admits operand) := by
  refine cites.past fun first => .iterateAny (fun left => ?_) first
  refine .past operatorAt_cites fun op => ?_
  cases op with
  | none => exact .pure trivial
  | some op => exact .past .advance fun _ => cites.past fun right => .mapAny joined_cites

theorem binary_cites (cite : rules.Cite tokens) (tier : Nat) :
    Steady tokens (binary rules tier) := by
  induction tier with
  | zero => exact cast_cites cite
  | succ tier ih => exact chain_cites ih

theorem conditional_cites (cite : rules.Cite tokens) : Steady tokens (conditional rules) := by
  refine .past .here fun start => (binary_cites cite 10).past fun condition => ?_
  refine .past .accept fun asks => ?_
  split
  · refine cite.expression.past fun first => .past .expect fun _ => ?_
    exact cite.conditional.past fun second => spannedExpr_cites trivial
  · exact .pure trivial

theorem assignment_cites (cite : rules.Cite tokens) : Steady tokens (assignment rules) := by
  refine (conditional_cites cite).past fun left => .past operatorAt_cites fun op => ?_
  cases op with
  | none => exact .pure trivial
  | some op => exact .past .advance fun _ => cite.assignment.past fun right => joined_cites

theorem expression_cites (cite : rules.Cite tokens) : Steady tokens (expression rules) := by
  refine .past .here fun start => ?_
  refine .past (.separated (assignment_cites cite)) fun items => ?_
  split
  · exact .pure trivial
  · exact spannedExpr_cites trivial

end SyntaxGraph.Grammar
