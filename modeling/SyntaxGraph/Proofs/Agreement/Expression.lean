import SyntaxGraph.Grammar.Expression
import SyntaxGraph.Proofs.Agreement.Judgement

/-!
# Expressions are read by the kinds of their tokens

Every rule for expressions is blind, provided that the rules one level of nesting further
in are.  The place where an expression starts goes into the spans of its nodes only.
-/

set_option autoImplicit false

namespace SyntaxGraph.Grammar

open Token (Kind Keyword Punctuator)

variable {rules : Rules} {start other : Location}

structure Rules.AllBlind (rules : Rules) : Prop where
  expression : Blind rules.expression
  assignment : Blind rules.assignment
  conditional : Blind rules.conditional
  cast : Blind rules.cast
  unary : Blind rules.unary
  typeName : Blind rules.typeName
  specifiers : Blind rules.specifiers
  declarator (type : TypeId) (abstractOk : Bool) : Blind (rules.declarator type abstractOk)
  initializers : Blind rules.initializers
  statement : Blind rules.statement

theorem spannedExpr_agree {form : Expr.Form} :
    Agree Eq (do Parse.addExpr form (← Parse.spanFrom start))
      (do Parse.addExpr form (← Parse.spanFrom other)) :=
  .anyhow .spanFrom fun _ _ => .addExpr

theorem offeredExpr_agree {form : Expr.Form} :
    Agree Eq (do some <$> Parse.addExpr form (← Parse.spanFrom start))
      (do some <$> Parse.addExpr form (← Parse.spanFrom other)) :=
  .anyhow .spanFrom fun _ _ => .mapSame .addExpr

theorem operatorAt_blind {admits : BinaryOp → Bool} : Blind (operatorAt admits) := by
  refine .same .peek fun kind => ?_
  split
  · exact .pure rfl
  · exact .pure rfl

theorem joined_blind {op : BinaryOp} {left right : ExprId} : Blind (joined op left right) :=
  .anyhow .exprSpan fun _ _ => .anyhow .exprSpan fun _ _ => .addExpr

theorem atParenthesizedType_blind : Blind atParenthesizedType :=
  .same .at? fun _ => .same .scopes fun _ => .same .peekNext fun _ => .pure rfl

/-! ## Primary expressions and suffixes -/

theorem argumentList_blind (blind : rules.AllBlind) : Blind (argumentList rules) := by
  refine .same .at? fun closes => ?_
  split
  · exact .pure rfl
  · exact .separated blind.assignment

theorem arguments_blind (blind : rules.AllBlind) : Blind (arguments rules) :=
  (argumentList_blind blind).same fun _ => .same .expect fun _ => .pure rfl

theorem suffixRound_agree (blind : rules.AllBlind) (operand : ExprId) :
    Agree Eq (suffixRound rules start operand) (suffixRound rules other operand) := by
  refine .same .peek fun kind => ?_
  split
  · refine .same .advance fun _ => blind.expression.same fun index => ?_
    exact .same .expect fun _ => offeredExpr_agree
  · refine .same .advance fun _ => (arguments_blind blind).same fun found => ?_
    exact offeredExpr_agree
  · exact .same .advance fun _ => .same .identifier fun field => offeredExpr_agree
  · exact .same .advance fun _ => .same .identifier fun field => offeredExpr_agree
  · exact .same .advance fun _ => offeredExpr_agree
  · exact .same .advance fun _ => offeredExpr_agree
  · exact .pure rfl

theorem suffixed_blind (blind : rules.AllBlind) {operand : ExprId} :
    Blind (suffixed rules operand) :=
  .anyhow .exprSpan fun _ _ => .iterateSame (suffixRound_agree blind) operand

theorem stringPiece?_blind : Blind stringPiece? := by
  refine .same .peek fun kind => ?_
  split
  · exact .same .advance fun _ => .pure rfl
  · exact .pure rfl

theorem memberPathRound_agree (blind : rules.AllBlind) (path : ExprId) :
    Agree Eq (memberPathRound rules start path) (memberPathRound rules other path) := by
  refine .same .peek fun kind => ?_
  split
  · exact .same .advance fun _ => .same .identifier fun field => offeredExpr_agree
  · refine .same .advance fun _ => blind.expression.same fun index => ?_
    exact .same .expect fun _ => offeredExpr_agree
  · exact .pure rfl

theorem memberPath_blind (blind : rules.AllBlind) : Blind (memberPath rules) := by
  refine .anyhow .here fun start other => .same .identifier fun name => ?_
  refine .anyhow .spanFrom fun _ _ => .same .addExpr fun first => ?_
  exact .iterateSame (memberPathRound_agree blind) first

theorem primary_blind (blind : rules.AllBlind) : Blind (primary rules) := by
  refine .anyhow .here fun start other => .same .peek fun kind => ?_
  split
  · exact .same .advance fun _ => spannedExpr_agree
  · exact .same .advance fun _ => spannedExpr_agree
  · exact .same .advance fun _ => spannedExpr_agree
  · exact .same (.manySame stringPiece?_blind) fun pieces => spannedExpr_agree
  · refine .same .advance fun _ => blind.expression.same fun inner => ?_
    exact .same .expect fun _ => spannedExpr_agree
  · refine .same .advance fun _ => .same .expect fun _ => blind.typeName.same fun type => ?_
    refine .same .expect fun _ => (memberPath_blind blind).same fun path => ?_
    exact .same .expect fun _ => spannedExpr_agree
  · refine .same .advance fun _ => .same .expect fun _ => blind.assignment.same fun list => ?_
    refine .same .expect fun _ => blind.typeName.same fun type => ?_
    exact .same .expect fun _ => spannedExpr_agree
  · exact .fail

/-! ## Unary expressions and casts -/

theorem sizeofOperand_agree (blind : rules.AllBlind) :
    Agree Eq (sizeofOperand rules start) (sizeofOperand rules other) := by
  refine atParenthesizedType_blind.same fun typed => ?_
  split
  · refine .same .advance fun _ => blind.typeName.same fun type => ?_
    exact .same .expect fun _ => spannedExpr_agree
  · exact blind.unary.same fun operand => spannedExpr_agree

theorem prefixOperand_blind (blind : rules.AllBlind) {op : UnaryOp} :
    Blind (prefixOperand rules op) := by
  unfold prefixOperand
  split
  · exact blind.unary
  · exact blind.unary
  · exact blind.cast

theorem unary_blind (blind : rules.AllBlind) : Blind (unary rules) := by
  have suffixedPrimary : Blind (primary rules >>= suffixed rules) :=
    (primary_blind blind).same fun _ => suffixed_blind blind
  refine .anyhow .here fun start other => .same .peek fun kind => ?_
  split
  · split
    · refine .same .advance fun _ => (prefixOperand_blind blind).same fun operand => ?_
      exact spannedExpr_agree
    · exact suffixedPrimary
  · exact .same .advance fun _ => sizeofOperand_agree blind
  · exact suffixedPrimary

theorem cast_blind (blind : rules.AllBlind) : Blind (cast rules) := by
  refine atParenthesizedType_blind.same fun typed => ?_
  split
  · refine .anyhow .here fun start other => .same .advance fun _ => ?_
    refine blind.typeName.same fun type => .same .expect fun _ => ?_
    refine .anyhow .here fun initStart otherInit => .same .accept fun braced => ?_
    split
    · refine blind.initializers.same fun items => .anyhow .spanFrom fun _ _ => ?_
      refine .same (.addInit rfl) fun init => .anyhow .spanFrom fun _ _ => ?_
      exact .same .addExpr fun literal => suffixed_blind blind
    · exact blind.cast.same fun operand => spannedExpr_agree
  · exact unary_blind blind

/-! ## Binary operators, conditional, assignment, comma -/

theorem chain_blind {admits : BinaryOp → Bool} {operand : Parse ExprId}
    (blind : Blind operand) : Blind (chain admits operand) := by
  refine blind.same fun first => .iterateSame (fun left => ?_) first
  refine operatorAt_blind.same fun op => ?_
  cases op with
  | none => exact .pure rfl
  | some op => exact .same .advance fun _ => blind.same fun right => .mapSame joined_blind

theorem binary_blind (blind : rules.AllBlind) (tier : Nat) : Blind (binary rules tier) := by
  induction tier with
  | zero => exact cast_blind blind
  | succ tier ih => exact chain_blind ih

theorem conditional_blind (blind : rules.AllBlind) : Blind (conditional rules) := by
  refine .anyhow .here fun start other => (binary_blind blind 10).same fun condition => ?_
  refine .same .accept fun taken => ?_
  split
  · refine blind.expression.same fun first => .same .expect fun _ => ?_
    exact blind.conditional.same fun second => spannedExpr_agree
  · exact .pure rfl

theorem assignment_blind (blind : rules.AllBlind) : Blind (assignment rules) := by
  refine (conditional_blind blind).same fun left => operatorAt_blind.same fun op => ?_
  cases op with
  | none => exact .pure rfl
  | some op => exact .same .advance fun _ => blind.assignment.same fun right => joined_blind

theorem expression_blind (blind : rules.AllBlind) : Blind (expression rules) := by
  refine .anyhow .here fun start other => ?_
  refine .same (.separated (assignment_blind blind)) fun items => ?_
  split
  · exact .pure rfl
  · exact spannedExpr_agree

end SyntaxGraph.Grammar
