import SyntaxGraph.Grammar.Expression
import SyntaxGraph.Proofs.Nesting.Judgement

/-!
# Expressions are balanced

Every rule for expressions closes the parentheses that it opens, provided that the rules
one level of nesting further in are neutral.  Arguments are read from behind an opening
parenthesis to behind the closing one.
-/

set_option autoImplicit false

namespace SyntaxGraph.Grammar

open Token (Kind Keyword Punctuator)

variable {β : Type} {tokens : Tokens} {rules : Rules} {a b : Nat}

structure Rules.AllNeutral (rules : Rules) (tokens : Tokens) : Prop where
  expression : Neutral tokens rules.expression
  assignment : Neutral tokens rules.assignment
  conditional : Neutral tokens rules.conditional
  cast : Neutral tokens rules.cast
  unary : Neutral tokens rules.unary
  typeName : Neutral tokens rules.typeName
  specifiers : Neutral tokens rules.specifiers
  declarator (type : TypeId) (abstractOk : Bool) :
    Neutral tokens (rules.declarator type abstractOk)
  initializers : Neutral tokens rules.initializers
  statement : Neutral tokens rules.statement

theorem spannedExpr_neutral {form : Expr.Form} {start : Location} :
    Neutral tokens (do Parse.addExpr form (← Parse.spanFrom start)) :=
  .look spanFrom_observes fun _ => .addExpr

theorem offeredExpr_neutral {form : Expr.Form} {start : Location} :
    Neutral tokens (do some <$> Parse.addExpr form (← Parse.spanFrom start)) :=
  .look spanFrom_observes fun _ => .map .addExpr

theorem Nests.ifAtType {yes no : Parse β}
    (whenThere : Nests tokens [.punctuator .parenOpen] a b yes)
    (otherwise : Nests tokens [] a b no) :
    Nests tokens [] a b (do if ← atParenthesizedType then yes else no) := by
  intro origin base depth s passed ahead value s' run
  obtain ⟨found, middle, looked, done⟩ := bind_ok run
  obtain ⟨answer, rfl, inside⟩ := atParenthesizedType_ok looked
  cases found with
  | true =>
      have there := (Bool.and_eq_true_iff.mp answer.symm).1
      refine whenThere origin base depth middle passed ?_ value s' done
      rw [Tokens.ahead_cons inside, of_decide_eq_true there]
      exact ⟨_, rfl⟩
  | false => exact otherwise origin base depth middle passed ahead value s' done

theorem argumentList_neutral (neutral : rules.AllNeutral tokens) :
    Neutral tokens (argumentList rules) :=
  .ifAt .pure (.separated neutral.assignment)

theorem arguments_nests (neutral : rules.AllNeutral tokens) :
    Nests tokens [] 1 0 (arguments rules) :=
  (argumentList_neutral neutral).andThen fun _ => .closeParen .pure

theorem suffixRound_neutral (neutral : rules.AllNeutral tokens) {start : Location}
    {operand : ExprId} : Neutral tokens (suffixRound rules start operand) := by
  refine .peek fun kind => ?_
  split
  · refine .advance rfl (neutral.expression.bind fun index => ?_)
    exact .bind (.expect rfl) fun _ => offeredExpr_neutral
  · refine .advance rfl ((arguments_nests neutral).bind fun found => ?_)
    exact offeredExpr_neutral
  · exact .advance rfl (.bind .identifier fun field => offeredExpr_neutral)
  · exact .advance rfl (.bind .identifier fun field => offeredExpr_neutral)
  · exact .advance rfl offeredExpr_neutral
  · exact .advance rfl offeredExpr_neutral
  · exact .pure

theorem suffixed_neutral (neutral : rules.AllNeutral tokens) {operand : ExprId} :
    Neutral tokens (suffixed rules operand) :=
  .look exprSpan_observes fun _ => .iterate (fun _ => suffixRound_neutral neutral) _

theorem stringPiece?_neutral : Neutral tokens stringPiece? := by
  refine .peek fun kind => ?_
  split
  · exact .advance rfl .pure
  · exact .pure

theorem memberPathRound_neutral (neutral : rules.AllNeutral tokens) {start : Location}
    {path : ExprId} : Neutral tokens (memberPathRound rules start path) := by
  refine .peek fun kind => ?_
  split
  · exact .advance rfl (.bind .identifier fun field => offeredExpr_neutral)
  · refine .advance rfl (neutral.expression.bind fun index => ?_)
    exact .bind (.expect rfl) fun _ => offeredExpr_neutral
  · exact .pure

theorem memberPath_neutral (neutral : rules.AllNeutral tokens) :
    Neutral tokens (memberPath rules) := by
  refine .look here_observes fun start => .bind .identifier fun name => ?_
  refine .look spanFrom_observes fun span => .bind .addExpr fun first => ?_
  exact .iterate (fun _ => memberPathRound_neutral neutral) _

theorem primary_neutral (neutral : rules.AllNeutral tokens) :
    Neutral tokens (primary rules) := by
  refine .look here_observes fun start => .peek fun kind => ?_
  split
  · exact .advance rfl spannedExpr_neutral
  · exact .advance rfl spannedExpr_neutral
  · exact .advance rfl spannedExpr_neutral
  · exact .stay (.bind (.many stringPiece?_neutral) fun _ => spannedExpr_neutral)
  · refine .advance rfl (neutral.expression.andThen fun inner => ?_)
    exact .closeParen spannedExpr_neutral
  · refine .advance rfl (.openParen (neutral.typeName.andThen fun type => ?_))
    refine .bind (.expect rfl) fun _ => (memberPath_neutral neutral).andThen fun path => ?_
    exact .closeParen spannedExpr_neutral
  · refine .advance rfl (.openParen (neutral.assignment.andThen fun list => ?_))
    refine .bind (.expect rfl) fun _ => neutral.typeName.andThen fun type => ?_
    exact .closeParen spannedExpr_neutral
  · exact .fail

/-! ## Unary expressions and casts -/

theorem sizeofOperand_neutral (neutral : rules.AllNeutral tokens) {start : Location} :
    Neutral tokens (sizeofOperand rules start) := by
  refine .ifAtType ?_ ?_
  · refine .advance rfl (neutral.typeName.andThen fun type => ?_)
    exact .closeParen spannedExpr_neutral
  · exact neutral.unary.bind fun operand => spannedExpr_neutral

theorem prefixOperand_neutral (neutral : rules.AllNeutral tokens) (op : UnaryOp) :
    Neutral tokens (prefixOperand rules op) := by
  cases op with
  | preInc | preDec => exact neutral.unary
  | _ => exact neutral.cast

theorem postfix_neutral (neutral : rules.AllNeutral tokens) :
    Neutral tokens (primary rules >>= suffixed rules) :=
  (primary_neutral neutral).bind fun _ => suffixed_neutral neutral

theorem prefixOp?_nest {mark : Punctuator} {op : UnaryOp} (found : prefixOp? mark = some op) :
    (Kind.punctuator mark).nest a = some a := by
  cases mark <;> first | rfl | cases found

theorem unary_neutral (neutral : rules.AllNeutral tokens) : Neutral tokens (unary rules) := by
  refine .look here_observes fun start => .peek fun kind => ?_
  split
  · split
    · next op found =>
        refine .advance (prefixOp?_nest found) ((prefixOperand_neutral neutral op).bind ?_)
        exact fun operand => spannedExpr_neutral
    · exact .stay (postfix_neutral neutral)
  · exact .advance rfl (sizeofOperand_neutral neutral)
  · exact .stay (postfix_neutral neutral)

theorem cast_neutral (neutral : rules.AllNeutral tokens) : Neutral tokens (cast rules) := by
  refine .ifAtType (.look here_observes fun start => ?_) (unary_neutral neutral)
  refine .advance rfl (neutral.typeName.andThen fun type => .closeParen ?_)
  refine .look here_observes fun initStart => .ifAccept rfl ?_ ?_
  · refine neutral.initializers.bind fun items => .look spanFrom_observes fun span => ?_
    refine .bind .addInit fun init => .look spanFrom_observes fun span => ?_
    exact .bind .addExpr fun literal => suffixed_neutral neutral
  · exact neutral.cast.bind fun operand => spannedExpr_neutral

/-! ## Binary operators, conditional, assignment, comma -/

theorem binaryOp?_nest {mark : Punctuator} {op : BinaryOp} (found : binaryOp? mark = some op) :
    (Kind.punctuator mark).nest a = some a := by
  cases mark <;> first | rfl | cases found

theorem Nests.operatorAt {admits : BinaryOp → Bool} {next : Option BinaryOp → Parse β}
    (whenThere : ∀ mark op, binaryOp? mark = some op → admits op = true →
      Nests tokens [.punctuator mark] a b (next (some op)))
    (otherwise : Nests tokens [] a b (next none)) :
    Nests tokens [] a b (Grammar.operatorAt admits >>= next) := by
  intro origin base depth s passed ahead value s' run
  obtain ⟨found, middle, looked, done⟩ := bind_ok run
  obtain ⟨rfl, inside, there⟩ := operatorAt_ok looked
  cases found with
  | none => exact otherwise origin base depth middle passed ahead value s' done
  | some op =>
      obtain ⟨mark, same, writes, admitted⟩ := there op rfl
      refine whenThere mark op writes admitted origin base depth middle passed ?_ value s' done
      rw [Tokens.ahead_cons inside, same]
      exact ⟨_, rfl⟩

theorem joined_neutral {op : BinaryOp} {left right : ExprId} :
    Neutral tokens (joined op left right) :=
  .look exprSpan_observes fun _ => .look exprSpan_observes fun _ => .addExpr

theorem chain_neutral {admits : BinaryOp → Bool} {operand : Parse ExprId}
    (neutral : Neutral tokens operand) : Neutral tokens (chain admits operand) := by
  refine neutral.bind fun first => .iterate (fun left => ?_) first
  refine .operatorAt (fun mark op found _ => ?_) .pure
  exact .advance (binaryOp?_nest found) (neutral.bind fun right => .map joined_neutral)

theorem binary_neutral (neutral : rules.AllNeutral tokens) (tier : Nat) :
    Neutral tokens (binary rules tier) := by
  induction tier with
  | zero => exact cast_neutral neutral
  | succ tier ih => exact chain_neutral ih

theorem conditional_neutral (neutral : rules.AllNeutral tokens) :
    Neutral tokens (conditional rules) := by
  refine .look here_observes fun start => (binary_neutral neutral 10).bind fun condition => ?_
  refine .ifAccept rfl (neutral.expression.bind fun first => ?_) .pure
  refine .bind (.expect rfl) fun _ => neutral.conditional.bind fun second => ?_
  exact spannedExpr_neutral

theorem assignment_neutral (neutral : rules.AllNeutral tokens) :
    Neutral tokens (assignment rules) := by
  refine (conditional_neutral neutral).bind fun left => ?_
  refine .operatorAt (fun mark op found _ => ?_) .pure
  exact .advance (binaryOp?_nest found) (neutral.assignment.bind fun right => joined_neutral)

theorem expression_neutral (neutral : rules.AllNeutral tokens) :
    Neutral tokens (expression rules) := by
  refine .look here_observes fun start => ?_
  refine .bind (.separated (assignment_neutral neutral)) fun items => ?_
  split
  · exact .pure
  · exact spannedExpr_neutral

end SyntaxGraph.Grammar
