import SyntaxGraph.Grammar.Expression
import SyntaxGraph.Proofs.Custody.Judgement

/-!
# Expressions and the nodes they hold

An expression is made of operands that have been made for it: each of them is a part of the
node that is added for the operator, and of no other one.
-/

set_option autoImplicit false

namespace SyntaxGraph.Grammar

open Token (Kind Keyword Punctuator)

variable {rules : Rules} {uses : List NodeRef}

instance : Owning Specifiers := ⟨fun specifiers => parts specifiers.type⟩
instance : Owning Declarator := ⟨fun declarator => parts declarator.type⟩

@[simp] theorem parts_specifiers (specifiers : Specifiers) :
    parts specifiers = [.type specifiers.type] := rfl

@[simp] theorem parts_declarator (declarator : Declarator) :
    parts declarator = [.type declarator.type] := rfl

/-- The recursive rules make what they answer. -/
structure Rules.AllMake (rules : Rules) : Prop where
  expression : Makes rules.expression
  assignment : Makes rules.assignment
  conditional : Makes rules.conditional
  cast : Makes rules.cast
  unary : Makes rules.unary
  typeName : Makes rules.typeName
  specifiers : Makes rules.specifiers
  declarator (type : TypeId) (abstractOk : Bool) :
    Passes [] (parts type) (rules.declarator type abstractOk) parts
  initializers : Makes rules.initializers
  statement : Makes rules.statement

theorem spannedExpr_passes {form : Expr.Form} {start : Location}
    (same : ∀ node, uses.count node = form.holds.count node) :
    Passes [] uses (do Parse.addExpr form (← Parse.spanFrom start)) parts :=
  .past .spanFrom fun _ => .addExpr same

theorem offeredExpr_passes {form : Expr.Form} {start : Location} {operand : ExprId}
    (same : ∀ node, uses.count node = form.holds.count node) :
    Passes [] uses (do some <$> Parse.addExpr form (← Parse.spanFrom start))
      fun next => parts (next.getD operand) :=
  .past .spanFrom fun _ => .map (.addExpr same)

theorem operatorAt_spares {admits : BinaryOp → Bool} : Spares (operatorAt admits) := by
  refine .past .peek fun kind => ?_
  split
  · exact .pure fun _ => rfl
  · exact .pure fun _ => rfl

theorem joined_passes {op : BinaryOp} {left right : ExprId} :
    Passes [] [.expr left, .expr right] (joined op left right) parts :=
  .past (.looking exprSpan_observes) fun _ => .past (.looking exprSpan_observes) fun _ =>
    .addExpr fun _ => rfl

theorem atParenthesizedType_spares : Spares atParenthesizedType :=
  .past .at? fun _ => .past (.looking scopes_observes) fun _ =>
    .past (.looking peekNext_observes) fun _ => .pure fun _ => rfl

/-! ## Primary expressions and suffixes -/

theorem argumentList_makes (make : rules.AllMake) : Makes (argumentList rules) := by
  refine .past .at? fun closes => ?_
  split
  · exact .pure fun _ => rfl
  · exact .separated make.assignment

theorem arguments_makes (make : rules.AllMake) : Makes (arguments rules) :=
  .andThen (argumentList_makes make) fun _ => .past .expect fun _ => .pure fun node => by simp

theorem suffixRound_passes (make : rules.AllMake) {start : Location} (operand : ExprId) :
    Passes [] (parts operand) (suffixRound rules start operand)
      fun next => parts (next.getD operand) := by
  refine .past .peek fun kind => ?_
  split
  · refine .past .advance fun _ => .andThen make.expression fun index => .past .expect fun _ => ?_
    exact offeredExpr_passes fun node => by simp [List.count_cons, Nat.add_comm]
  · refine .past .advance fun _ => .andThen (arguments_makes make) fun found => ?_
    exact offeredExpr_passes fun node => by simp [List.count_cons]
  · exact .past .advance fun _ => .past .identifier fun field => offeredExpr_passes fun _ => rfl
  · exact .past .advance fun _ => .past .identifier fun field => offeredExpr_passes fun _ => rfl
  · exact .past .advance fun _ => offeredExpr_passes fun _ => rfl
  · exact .past .advance fun _ => offeredExpr_passes fun _ => rfl
  · exact .pure fun _ => rfl

theorem suffixed_passes (make : rules.AllMake) {operand : ExprId} :
    Passes [] (parts operand) (suffixed rules operand) parts :=
  .past (.looking exprSpan_observes) fun _ => .iterate (suffixRound_passes make) operand

theorem stringPiece?_spares : Spares stringPiece? := by
  refine .past .peek fun kind => ?_
  split
  · exact .past .advance fun _ => .pure fun _ => rfl
  · exact .pure fun _ => rfl

theorem memberPathRound_passes (make : rules.AllMake) {start : Location} (path : ExprId) :
    Passes [] (parts path) (memberPathRound rules start path)
      fun next => parts (next.getD path) := by
  refine .past .peek fun kind => ?_
  split
  · exact .past .advance fun _ => .past .identifier fun field => offeredExpr_passes fun _ => rfl
  · refine .past .advance fun _ => .andThen make.expression fun index => .past .expect fun _ => ?_
    exact offeredExpr_passes fun node => by simp [List.count_cons, Nat.add_comm]
  · exact .pure fun _ => rfl

theorem memberPath_makes (make : rules.AllMake) : Makes (memberPath rules) := by
  refine .past .here fun start => .past .identifier fun name => .past .spanFrom fun span => ?_
  exact .bind (.addExpr fun _ => rfl) (.iterate (memberPathRound_passes make))

theorem primary_makes (make : rules.AllMake) : Makes (primary rules) := by
  refine .past .here fun start => .past .peek fun kind => ?_
  split
  · exact .past .advance fun _ => spannedExpr_passes fun _ => rfl
  · exact .past .advance fun _ => spannedExpr_passes fun _ => rfl
  · exact .past .advance fun _ => spannedExpr_passes fun _ => rfl
  · refine .past (.many_spares stringPiece?_spares) fun pieces => ?_
    exact spannedExpr_passes fun _ => rfl
  · refine .past .advance fun _ => .andThen make.expression fun inner => .past .expect fun _ => ?_
    exact spannedExpr_passes fun _ => rfl
  · refine .past .advance fun _ => .past .expect fun _ => .andThen make.typeName fun type => ?_
    refine .past .expect fun _ => .andThen (memberPath_makes make) fun path => ?_
    exact .past .expect fun _ => spannedExpr_passes fun node => by
      simp [List.count_cons, Nat.add_comm]
  · refine .past .advance fun _ => .past .expect fun _ => .andThen make.assignment fun list => ?_
    refine .past .expect fun _ => .andThen make.typeName fun type => .past .expect fun _ => ?_
    exact spannedExpr_passes fun _ => rfl
  · exact .fail

/-! ## Unary expressions and casts -/

theorem sizeofOperand_makes (make : rules.AllMake) {start : Location} :
    Makes (sizeofOperand rules start) := by
  refine .past atParenthesizedType_spares fun typed => ?_
  split
  · refine .past .advance fun _ => .andThen make.typeName fun type => .past .expect fun _ => ?_
    exact spannedExpr_passes fun _ => rfl
  · exact .andThen make.unary fun operand => spannedExpr_passes fun _ => rfl

theorem prefixOperand_makes (make : rules.AllMake) {op : UnaryOp} :
    Makes (prefixOperand rules op) := by
  unfold prefixOperand
  split
  · exact make.unary
  · exact make.unary
  · exact make.cast

theorem unary_makes (make : rules.AllMake) : Makes (unary rules) := by
  have suffixedPrimary : Makes (primary rules >>= suffixed rules) :=
    .bind (primary_makes make) fun _ => suffixed_passes make
  refine .past .here fun start => .past .peek fun kind => ?_
  split
  · split
    · refine .past .advance fun _ => .andThen (prefixOperand_makes make) fun operand => ?_
      exact spannedExpr_passes fun _ => rfl
    · exact suffixedPrimary
  · exact .past .advance fun _ => sizeofOperand_makes make
  · exact suffixedPrimary

theorem cast_makes (make : rules.AllMake) : Makes (cast rules) := by
  refine .past atParenthesizedType_spares fun typed => ?_
  split
  · refine .past .here fun start => .past .advance fun _ => .andThen make.typeName fun type => ?_
    refine .past .expect fun _ => .past .here fun initStart => .past .accept fun braced => ?_
    split
    · refine .andThen make.initializers fun items => .past .spanFrom fun span => ?_
      have added : Passes [] (parts items) (Parse.addInit { form := .braced items, span })
          parts := .addInit fun node => by simp
      refine .bind (added.frame _) fun init => .past .spanFrom fun span => ?_
      exact .bind (.addExpr fun node => by simp [List.count_cons, Nat.add_comm]) fun literal =>
        suffixed_passes make
    · exact .andThen make.cast fun operand => spannedExpr_passes fun node => by
        simp [List.count_cons, Nat.add_comm]
  · exact unary_makes make

/-! ## Binary operators, conditional, assignment, comma -/

theorem chain_makes {admits : BinaryOp → Bool} {operand : Parse ExprId}
    (makes : Makes operand) : Makes (chain admits operand) := by
  refine .bind makes (.iterate fun left => ?_)
  refine .past operatorAt_spares fun op => ?_
  cases op with
  | none => exact .pure fun _ => rfl
  | some op =>
      refine .past .advance fun _ => .andThen makes fun right => .map (.sort joined_passes ?_)
      exact fun node => by simp [List.count_cons, Nat.add_comm]

theorem binary_makes (make : rules.AllMake) (tier : Nat) : Makes (binary rules tier) := by
  induction tier with
  | zero => exact cast_makes make
  | succ tier ih => exact chain_makes ih

theorem conditional_makes (make : rules.AllMake) : Makes (conditional rules) := by
  refine .past .here fun start => .andThen (binary_makes make 10) fun condition => ?_
  refine .past .accept fun taken => ?_
  split
  · refine .andThen make.expression fun first => .past .expect fun _ => ?_
    refine .andThen make.conditional fun second => spannedExpr_passes fun node => ?_
    simp only [parts_exprId, Expr.Form.holds, Expr.Form.types, Expr.Form.parts, parts_cons,
      parts_nil, List.count_append, List.count_cons, List.count_nil]
    omega
  · exact .pure fun node => by simp

theorem assignment_makes (make : rules.AllMake) : Makes (assignment rules) := by
  refine .andThen (conditional_makes make) fun left => .past operatorAt_spares fun op => ?_
  cases op with
  | none => exact .pure fun node => by simp
  | some op =>
      refine .past .advance fun _ => .andThen make.assignment fun right => ?_
      exact .sort joined_passes fun node => by simp [List.count_cons, Nat.add_comm]

theorem expression_makes (make : rules.AllMake) : Makes (expression rules) := by
  refine .past .here fun start => .andThen (.separated (assignment_makes make)) fun items => ?_
  split
  · exact .pure fun node => by simp
  · exact spannedExpr_passes fun node => by simp

end SyntaxGraph.Grammar
