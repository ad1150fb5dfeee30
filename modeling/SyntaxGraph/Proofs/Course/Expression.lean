import SyntaxGraph.Proofs.Grammar.Runs

/-!
# Expressions take a course

Every rule for expressions takes plain steps only, provided that the rules one level of
nesting further in follow the relation that permits these.  A string is made of all literals
that stand at the current token, where there is one, and a comma of what is left when a single
operand has been answered as it is.
-/

set_option autoImplicit false

namespace SyntaxGraph.Grammar

open Token (Kind Keyword Punctuator)

variable {relation : State → State → Prop} [Permits relation] {rules : Rules}

theorem spannedExpr_follows {form : Expr.Form} {start : Location} (fits : form.Fits) :
    Follows relation (do Parse.addExpr form (← Parse.spanFrom start)) :=
  .bind .spanFrom fun _ => .addExpr fits

theorem offeredExpr_follows {form : Expr.Form} {start : Location} (fits : form.Fits) :
    Follows relation (do some <$> Parse.addExpr form (← Parse.spanFrom start)) :=
  .bind .spanFrom fun _ => .map (.addExpr fits)

theorem atParenthesizedType_follows : Follows relation atParenthesizedType :=
  .bind .at? fun _ => .bind .scopes fun _ => .bind .peekNext fun _ => .pure

theorem argumentList_follows (follow : rules.PartsFollow relation) :
    Follows relation (argumentList rules) := by
  refine .bind .at? fun closes => ?_
  split
  · exact .pure
  · exact .separated follow.assignment

theorem arguments_follows (follow : rules.PartsFollow relation) :
    Follows relation (arguments rules) :=
  (argumentList_follows follow).bind fun _ => .bind .expect fun _ => .pure

theorem suffixRound_follows (follow : rules.PartsFollow relation) {start : Location}
    {operand : ExprId} : Follows relation (suffixRound rules start operand) := by
  refine .bind .peek fun kind => ?_
  split
  · refine .bind .advance fun _ => follow.expression.bind fun index => ?_
    exact .bind .expect fun _ => offeredExpr_follows trivial
  · refine .bind .advance fun _ => (arguments_follows follow).bind fun found => ?_
    exact offeredExpr_follows trivial
  · exact .bind .advance fun _ => .bind .identifier fun field => offeredExpr_follows trivial
  · exact .bind .advance fun _ => .bind .identifier fun field => offeredExpr_follows trivial
  · exact .bind .advance fun _ => offeredExpr_follows trivial
  · exact .bind .advance fun _ => offeredExpr_follows trivial
  · exact .pure

theorem suffixed_follows (follow : rules.PartsFollow relation) {operand : ExprId} :
    Follows relation (suffixed rules operand) :=
  .bind .exprSpan fun _ => .iterate (fun _ => suffixRound_follows follow) _

theorem stringPiece?_follows : Follows relation stringPiece? := by
  refine .bind .peek fun kind => ?_
  split
  · exact .bind .advance fun _ => .pure
  · exact .pure

/-- At a literal there is one piece at least. -/
theorem stringPieces_ne_nil {tokens : Tokens} {s s' : State} {text : String}
    {pieces : List String} (there : tokens.kind s.position = .string text)
    (run : Parse.many stringPiece? tokens s = .ok pieces s') : pieces ≠ [] := by
  rintro rfl
  cases many_ok run with
  | stop last =>
    obtain ⟨kind, same, rest⟩ := peek_then last
    obtain rfl := there.symm.trans same
    obtain ⟨_, _, -, answers⟩ := bind_ok rest
    cases (pure_ok answers).1

theorem memberPathRound_follows (follow : rules.PartsFollow relation) {start : Location}
    {path : ExprId} : Follows relation (memberPathRound rules start path) := by
  refine .bind .peek fun kind => ?_
  split
  · exact .bind .advance fun _ => .bind .identifier fun field => offeredExpr_follows trivial
  · refine .bind .advance fun _ => follow.expression.bind fun index => ?_
    exact .bind .expect fun _ => offeredExpr_follows trivial
  · exact .pure

theorem memberPath_follows (follow : rules.PartsFollow relation) :
    Follows relation (memberPath rules) := by
  refine .bind .here fun start => .bind .identifier fun name => ?_
  refine .bind .spanFrom fun span => .bind (.addExpr trivial) fun first => ?_
  exact .iterate (fun _ => memberPathRound_follows follow) _

theorem primary_follows (follow : rules.PartsFollow relation) :
    Follows relation (primary rules) := by
  refine .bind .here fun start tokens s => Follows.peek.andThen fun kind middle looked => ?_
  obtain ⟨there, rfl, -⟩ := peek_ok looked
  split
  · refine Follows.ends (.bind .advance fun _ => ?_)
    exact spannedExpr_follows trivial
  · refine Follows.ends (.bind .advance fun _ => ?_)
    exact spannedExpr_follows trivial
  · refine Follows.ends (.bind .advance fun _ => ?_)
    exact spannedExpr_follows trivial
  · refine (Follows.many stringPiece?_follows).andThen fun pieces behind run => Follows.ends ?_
    exact spannedExpr_follows (stringPieces_ne_nil there.symm run)
  · refine Follows.ends (.bind .advance fun _ => follow.expression.bind fun inner => ?_)
    exact .bind .expect fun _ => spannedExpr_follows trivial
  · refine Follows.ends (.bind .advance fun _ => .bind .expect fun _ => ?_)
    refine follow.typeName.bind fun type => .bind .expect fun _ => ?_
    refine (memberPath_follows follow).bind fun path => ?_
    exact .bind .expect fun _ => spannedExpr_follows trivial
  · refine Follows.ends (.bind .advance fun _ => .bind .expect fun _ => ?_)
    refine follow.assignment.bind fun list => .bind .expect fun _ => ?_
    refine follow.typeName.bind fun type => ?_
    exact .bind .expect fun _ => spannedExpr_follows trivial
  · exact Follows.ends .fail

/-! ## Unary expressions and casts -/

theorem sizeofOperand_follows (follow : rules.PartsFollow relation) {start : Location} :
    Follows relation (sizeofOperand rules start) := by
  refine .bind atParenthesizedType_follows fun typed => ?_
  split
  · refine .bind .advance fun _ => follow.typeName.bind fun type => ?_
    exact .bind .expect fun _ => spannedExpr_follows trivial
  · exact follow.unary.bind fun operand => spannedExpr_follows trivial

omit [Permits relation] in
theorem prefixOperand_follows (follow : rules.PartsFollow relation) (op : UnaryOp) :
    Follows relation (prefixOperand rules op) := by
  cases op with
  | preInc | preDec => exact follow.unary
  | _ => exact follow.cast

theorem postfix_follows (follow : rules.PartsFollow relation) :
    Follows relation (primary rules >>= suffixed rules) :=
  (primary_follows follow).bind fun _ => suffixed_follows follow

theorem unary_follows (follow : rules.PartsFollow relation) : Follows relation (unary rules) := by
  refine .bind .here fun start => .bind .peek fun kind => ?_
  split
  · split
    · next op _ =>
        refine .bind .advance fun _ => (prefixOperand_follows follow op).bind fun operand => ?_
        exact spannedExpr_follows trivial
    · exact postfix_follows follow
  · exact .bind .advance fun _ => sizeofOperand_follows follow
  · exact postfix_follows follow

theorem cast_follows (follow : rules.PartsFollow relation) : Follows relation (cast rules) := by
  refine .bind atParenthesizedType_follows fun typed => ?_
  split
  · refine .bind .here fun start => .bind .advance fun _ => follow.typeName.bind fun type => ?_
    refine .bind .expect fun _ => .bind .here fun initStart => .bind .accept fun braced => ?_
    split
    · refine follow.initializers.bind fun items => .bind .spanFrom fun span => ?_
      refine .bind .addInit fun init => .bind .spanFrom fun span => ?_
      exact .bind (.addExpr trivial) fun literal => suffixed_follows follow
    · exact follow.cast.bind fun operand => spannedExpr_follows trivial
  · exact unary_follows follow

/-! ## Binary operators, conditional, assignment, comma -/

theorem operatorAt_follows {admits : BinaryOp → Bool} : Follows relation (operatorAt admits) := by
  refine .bind .peek fun kind => ?_
  split <;> exact .pure

theorem joined_follows {op : BinaryOp} {left right : ExprId} :
    Follows relation (joined op left right) :=
  .bind .exprSpan fun _ => .bind .exprSpan fun _ => .addExpr trivial

theorem chain_follows {admits : BinaryOp → Bool} {operand : Parse ExprId}
    (follows : Follows relation operand) : Follows relation (chain admits operand) := by
  refine follows.bind fun first => .iterate (fun left => ?_) first
  refine .bind operatorAt_follows fun op => ?_
  cases op with
  | none => exact .pure
  | some op => exact .bind .advance fun _ => follows.bind fun right => .map joined_follows

theorem binary_follows (follow : rules.PartsFollow relation) (tier : Nat) :
    Follows relation (binary rules tier) := by
  induction tier with
  | zero => exact cast_follows follow
  | succ tier ih => exact chain_follows ih

theorem conditional_follows (follow : rules.PartsFollow relation) :
    Follows relation (conditional rules) := by
  refine .bind .here fun start => (binary_follows follow 10).bind fun condition => ?_
  refine .bind .accept fun asks => ?_
  split
  · refine follow.expression.bind fun first => .bind .expect fun _ => ?_
    exact follow.conditional.bind fun second => spannedExpr_follows rfl
  · exact .pure

theorem assignment_follows (follow : rules.PartsFollow relation) :
    Follows relation (assignment rules) := by
  refine (conditional_follows follow).bind fun left => .bind operatorAt_follows fun op => ?_
  cases op with
  | none => exact .pure
  | some op => exact .bind .advance fun _ => follow.assignment.bind fun right => joined_follows

/-- What is neither empty nor a single one. -/
theorem two_le_length {α : Type} {items : List α} (some : items ≠ [])
    (several : ∀ only, items ≠ [only]) : 2 ≤ items.length := by
  match items with
  | [] => exact absurd rfl some
  | [only] => exact absurd rfl (several only)
  | _ :: _ :: _ => simp

theorem expression_follows (follow : rules.PartsFollow relation) :
    Follows relation (expression rules) := by
  refine .bind .here fun start tokens s => ?_
  refine (Follows.separated (assignment_follows follow)).andThen fun items middle run => ?_
  have some : items ≠ [] := Answers.separated tokens s items middle run
  split
  · exact Follows.ends .pure
  · next several =>
    refine Follows.ends ?_
    exact spannedExpr_follows (two_le_length some several)

end SyntaxGraph.Grammar
