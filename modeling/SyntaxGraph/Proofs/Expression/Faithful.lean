import SyntaxGraph.Proofs.Expression.Spelling

/-!
# An expression spells the tokens it was read from

Where an expression without types is read, a canonical tree stands there that is written with
the tokens that have been consumed: one lemma for each function of the grammar, and an
induction on the nesting.
-/

set_option autoImplicit false

namespace SyntaxGraph.Grammar

open Token (Kind Punctuator)
open SyntaxGraph.Expr (Tree)

variable {tokens : Tokens} {rules : Rules} {s middle s' : State} {id : ExprId}
  {kinds : List Kind}

/-! ## Primary expressions and suffixes -/

theorem arguments_spelled (spells : rules.AllSpell tokens) {ids : List ExprId}
    (run : arguments rules tokens s = .ok ids s') :
    ∃ kinds, Consumes tokens s (kinds ++ [.punctuator .parenClose]) s' ∧
      SpelledList s'.arenas ids kinds := by
  obtain ⟨found, middle, listed, run⟩ := bind_ok run
  obtain ⟨closes, done⟩ := expect_then (by simp) run
  obtain ⟨rfl, rfl⟩ := pure_ok done
  have close := Consumes.one closes (by simp)
  obtain ⟨empty, listed⟩ := look_then (peek_observes.bind fun _ => pure_observes) listed
  split at listed
  · obtain ⟨rfl, rfl⟩ := pure_ok listed
    exact ⟨[], close, .nil _⟩
  · obtain ⟨-, kinds, consumed, items⟩ := separated_spelled spells.assignment listed
    exact ⟨kinds, consumed.trans close, items⟩

theorem offeredExpr_ok {form : Expr.Form} {start : Location} {next : Option ExprId}
    (consumes : Consumes tokens s kinds middle)
    (run : (do some <$> Parse.addExpr form (← Parse.spanFrom start)) tokens middle =
      .ok next s') :
    ∃ id, next = some id ∧ Consumes tokens s kinds s' ∧
      middle.arenas.KeepsExprs s'.arenas ∧ s'.arenas.form? id = some form := by
  obtain ⟨span, offered⟩ := look_then spanFrom_observes run
  obtain ⟨id, added, rfl⟩ := map_ok offered
  exact ⟨id, rfl, consumes.addExpr added⟩

theorem memberSuffix_extends {start : Location} {operand : ExprId} {next : Option ExprId}
    (op : MemberOp) (there : tokens.kind s.position = .punctuator op.mark)
    (run : (do
      Parse.advance
      let field ← Parse.identifier
      some <$> Parse.addExpr (.member op operand field) (← Parse.spanFrom start)) tokens s =
        .ok next s') :
    ∃ id, next = some id ∧ Extends tokens 15 operand s id s' := by
  have run := advance_then there (by simp) run
  obtain ⟨field, behind, read, run⟩ := bind_ok run
  obtain ⟨name, rfl⟩ := identifier_ok read
  have read := Consumes.cons there (by simp) (.one name (by simp))
  obtain ⟨id, rfl, whole, -, node⟩ := offeredExpr_ok read run
  exact ⟨id, rfl, fun kinds spelled => ⟨_, whole, .member node (spelled.mono whole.keeps)⟩⟩

/-- A mark behind an operand is all that the operator adds. -/
theorem markSuffix_extends {start : Location} {operand : ExprId} {next : Option ExprId}
    (op : UnaryOp) {mark : Punctuator} (there : tokens.kind s.position = .punctuator mark)
    (writes : ∀ tree, (Tree.unary op tree).kinds = tree.kinds ++ [.punctuator mark])
    (postfixed : op.operandLevel = 15) (level : op.level = 15)
    (run : (do
      Parse.advance
      some <$> Parse.addExpr (.unary op operand) (← Parse.spanFrom start)) tokens s =
        .ok next s') :
    ∃ id, next = some id ∧ Extends tokens 15 operand s id s' := by
  have run := advance_then there (by simp) run
  obtain ⟨id, rfl, whole, -, node⟩ := offeredExpr_ok (.one there (by simp)) run
  refine ⟨id, rfl, fun kinds spelled => ⟨_, whole, ?_⟩⟩
  rw [← postfixed] at spelled
  refine .unary node (spelled.mono whole.keeps) (fun tree same => ?_) (Nat.le_of_eq level.symm)
  rw [writes, same]

theorem suffixRound_extends (spells : rules.AllSpell tokens) {start : Location}
    {operand : ExprId} {next : Option ExprId}
    (run : suffixRound rules start operand tokens s = .ok next s') :
    (next = none ∧ s' = s) ∨ ∃ id, next = some id ∧ Extends tokens 15 operand s id s' := by
  obtain ⟨kind, there, run⟩ := peek_then run
  split at run
  · have run := advance_then there (by simp) run
    obtain ⟨index, closing, read, run⟩ := bind_ok run
    obtain ⟨closes, run⟩ := expect_then (by simp) run
    obtain ⟨inner, consumed, indexed⟩ := spells.expression _ _ _ read
    have close := Consumes.one closes (by simp)
    obtain ⟨id, rfl, whole, keeps, node⟩ :=
      offeredExpr_ok (.cons there (by simp) (consumed.trans close)) run
    refine .inr ⟨id, rfl, fun kinds spelled => ⟨_, whole, ?_⟩⟩
    refine .binary node (spelled.mono whole.keeps) (indexed.mono keeps) ?_ (Nat.le_refl _)
    intro array index first second
    rw [Tree.kinds, first, second]
  · have run := advance_then there (by simp) run
    obtain ⟨found, closing, read, run⟩ := bind_ok run
    obtain ⟨inner, consumed, listed⟩ := arguments_spelled spells read
    obtain ⟨id, rfl, whole, keeps, node⟩ := offeredExpr_ok (.cons there (by simp) consumed) run
    exact .inr ⟨id, rfl, fun kinds spelled =>
      ⟨_, whole, .call node (spelled.mono whole.keeps) (listed.mono keeps)⟩⟩
  · exact .inr (memberSuffix_extends .dot there run)
  · exact .inr (memberSuffix_extends .arrow there run)
  · exact .inr (markSuffix_extends .postInc there (fun _ => by rw [Tree.kinds]) rfl rfl run)
  · exact .inr (markSuffix_extends .postDec there (fun _ => by rw [Tree.kinds]) rfl rfl run)
  · exact .inl (pure_ok run)

theorem suffixed_extends (spells : rules.AllSpell tokens) {operand : ExprId}
    (run : suffixed rules operand tokens s = .ok id s') :
    Extends tokens 15 operand s id s' := by
  obtain ⟨span, run⟩ := look_then exprSpan_observes run
  exact iterate_extends (fun _ _ _ _ round => suffixRound_extends spells round) run

theorem stringPiece?_ok {next : Option String} (run : stringPiece? tokens s = .ok next s') :
    (next = none ∧ s' = s ∧ ∀ text, tokens.kind s.position ≠ .string text) ∨
      ∃ text, next = some text ∧ tokens.kind s.position = .string text ∧
        s' = { s with position := s.position + 1 } := by
  obtain ⟨kind, there, run⟩ := peek_then run
  split at run
  · next text =>
      have run := advance_then there (by simp) run
      obtain ⟨same, moved⟩ := pure_ok run
      exact .inr ⟨text, same, there, moved⟩
  · next other =>
      obtain ⟨same, stays⟩ := pure_ok run
      exact .inl ⟨same, stays, fun text equal => other text (there.symm.trans equal)⟩

theorem stringPieces_consumed {pieces : List String}
    (run : Parse.many stringPiece? tokens s = .ok pieces s') :
    Consumes tokens s (pieces.map Kind.string) s' ∧
      ∀ text, tokens.kind s.position = .string text → pieces ≠ [] := by
  have items := many_ok run
  clear run
  induction items with
  | stop last =>
      obtain ⟨-, rfl, other⟩ | ⟨text, some, -⟩ := stringPiece?_ok last
      · exact ⟨.refl tokens _, fun text there => absurd there (other text)⟩
      · cases some
  | next one _ ih =>
      obtain ⟨none, -⟩ | ⟨text, some, there, rfl⟩ := stringPiece?_ok one
      · cases none
      · cases some
        exact ⟨.cons there (by simp) ih.1, fun _ _ => List.cons_ne_nil _ _⟩

theorem primary_spells (neutral : rules.AllNeutral tokens) (spells : rules.AllSpell tokens) :
    Spells tokens 16 (primary rules) := by
  intro s id s' run
  have consumed := Consumes.of_neutral (primary_neutral neutral) run
  obtain ⟨start, run⟩ := look_then here_observes run
  obtain ⟨kind, there, run⟩ := peek_then run
  split at run
  · next name =>
      obtain ⟨whole, -, node⟩ := (Consumes.one there (by simp)).spannedExpr
        (advance_then there (by simp) run)
      exact ⟨_, whole, fun _ =>
        ⟨.name name, .name node, rfl, .name, Nat.le_refl _⟩⟩
  · next text =>
      obtain ⟨whole, -, node⟩ := (Consumes.one there (by simp)).spannedExpr
        (advance_then there (by simp) run)
      exact ⟨_, whole, fun _ =>
        ⟨.number text, .number node, rfl, .number, Nat.le_refl _⟩⟩
  · next text =>
      obtain ⟨whole, -, node⟩ := (Consumes.one there (by simp)).spannedExpr
        (advance_then there (by simp) run)
      exact ⟨_, whole, fun _ =>
        ⟨.character text, .character node, rfl, .character, Nat.le_refl _⟩⟩
  · obtain ⟨pieces, middle, collected, run⟩ := bind_ok run
    obtain ⟨written, some⟩ := stringPieces_consumed collected
    obtain ⟨whole, -, node⟩ := written.spannedExpr run
    exact ⟨_, whole, fun _ =>
      ⟨.string pieces, .string node, rfl, .string (some _ there), Nat.le_refl _⟩⟩
  · have run := advance_then there (by simp) run
    obtain ⟨inner, closing, read, run⟩ := bind_ok run
    obtain ⟨closes, run⟩ := expect_then (by simp) run
    obtain ⟨kinds, consumed, spelled⟩ := spells.expression _ _ _ read
    have close := Consumes.one closes (by simp)
    obtain ⟨whole, keeps, node⟩ :=
      (Consumes.cons there (by simp) (consumed.trans close)).spannedExpr run
    refine ⟨_, whole, .unary node (spelled.mono keeps) (fun tree same => ?_) (Nat.le_refl _)⟩
    rw [Tree.kinds, same]
  · have run := advance_then there (by simp) run
    obtain ⟨-, run⟩ := expect_then (by simp) run
    obtain ⟨type, middle, -, run⟩ := bind_ok run
    obtain ⟨-, run⟩ := expect_then (by simp) run
    obtain ⟨path, middle, -, run⟩ := bind_ok run
    obtain ⟨-, run⟩ := expect_then (by simp) run
    obtain ⟨-, -, node⟩ := (Consumes.refl tokens _).spannedExpr run
    exact ⟨_, consumed, .typed node fun expr same => by simp [Expr.typeOperand, same]⟩
  · have run := advance_then there (by simp) run
    obtain ⟨-, run⟩ := expect_then (by simp) run
    obtain ⟨list, middle, -, run⟩ := bind_ok run
    obtain ⟨-, run⟩ := expect_then (by simp) run
    obtain ⟨type, middle, -, run⟩ := bind_ok run
    obtain ⟨-, run⟩ := expect_then (by simp) run
    obtain ⟨-, -, node⟩ := (Consumes.refl tokens _).spannedExpr run
    exact ⟨_, consumed, .typed node fun expr same => by simp [Expr.typeOperand, same]⟩
  · cases run

/-! ## Unary expressions and casts -/

theorem postfix_spells (neutral : rules.AllNeutral tokens) (spells : rules.AllSpell tokens) :
    Spells tokens 15 (primary rules >>= suffixed rules) := by
  intro s id s' run
  obtain ⟨operand, middle, read, run⟩ := bind_ok run
  obtain ⟨kinds, consumed, spelled⟩ := primary_spells neutral spells _ _ _ read
  obtain ⟨more, rest, whole⟩ := suffixed_extends spells run kinds (spelled.weaken (by omega))
  exact ⟨kinds ++ more, consumed.trans rest, whole⟩

theorem prefixOperand_spells (spells : rules.AllSpell tokens) {op : UnaryOp} {mark : Punctuator}
    (found : prefixOp? mark = some op) :
    Spells tokens op.operandLevel (prefixOperand rules op) := by
  cases mark <;> cases found
  case plusPlus | minusMinus => exact spells.unary
  all_goals exact spells.cast

theorem prefixOp?_writes {mark : Punctuator} {op : UnaryOp} (found : prefixOp? mark = some op) :
    op.level = 14 ∧ op.token = .punctuator mark := by
  cases mark <;> cases found <;> exact ⟨rfl, rfl⟩

/-- With the type of an expression there is nothing left to be said of it. -/
theorem sizeofOperand_spells (neutral : rules.AllNeutral tokens) (spells : rules.AllSpell tokens)
    {start : Location} (there : tokens.kind s.position = .keyword .sizeofKw)
    (run : sizeofOperand rules start tokens { s with position := s.position + 1 } = .ok id s') :
    ∃ kinds, Consumes tokens s kinds s' ∧ Spelled s'.arenas id kinds 14 := by
  have consumed := Consumes.of_neutral (sizeofOperand_neutral neutral) run
  obtain ⟨type, middle, looked, run⟩ := bind_ok run
  obtain ⟨answer, rfl, -⟩ := atParenthesizedType_ok looked
  cases type with
  | true =>
      have opens := of_decide_eq_true (Bool.and_eq_true_iff.mp answer.symm).1
      have run := advance_then opens (by simp) run
      obtain ⟨type, middle, -, run⟩ := bind_ok run
      obtain ⟨-, run⟩ := expect_then (by simp) run
      obtain ⟨-, -, node⟩ := (Consumes.refl tokens _).spannedExpr run
      refine ⟨_, .cons there (by simp) consumed, .typed node fun expr same => ?_⟩
      simp [Expr.typeOperand, same]
  | false =>
      obtain ⟨operand, middle, read, run⟩ := bind_ok run
      obtain ⟨kinds, consumed, spelled⟩ := spells.unary _ _ _ read
      obtain ⟨whole, keeps, node⟩ := (Consumes.cons there (by simp) consumed).spannedExpr run
      refine ⟨_, whole, .unary node (spelled.mono keeps) (fun tree same => ?_) (Nat.le_refl _)⟩
      rw [Tree.kinds_prefix rfl, same]
      rfl

theorem unary_spells (neutral : rules.AllNeutral tokens) (spells : rules.AllSpell tokens) :
    Spells tokens 14 (unary rules) := by
  intro s id s' run
  have postfixed (run : (primary rules >>= suffixed rules) tokens s = .ok id s') :
      ∃ kinds, Consumes tokens s kinds s' ∧ Spelled s'.arenas id kinds 14 := by
    obtain ⟨kinds, consumed, spelled⟩ := postfix_spells neutral spells _ _ _ run
    exact ⟨kinds, consumed, spelled.weaken (by omega)⟩
  obtain ⟨start, run⟩ := look_then here_observes run
  obtain ⟨kind, there, run⟩ := peek_then run
  split at run
  · next mark =>
      cases found : prefixOp? mark with
      | none =>
          rw [found] at run
          exact postfixed run
      | some op =>
          rw [found] at run
          have run := advance_then there (by simp) run
          obtain ⟨operand, middle, read, run⟩ := bind_ok run
          obtain ⟨kinds, consumed, spelled⟩ := prefixOperand_spells spells found _ _ _ read
          obtain ⟨whole, keeps, node⟩ := (Consumes.cons there (by simp) consumed).spannedExpr run
          obtain ⟨level, writes⟩ := prefixOp?_writes found
          refine ⟨_, whole, .unary node (spelled.mono keeps) (fun tree same => ?_) ?_⟩
          · rw [Tree.kinds_prefix level, writes, same]
          · exact Nat.le_of_eq level.symm
  · have run := advance_then there (by simp) run
    exact sizeofOperand_spells neutral spells there run
  · exact postfixed run

/-- A cast has a type; so has a compound literal, whatever its suffixes are. -/
theorem cast_spells (neutral : rules.AllNeutral tokens) (spells : rules.AllSpell tokens) :
    Spells tokens 13 (cast rules) := by
  intro s id s' run
  have whole := Consumes.of_neutral (cast_neutral neutral) run
  obtain ⟨type, middle, looked, run⟩ := bind_ok run
  obtain ⟨answer, rfl, -⟩ := atParenthesizedType_ok looked
  cases type with
  | false =>
      obtain ⟨kinds, consumed, spelled⟩ := unary_spells neutral spells _ _ _ run
      exact ⟨kinds, consumed, spelled.weaken (by omega)⟩
  | true =>
      have opens := of_decide_eq_true (Bool.and_eq_true_iff.mp answer.symm).1
      obtain ⟨start, run⟩ := look_then here_observes run
      have run := advance_then opens (by simp) run
      obtain ⟨type, closing, named, run⟩ := bind_ok run
      obtain ⟨closes, run⟩ := expect_then (by simp) run
      obtain ⟨initStart, run⟩ := look_then here_observes run
      obtain ⟨brace, run⟩ | ⟨-, run⟩ := accept_then (by simp) run
      · obtain ⟨items, last, listed, run⟩ := bind_ok run
        obtain ⟨span, run⟩ := look_then spanFrom_observes run
        obtain ⟨init, placed, added, run⟩ := bind_ok run
        obtain ⟨span, run⟩ := look_then spanFrom_observes run
        obtain ⟨literal, made, pushed, run⟩ := bind_ok run
        have front := Consumes.cons opens (by simp)
          ((Consumes.of_neutral neutral.typeName named).trans
            (.cons closes (by simp) (.cons brace (by simp) ((Consumes.of_neutral
              neutral.initializers listed).trans (.of_neutral .addInit added)))))
        obtain ⟨front, -, node⟩ := front.addExpr pushed
        have typed (kinds : List Kind) : Spelled made.arenas literal kinds 15 :=
          .typed node fun expr same => by simp [Expr.typeOperand, same]
        obtain ⟨more, rest, spelled⟩ := suffixed_extends spells run _ (typed _)
        exact ⟨_, front.trans rest, spelled.weaken (by omega)⟩
      · obtain ⟨operand, last, -, run⟩ := bind_ok run
        obtain ⟨-, -, node⟩ := (Consumes.refl tokens _).spannedExpr run
        exact ⟨_, whole, .typed node fun expr same => by simp [Expr.typeOperand, same]⟩

/-! ## Binary operators, conditional, assignment, comma -/

theorem binaryOp?_writes {mark : Punctuator} {op : BinaryOp} (found : binaryOp? mark = some op) :
    op ≠ .index ∧ op.mark = mark := by
  cases mark <;> cases found <;> exact ⟨by decide, rfl⟩

/-- The tiers of the operators that associate to the left, against their levels. -/
theorem tier_level {op : BinaryOp} (inTier : 0 < op.tier) :
    op.level = 13 - op.tier ∧ op.leftLevel = 13 - op.tier ∧ op.rightLevel = 14 - op.tier := by
  cases op <;> first | exact ⟨rfl, rfl, rfl⟩ | cases inTier

theorem isAssignment_level {op : BinaryOp} (same : op.isAssignment = true) :
    op.level = 1 ∧ op.leftLevel = 2 ∧ op.rightLevel = 1 := by
  cases op <;> cases same <;> exact ⟨rfl, rfl, rfl⟩

theorem operatorAt_then {β : Type} {admits : BinaryOp → Bool} {next : Option BinaryOp → Parse β}
    {value : β} (run : (operatorAt admits >>= next) tokens s = .ok value s') :
    next none tokens s = .ok value s' ∨ ∃ mark op, tokens.kind s.position = .punctuator mark ∧
      binaryOp? mark = some op ∧ admits op = true ∧ next (some op) tokens s = .ok value s' := by
  obtain ⟨found, middle, looked, rest⟩ := bind_ok run
  obtain ⟨same, -, there⟩ := operatorAt_ok looked
  rw [same] at rest
  cases found with
  | none => exact .inl rest
  | some op =>
      obtain ⟨mark, marked, writes, admitted⟩ := there op rfl
      exact .inr ⟨mark, op, marked, writes, admitted, rest⟩

theorem joined_spelled {op : BinaryOp} {left right : ExprId} {first second : List Kind}
    {mark : Punctuator} (writes : binaryOp? mark = some op)
    (consumes : Consumes tokens s kinds middle)
    (before : Spelled middle.arenas left first op.leftLevel)
    (behind : Spelled middle.arenas right second op.rightLevel)
    (run : joined op left right tokens middle = .ok id s') :
    Consumes tokens s kinds s' ∧
      Spelled s'.arenas id (first ++ .punctuator mark :: second) op.level := by
  obtain ⟨span, run⟩ := look_then exprSpan_observes run
  obtain ⟨span, run⟩ := look_then exprSpan_observes run
  obtain ⟨whole, keeps, node⟩ := consumes.addExpr run
  obtain ⟨infixed, rfl⟩ := binaryOp?_writes writes
  refine ⟨whole, .binary node (before.mono keeps) (behind.mono keeps) ?_ (Nat.le_refl _)⟩
  intro one other same equal
  rw [Tree.kinds_infix infixed, same, equal]

/-- One round of a chain: an operator and its right operand, if they follow. -/
def chainRound (admits : BinaryOp → Bool) (operand : Parse ExprId) (left : ExprId) :
    Parse (Option ExprId) := do
  match ← operatorAt admits with
  | none => return none
  | some op =>
    Parse.advance
    let right ← operand
    some <$> joined op left right

theorem chainRound_extends {admits : BinaryOp → Bool} {operand : Parse ExprId} {level : Nat}
    (spells : Spells tokens (level + 1) operand)
    (admitted : ∀ op, admits op = true →
      op.level = level ∧ op.leftLevel = level ∧ op.rightLevel = level + 1)
    {left : ExprId} {next : Option ExprId}
    (run : chainRound admits operand left tokens s = .ok next s') :
    (next = none ∧ s' = s) ∨ ∃ id, next = some id ∧ Extends tokens level left s id s' := by
  obtain run | ⟨mark, op, there, writes, admits, run⟩ := operatorAt_then run
  · exact .inl (pure_ok run)
  · obtain ⟨same, leftLevel, rightLevel⟩ := admitted op admits
    have run := advance_then there (by simp) run
    obtain ⟨right, middle, read, run⟩ := bind_ok run
    obtain ⟨id, join, rfl⟩ := map_ok run
    obtain ⟨more, consumed, behind⟩ := spells _ _ _ read
    refine .inr ⟨id, rfl, fun kinds spelled => ?_⟩
    obtain ⟨whole, joins⟩ := joined_spelled writes (.cons there (by simp) consumed)
      (leftLevel ▸ spelled.mono consumed.keeps) (rightLevel ▸ behind) join
    exact ⟨_, whole, same ▸ joins⟩

theorem chain_spells {admits : BinaryOp → Bool} {operand : Parse ExprId} {level : Nat}
    (spells : Spells tokens (level + 1) operand)
    (admitted : ∀ op, admits op = true →
      op.level = level ∧ op.leftLevel = level ∧ op.rightLevel = level + 1) :
    Spells tokens level (chain admits operand) := by
  intro s id s' run
  obtain ⟨first, middle, read, run⟩ := bind_ok run
  obtain ⟨kinds, consumed, spelled⟩ := spells _ _ _ read
  have rounds : Extends tokens level first middle id s' :=
    iterate_extends (fun _ _ _ _ round => chainRound_extends spells admitted round) run
  obtain ⟨more, rest, whole⟩ := rounds kinds (spelled.weaken (Nat.le_succ _))
  exact ⟨kinds ++ more, consumed.trans rest, whole⟩

theorem binary_spells (neutral : rules.AllNeutral tokens) (spells : rules.AllSpell tokens)
    {tier : Nat} (le : tier ≤ 10) : Spells tokens (13 - tier) (binary rules tier) := by
  induction tier with
  | zero => exact cast_spells neutral spells
  | succ tier ih =>
      have operand : Spells tokens (13 - (tier + 1) + 1) (binary rules tier) := by
        have same : 13 - (tier + 1) + 1 = 13 - tier := by omega
        rw [same]
        exact ih (by omega)
      refine chain_spells operand fun op admitted => ?_
      have same : op.tier = tier + 1 := of_decide_eq_true admitted
      have inTier : 0 < op.tier := by omega
      obtain ⟨level, leftLevel, rightLevel⟩ := tier_level inTier
      rw [same] at level leftLevel rightLevel
      exact ⟨level, leftLevel, rightLevel.trans (by omega)⟩

theorem conditional_spells (neutral : rules.AllNeutral tokens) (spells : rules.AllSpell tokens) :
    Spells tokens 2 (conditional rules) := by
  intro s id s' run
  obtain ⟨start, run⟩ := look_then here_observes run
  obtain ⟨condition, middle, read, run⟩ := bind_ok run
  obtain ⟨kinds, consumed, tested⟩ := binary_spells neutral spells (Nat.le_refl 10) _ _ _ read
  obtain ⟨question, run⟩ | ⟨-, run⟩ := accept_then (by simp) run
  · obtain ⟨first, before, read, run⟩ := bind_ok run
    obtain ⟨one, yes, whenTrue⟩ := spells.expression _ _ _ read
    obtain ⟨colon, run⟩ := expect_then (by simp) run
    obtain ⟨second, behind, read, run⟩ := bind_ok run
    obtain ⟨other, no, whenFalse⟩ := spells.conditional _ _ _ read
    have rest := Consumes.cons question (by simp) (yes.trans (.cons colon (by simp) no))
    obtain ⟨whole, keeps, node⟩ := (consumed.trans rest).spannedExpr run
    refine ⟨_, whole, .cond node (tested.mono (rest.keeps.trans keeps)) ?_ (whenFalse.mono keeps)⟩
    exact whenTrue.mono (no.keeps.trans keeps)
  · obtain ⟨rfl, rfl⟩ := pure_ok run
    exact ⟨kinds, consumed, tested.weaken (by omega)⟩

theorem assignment_spells (neutral : rules.AllNeutral tokens) (spells : rules.AllSpell tokens) :
    Spells tokens 1 (assignment rules) := by
  intro s id s' run
  obtain ⟨left, middle, read, run⟩ := bind_ok run
  obtain ⟨kinds, consumed, spelled⟩ := conditional_spells neutral spells _ _ _ read
  obtain run | ⟨mark, op, there, writes, assigns, run⟩ := operatorAt_then run
  · obtain ⟨rfl, rfl⟩ := pure_ok run
    exact ⟨kinds, consumed, spelled.weaken (by omega)⟩
  · obtain ⟨level, leftLevel, rightLevel⟩ := isAssignment_level assigns
    have run := advance_then there (by simp) run
    obtain ⟨right, last, read, run⟩ := bind_ok run
    obtain ⟨more, rest, behind⟩ := spells.assignment _ _ _ read
    have rest := Consumes.cons there (by simp) rest
    obtain ⟨whole, joins⟩ := joined_spelled writes (consumed.trans rest)
      (leftLevel ▸ spelled.mono rest.keeps) (rightLevel ▸ behind) run
    exact ⟨_, whole, level ▸ joins⟩

theorem expression_spells (neutral : rules.AllNeutral tokens) (spells : rules.AllSpell tokens) :
    Spells tokens 0 (expression rules) := by
  intro s id s' run
  obtain ⟨start, run⟩ := look_then here_observes run
  obtain ⟨items, middle, listed, run⟩ := bind_ok run
  obtain ⟨some, kinds, consumed, spelled⟩ :=
    separated_spelled (assignment_spells neutral spells) listed
  match items with
  | [] => exact absurd rfl some
  | [only] =>
      obtain ⟨rfl, rfl⟩ := pure_ok run
      exact ⟨kinds, consumed, spelled.single.weaken (Nat.zero_le _)⟩
  | first :: second :: others =>
      obtain ⟨whole, keeps, node⟩ := consumed.spannedExpr run
      exact ⟨kinds, whole, .comma node (by simp) (spelled.mono keeps)⟩

theorem Rules.nested_spells (depth : Nat) : (Rules.nested depth).AllSpell tokens := by
  induction depth with
  | zero => constructor <;> intro s id s' run <;> cases run
  | succ depth ih =>
      have neutral : (Rules.nested depth).AllNeutral tokens := Rules.nested_neutral depth
      exact ⟨expression_spells neutral ih, assignment_spells neutral ih,
        conditional_spells neutral ih, cast_spells neutral ih, unary_spells neutral ih⟩

/-- Where an expression without types is read, a canonical tree stands there that is
written with the tokens that have been consumed. -/
theorem expression_faithful (tokens : Tokens) (depth : Nat) {s s' : State} {id : ExprId}
    (run : expression (Rules.nested depth) tokens s = .ok id s')
    (typeless : s'.arenas.Typeless id) :
    s.position ≤ s'.position ∧ ∃ tree : Tree, s'.arenas.Stands id tree ∧
      tree.kinds = tokens.between s.position s'.position ∧ tree.Canonical := by
  obtain ⟨kinds, consumed, spelled⟩ :=
    expression_spells (Rules.nested_neutral depth) (Rules.nested_spells depth) _ _ _ run
  obtain ⟨tree, stands, written, canonical, -⟩ := spelled typeless
  exact ⟨consumed.le, tree, stands, written.trans consumed.stretch.symm, canonical⟩

def choiceTokens : Tokens :=
  (Token.Reading.ofSource "a = *p++ ? f(x, 1) : b[2];").tokens.toArray

theorem expression_faithful_choice :
    ∃ id s' tree, expression (Rules.nested 18) choiceTokens {} = .ok id s' ∧
      s'.position = 17 ∧ s'.arenas.Stands id tree ∧
      tree.kinds = choiceTokens.between 0 17 ∧ tree.Canonical := by
  have shape : (match expression (Rules.nested 18) choiceTokens {} with
      | .ok _ s' => decide (s'.position = 17 ∧
          ∀ expr ∈ s'.arenas.exprs, expr.typeOperand = none ∧ expr.init = none)
      | .error _ _ => false) = true := by
    decide +kernel
  cases outcome : expression (Rules.nested 18) choiceTokens {} with
  | error cause s' =>
      rw [outcome] at shape
      cases shape
  | ok id s' =>
      rw [outcome] at shape
      obtain ⟨position, typeless⟩ := of_decide_eq_true shape
      obtain ⟨-, tree, stands, written, canonical⟩ :=
        expression_faithful choiceTokens 18 outcome (.of_all typeless id)
      rw [position] at written
      exact ⟨id, s', tree, rfl, position, stands, written, canonical⟩

end SyntaxGraph.Grammar
