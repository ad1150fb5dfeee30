import SyntaxGraph.Grammar.Expression
import SyntaxGraph.Proofs.Grammar.Rules

/-!
# What reading expressions keeps up

Every expression consumes a token of its own before it goes through the rules one level
of nesting further in, so sound rules from a limit on make expressions that are sound
from the token before the limit on.
-/

set_option autoImplicit false

namespace SyntaxGraph.Grammar

open Token (Kind Keyword Punctuator)

variable {tokens : Tokens} {rules : Rules} {limit position : Nat} {nodes : List NodeRef}

/-- An expression may end at the token consumed last. -/
theorem spannedExpr_yields {start : Location} {form : Expr.Form}
    (inside : form.references ⊆ nodes) :
    Yields tokens position nodes (do Parse.addExpr form (← Parse.spanFrom start)) 0 := by
  apply spanFrom_reads.bind
  intro span
  exact addExpr_yields inside

theorem offeredExpr_reads {start : Location} {form : Expr.Form} {reached : Nat}
    {others : List NodeRef} (le : position + 1 ≤ reached) (inside : form.references ⊆ others)
    (kept : nodes ⊆ others) :
    Reads tokens (Known reached others)
      (do some <$> Parse.addExpr form (← Parse.spanFrom start)) (Offered position nodes) := by
  apply spanFrom_reads.bind
  intro span
  exact .offer (addExpr_yields inside) le kept

/-! ## Primary expressions and suffixes -/

theorem atParenthesizedType_reads :
    Reads tokens (Known position nodes) atParenthesizedType fun found =>
      bif found then At tokens (.punctuator .parenOpen) position nodes
      else Known position nodes := by
  apply at?_reads.bind
  intro opens
  apply scopes_reads.bind
  intro scopes
  refine peekNext_reads.bind fun next => .pure fun s known => ?_
  cases opens with
  | false => exact known
  | true =>
      cases startsTypeName scopes next with
      | false => exact At.toKnown known
      | true => exact known

theorem argumentList_yields (sound : rules.SoundFrom tokens limit) (le : limit ≤ position) :
    Yields tokens position nodes (argumentList rules) 0 := by
  apply at?_keeps.bind
  intro closed
  split
  · exact .give (Nat.le_refl _) (by simp)
  · exact .last (separated_yields fun _ _ further _ => sound.assignment (by omega)) (by omega)
      (List.Subset.refl _)

theorem arguments_yields (sound : rules.SoundFrom tokens limit) (le : limit ≤ position) :
    Yields tokens position nodes (arguments rules) 1 := by
  apply (argumentList_yields sound le).bind
  intro found
  exact expectMark_reads.bind fun _ => .give (by omega) (List.Subset.refl _)

theorem suffixRound_reads (sound : rules.SoundFrom tokens limit) (le : limit ≤ position + 1)
    {start : Location} {operand : ExprId} (inside : references operand ⊆ nodes) :
    Reads tokens (Known position nodes) (suffixRound rules start operand)
      (Offered position nodes) := by
  apply peek_reads.bind
  intro kind
  split
  · refine (advance_reads (by simp)).bind fun _ => ?_
    apply (sound.expression le).bind
    intro index
    refine expectMark_reads.bind fun _ => ?_
    exact offeredExpr_reads (by omega) (by grind) (by simp)
  · refine (advance_reads (by simp)).bind fun _ => ?_
    apply (arguments_yields sound le).bind
    intro found
    exact offeredExpr_reads (by omega) (by grind) (by simp)
  · refine (advance_reads (by simp)).bind fun _ => ?_
    apply identifier_yields.bind
    intro field
    exact offeredExpr_reads (by omega) inside (by simp)
  · refine (advance_reads (by simp)).bind fun _ => ?_
    apply identifier_yields.bind
    intro field
    exact offeredExpr_reads (by omega) inside (by simp)
  · refine (advance_reads (by simp)).bind fun _ => ?_
    exact offeredExpr_reads (by omega) inside (by simp)
  · refine (advance_reads (by simp)).bind fun _ => ?_
    exact offeredExpr_reads (by omega) inside (by simp)
  · exact .stay (.nothing (Nat.le_refl _) (List.Subset.refl _))

theorem suffixed_yields (sound : rules.SoundFrom tokens limit) (le : limit ≤ position + 1)
    {operand : ExprId} (inside : references operand ⊆ nodes) :
    Yields tokens position nodes (suffixed rules operand) 0 := by
  apply (exprSpan_reads (by simpa using inside)).bind
  intro span
  refine iterate_yields (fun value place known further owned within => ?_) inside
  exact suffixRound_reads sound (by omega) within

/-- Only a token that is no string is no piece. -/
theorem stringPiece?_reads {kind : Kind} :
    Reads tokens (At tokens kind position nodes) stringPiece? fun piece s =>
      (piece = none → ∀ text, kind ≠ .string text) ∧
        Known (position + piece.isSome.toNat) nodes s := by
  refine peek_again.bind fun found => .assuming fun same => ?_
  subst same
  split
  · exact (advance_reads (by simp)).bind fun _ => .pure fun _ known => ⟨nofun, known⟩
  · next other => exact .pure fun _ known => ⟨fun _ => other, known.toKnown⟩

/-- The current token, which is a string, is one of the pieces. -/
theorem pieces_reads {text : String} :
    Reads tokens (At tokens (.string text) position nodes) (Parse.many stringPiece?)
      fun _ => Known (position + 1) nodes := by
  let before : List String → State → Prop := fun _ s =>
    At tokens (.string text) position nodes s ∨ Known (position + 1) nodes s
  refine .map ((iterate_reads before (fun _ => Known (position + 1) nodes) ?_ []).weaken
    (fun _ known => .inl known) fun _ _ _ known => known)
  intro pieces place
  refine .map ?_
  rintro s sound ⟨rfl, known | known⟩
  · have here : At tokens (.string text) s.position nodes s :=
      ⟨⟨Nat.le_refl _, known.owned⟩, known.kind_eq⟩
    refine (stringPiece?_reads s sound here).mono fun piece s' _ answer => ?_
    obtain ⟨whole, reached⟩ := answer
    cases piece with
    | none => exact absurd rfl (whole rfl text)
    | some piece =>
        have further := known.position_le
        have behind : Known (position + 1) nodes s' :=
          reached.mono (Nat.succ_le_succ further) (List.Subset.refl _)
        exact ⟨reached.position_le, .inr behind⟩
  · have here : At tokens (tokens.kind s.position) s.position nodes s :=
      ⟨⟨Nat.le_refl _, known.owned⟩, rfl⟩
    refine (stringPiece?_reads s sound here).mono fun piece s' _ answer => ?_
    obtain ⟨whole, reached⟩ := answer
    have further := known.position_le
    cases piece with
    | none => exact reached.mono further (List.Subset.refl _)
    | some piece =>
        have behind : Known (position + 1) nodes s' :=
          reached.mono (Nat.le_succ_of_le further) (List.Subset.refl _)
        exact ⟨reached.position_le, .inr behind⟩

theorem memberPathRound_reads (sound : rules.SoundFrom tokens limit) (le : limit ≤ position + 1)
    {start : Location} {path : ExprId} (inside : references path ⊆ nodes) :
    Reads tokens (Known position nodes) (memberPathRound rules start path)
      (Offered position nodes) := by
  apply peek_reads.bind
  intro kind
  split
  · refine (advance_reads (by simp)).bind fun _ => ?_
    apply identifier_yields.bind
    intro field
    exact offeredExpr_reads (by omega) inside (by simp)
  · refine (advance_reads (by simp)).bind fun _ => ?_
    apply (sound.expression le).bind
    intro index
    refine expectMark_reads.bind fun _ => ?_
    exact offeredExpr_reads (by omega) (by grind) (by simp)
  · exact .stay (.nothing (Nat.le_refl _) (List.Subset.refl _))

theorem memberPath_yields (sound : rules.SoundFrom tokens limit) (le : limit ≤ position + 1) :
    Yields tokens position nodes (memberPath rules) 1 := by
  apply here_reads.bind
  intro start
  apply identifier_yields.bind
  intro name
  apply spanFrom_reads.bind
  intro span
  apply (addExpr_yields (by simp)).bind
  intro first
  refine .last (iterate_yields (fun path place known further owned within => ?_) (by simp))
    (by omega) (by simp)
  exact memberPathRound_reads sound (by omega) within

theorem primary_yields (sound : rules.SoundFrom tokens limit) (le : limit ≤ position + 1) :
    Yields tokens position nodes (primary rules) 1 := by
  apply here_reads.bind
  intro start
  apply peek_reads.bind
  intro kind
  split
  · refine (advance_reads (by simp)).bind fun _ => ?_
    exact .last (spannedExpr_yields (by simp)) (by omega) (by simp)
  · refine (advance_reads (by simp)).bind fun _ => ?_
    exact .last (spannedExpr_yields (by simp)) (by omega) (by simp)
  · refine (advance_reads (by simp)).bind fun _ => ?_
    exact .last (spannedExpr_yields (by simp)) (by omega) (by simp)
  · apply pieces_reads.bind
    intro pieces
    exact .last (spannedExpr_yields (by simp)) (by omega) (by simp)
  · refine (advance_reads (by simp)).bind fun _ => ?_
    apply (sound.expression le).bind
    intro inner
    refine expectMark_reads.bind fun _ => ?_
    exact .last (spannedExpr_yields (by simp)) (by omega) (by simp)
  · refine (advance_reads (by simp)).bind fun _ => ?_
    refine expectMark_reads.bind fun _ => ?_
    apply (sound.typeName (by omega)).bind
    intro type
    refine expectMark_reads.bind fun _ => ?_
    apply (memberPath_yields sound (by omega)).bind
    intro path
    refine expectMark_reads.bind fun _ => ?_
    exact .last (spannedExpr_yields (by simp)) (by omega) (by simp)
  · refine (advance_reads (by simp)).bind fun _ => ?_
    refine expectMark_reads.bind fun _ => ?_
    apply (sound.assignment (by omega)).bind
    intro list
    refine expectMark_reads.bind fun _ => ?_
    apply (sound.typeName (by omega)).bind
    intro type
    refine expectMark_reads.bind fun _ => ?_
    exact .last (spannedExpr_yields (by simp)) (by omega) (by simp)
  · exact .fail rfl

/-! ## Unary expressions and casts -/

theorem sizeofOperand_yields (sound : rules.SoundFrom tokens limit) (le : limit ≤ position)
    {start : Location} : Yields tokens position nodes (sizeofOperand rules start) 1 := by
  refine atParenthesizedType_reads.bind fun opens => .branch ?_ ?_
  · refine (advance_reads (by simp)).bind fun _ => ?_
    apply (sound.typeName (by omega)).bind
    intro type
    refine expectMark_reads.bind fun _ => ?_
    exact .last (spannedExpr_yields (by simp)) (by omega) (by simp)
  · apply (sound.unary le).bind
    intro operand
    exact .last (spannedExpr_yields (by simp)) (by omega) (by simp)

theorem prefixOperand_yields (sound : rules.SoundFrom tokens limit) (le : limit ≤ position)
    (op : UnaryOp) : Yields tokens position nodes (prefixOperand rules op) 1 := by
  cases op with
  | preInc | preDec => exact sound.unary le
  | _ => exact sound.cast le

theorem postfix_yields (sound : rules.SoundFrom tokens limit) (le : limit ≤ position + 1) :
    Yields tokens position nodes (primary rules >>= suffixed rules) 1 := by
  apply (primary_yields sound le).bind
  intro operand
  exact .last (suffixed_yields sound (by omega) (by simp)) (by omega) (by simp)

theorem unary_yields (sound : rules.SoundFrom tokens limit) (le : limit ≤ position + 1) :
    Yields tokens position nodes (unary rules) 1 := by
  apply here_reads.bind
  intro start
  apply peek_reads.bind
  intro kind
  split
  · split
    · refine (advance_reads (by simp)).bind fun _ => ?_
      apply (prefixOperand_yields sound le _).bind
      intro operand
      exact .last (spannedExpr_yields (by simp)) (by omega) (by simp)
    · exact .stay (postfix_yields sound le)
  · refine (advance_reads (by simp)).bind fun _ => ?_
    exact .last (sizeofOperand_yields sound le) (by omega) (List.Subset.refl _)
  · exact .stay (postfix_yields sound le)

theorem cast_yields (sound : rules.SoundFrom tokens limit) (le : limit ≤ position + 1) :
    Yields tokens position nodes (cast rules) 1 := by
  refine atParenthesizedType_reads.bind fun opens => .branch ?_ (unary_yields sound le)
  apply here_reads.bind
  intro start
  refine (advance_reads (by simp)).bind fun _ => ?_
  apply (sound.typeName (by omega)).bind
  intro type
  refine expectMark_reads.bind fun _ => ?_
  apply here_reads.bind
  intro initStart
  refine acceptMark_reads.bind fun opens => .branch ?_ ?_
  · apply (sound.initializers (by omega)).bind
    intro items
    apply spanFrom_reads.bind
    intro initSpan
    apply (addInit_yields (by simp)).bind
    intro init
    apply spanFrom_reads.bind
    intro span
    apply (addExpr_yields (by simp)).bind
    intro literal
    exact .last (suffixed_yields sound (by omega) (by simp)) (by omega) (by grind)
  · apply (sound.cast (by omega)).bind
    intro operand
    exact .last (spannedExpr_yields (by simp)) (by omega) (by simp)

/-! ## Binary operators, conditional, assignment, comma -/

/-- An operator is found at its mark. -/
theorem operatorAt_reads {admits : BinaryOp → Bool} :
    Reads tokens (Known position nodes) (operatorAt admits) fun op =>
      match op with
      | none => Known position nodes
      | some _ => fun s => ∃ mark, At tokens (.punctuator mark) position nodes s := by
  apply peek_reads.bind
  intro kind
  split
  · next mark =>
      refine .pure fun s known => ?_
      cases (binaryOp? mark).filter admits with
      | none => exact known.toKnown
      | some op => exact ⟨mark, known⟩
  · exact .pure fun _ known => known.toKnown

theorem joined_yields {op : BinaryOp} {left right : ExprId}
    (leftInside : references left ⊆ nodes) (rightInside : references right ⊆ nodes) :
    Yields tokens position nodes (joined op left right) 0 := by
  apply (exprSpan_reads (by grind)).bind
  intro leftSpan
  apply (exprSpan_reads (by grind)).bind
  intro rightSpan
  exact addExpr_yields (by grind)

theorem chain_yields {admits : BinaryOp → Bool} {operand : Parse ExprId}
    (each : ∀ place known, position ≤ place → nodes ⊆ known →
      Yields tokens place known operand 1) :
    Yields tokens position nodes (chain admits operand) 1 := by
  apply (each position nodes (Nat.le_refl _) (List.Subset.refl _)).bind
  intro first
  refine .last (iterate_yields (fun left place known further owned within => ?_) ?_) ?_ ?_
  · apply operatorAt_reads.bind
    intro op
    cases op with
    | none => exact .nothing (Nat.le_refl _) (List.Subset.refl _)
    | some op =>
        refine .forSome fun mark => ?_
        refine (advance_reads (by simp)).bind fun _ => ?_
        have rightOperand : Yields tokens (place + 1) known operand 1 :=
          each (place + 1) known (by omega)
            (List.Subset.trans (List.subset_append_right _ _) owned)
        apply rightOperand.bind
        intro right
        exact .offer (joined_yields (by grind) (by simp)) (by omega) (by simp)
  · grind
  · omega
  · grind

theorem binary_yields (sound : rules.SoundFrom tokens limit) (le : limit ≤ position + 1)
    (tier : Nat) : Yields tokens position nodes (binary rules tier) 1 := by
  induction tier generalizing position nodes with
  | zero => exact cast_yields sound le
  | succ tier ih => exact chain_yields fun place known further _ => ih (by omega)

theorem conditional_yields (sound : rules.SoundFrom tokens limit) (le : limit ≤ position + 1) :
    Yields tokens position nodes (conditional rules) 1 := by
  apply here_reads.bind
  intro start
  apply (binary_yields sound le 10).bind
  intro condition
  refine acceptMark_reads.bind fun asks => .branch ?_ ?_
  · apply (sound.expression (by omega)).bind
    intro first
    refine expectMark_reads.bind fun _ => ?_
    apply (sound.conditional (by omega)).bind
    intro second
    exact .last (spannedExpr_yields (by simp)) (by omega) (by grind)
  · exact .give (Nat.le_refl _) (List.Subset.refl _)

theorem assignment_yields (sound : rules.SoundFrom tokens limit) (le : limit ≤ position + 1) :
    Yields tokens position nodes (assignment rules) 1 := by
  apply (conditional_yields sound le).bind
  intro left
  apply operatorAt_reads.bind
  intro op
  cases op with
  | none => exact .give (Nat.le_refl _) (List.Subset.refl _)
  | some op =>
      refine .forSome fun mark => ?_
      refine (advance_reads (by simp)).bind fun _ => ?_
      apply (sound.assignment (by omega)).bind
      intro right
      exact .last (joined_yields (by simp) (by simp)) (by omega) (by simp)

theorem expression_yields (sound : rules.SoundFrom tokens limit) (le : limit ≤ position + 1) :
    Yields tokens position nodes (expression rules) 1 := by
  apply here_reads.bind
  intro start
  have separated : Yields tokens position nodes (Parse.separated (assignment rules)) 1 :=
    separated_yields fun _ _ further _ => assignment_yields sound (by omega)
  apply separated.bind
  intro items
  split
  · exact .give (Nat.le_refl _) (by simp)
  · exact .last (spannedExpr_yields (by simp)) (by omega) (by simp)

end SyntaxGraph.Grammar
