import SyntaxGraph.Grammar.Statement
import SyntaxGraph.Proofs.Grammar.Declaration

/-!
# What reading statements keeps up

Each item of a block consumes a token, a label and a semicolon among them, so a block
ends wherever the file does.
-/

set_option autoImplicit false

namespace SyntaxGraph.Grammar

open Token (Kind Keyword Punctuator)

variable {tokens : Tokens} {rules : Rules} {limit position : Nat} {nodes : List NodeRef}

instance : Refers Label.Form := ⟨Label.Form.references⟩

instance : Refers Stmt.Form := ⟨Stmt.Form.references⟩

@[simp, grind =] theorem references_labelForm (form : Label.Form) :
    references form = form.references := rfl

@[simp, grind =] theorem references_stmtForm (form : Stmt.Form) :
    references form = form.references := rfl

/-! ## Labels -/

theorem labelForm?_reads (sound : rules.SoundFrom tokens limit) (le : limit ≤ position + 1) :
    Reads tokens (Known position nodes) (labelForm? rules) (Offered position nodes) := by
  apply peek_reads.bind
  intro kind
  split
  · apply peekNext_reads.bind
    intro next
    split
    · refine (advance_reads (by simp)).bind fun _ => ?_
      exact advance_keeps.bind fun _ => .something (Nat.le_refl _) (by simp)
    · exact .stay (.nothing (Nat.le_refl _) (List.Subset.refl _))
  · refine (advance_reads (by simp)).bind fun _ => ?_
    apply (conditional_yields sound (by omega)).bind
    intro value
    exact expectMark_reads.bind fun _ => .something (by omega) (by simp)
  · refine (advance_reads (by simp)).bind fun _ => ?_
    exact expectMark_reads.bind fun _ => .something (by omega) (by simp)
  · exact .stay (.nothing (Nat.le_refl _) (List.Subset.refl _))

theorem label?_reads (sound : rules.SoundFrom tokens limit) (le : limit ≤ position + 1) :
    Reads tokens (Known position nodes) (label? rules) (Offered position nodes) := by
  apply here_reads.bind
  intro start
  apply (labelForm?_reads sound le).bind
  intro form
  cases form with
  | none => exact .nothing (Nat.le_refl _) (List.Subset.refl _)
  | some form =>
      apply spanFrom_reads.bind
      intro span
      exact .offer (addLabel_yields (by simp)) (by omega) (by simp)

/-! ## Blocks -/

theorem declarationStatements_yields (sound : rules.SoundFrom tokens limit)
    (le : limit ≤ position + 1) :
    Yields tokens position nodes (declarationStatements rules) 1 := by
  apply (declaration_yields sound le fun _ _ _ _ _ _ _ _ => .fail rfl).bind
  intro decls
  refine .last (mapM_yields fun decl member known owned => ?_) (by omega) (by simp)
  have inside := references_subset_of_mem member
  apply (declSpan_reads (by grind)).bind
  intro span
  exact .last (addStmt_yields (by grind)) (Nat.le_refl _) (List.Subset.refl _)

theorem blockItem?_reads (sound : rules.SoundFrom tokens limit) (le : limit ≤ position) :
    Reads tokens (Known position nodes) (blockItem? rules) (Offered position nodes) := by
  apply peek_reads.bind
  intro kind
  split
  · exact .stay (.nothing (Nat.le_refl _) (List.Subset.refl _))
  · exact .stay (.nothing (Nat.le_refl _) (List.Subset.refl _))
  · refine .stay ?_
    apply scopes_reads.bind
    intro scopes
    apply peekNext_reads.bind
    intro next
    split
    · exact .offer (declarationStatements_yields sound (by omega)) (Nat.le_refl _)
        (List.Subset.refl _)
    · apply (sound.statement le).bind
      intro only
      exact .something (Nat.le_refl _) (by simp)

theorem block_yields (sound : rules.SoundFrom tokens limit) (le : limit ≤ position + 1) :
    Yields tokens position nodes (block rules) 1 := by
  refine expectMark_reads.bind fun _ => ?_
  have inner : Yields tokens (position + 1) nodes
      (Parse.inScope (Parse.many (blockItem? rules))) 0 :=
    inScope_yields (many_yields fun _ _ further _ => blockItem?_reads sound (by omega))
  apply inner.bind
  intro items
  have flat := references_flatten_subset items
  exact expectMark_reads.bind fun _ => .give (by omega) (by grind)

/-! ## Statements by their keyword -/

theorem parenthesized_yields (sound : rules.SoundFrom tokens limit) (le : limit ≤ position + 1)
    {before after : String} :
    Yields tokens position nodes (parenthesized rules before after) 1 := by
  refine expectMark_reads.bind fun _ => ?_
  apply (expression_yields sound (by omega)).bind
  intro value
  exact expectMark_reads.bind fun _ => .give (by omega) (List.Subset.refl _)

theorem expressionUnless_yields (sound : rules.SoundFrom tokens limit)
    (le : limit ≤ position + 1) {stop : Punctuator} :
    Yields tokens position nodes (expressionUnless rules stop) 0 := by
  apply at?_keeps.bind
  intro stops
  split
  · exact .give (Nat.le_refl _) (by simp)
  · exact .map (.last (expression_yields sound le) (by omega) (List.Subset.refl _))

theorem elseBranch?_yields (sound : rules.SoundFrom tokens limit) (le : limit ≤ position) :
    Yields tokens position nodes (elseBranch? rules) 0 := by
  refine (accept_reads (by simp)).bind fun taken => .branch ?_ ?_
  · exact .map (.last (sound.statement (by omega)) (by omega) (List.Subset.refl _))
  · exact .give (Nat.le_refl _) (by simp)

theorem ifStatement_yields (sound : rules.SoundFrom tokens limit) (le : limit ≤ position) :
    Yields tokens position nodes (ifStatement rules) 0 := by
  apply (parenthesized_yields sound (by omega)).bind
  intro condition
  apply (sound.statement (by omega)).bind
  intro body
  apply (elseBranch?_yields sound (by omega)).bind
  intro otherwise
  exact .give (by omega) (by grind)

theorem whileStatement_yields (sound : rules.SoundFrom tokens limit) (le : limit ≤ position) :
    Yields tokens position nodes (whileStatement rules) 0 := by
  apply (parenthesized_yields sound (by omega)).bind
  intro condition
  apply (sound.statement (by omega)).bind
  intro body
  exact .give (by omega) (by simp)

theorem doStatement_yields (sound : rules.SoundFrom tokens limit) (le : limit ≤ position) :
    Yields tokens position nodes (doStatement rules) 0 := by
  apply (sound.statement le).bind
  intro body
  refine (expect_reads (by simp)).bind fun _ => ?_
  apply (parenthesized_yields sound (by omega)).bind
  intro condition
  exact expectMark_reads.bind fun _ => .give (by omega) (by simp)

theorem switchStatement_yields (sound : rules.SoundFrom tokens limit) (le : limit ≤ position) :
    Yields tokens position nodes (switchStatement rules) 0 := by
  apply (parenthesized_yields sound (by omega)).bind
  intro condition
  apply (sound.statement (by omega)).bind
  intro body
  exact .give (by omega) (by simp)

theorem forStart_yields (sound : rules.SoundFrom tokens limit) (le : limit ≤ position + 1) :
    Yields tokens position nodes (forStart rules) 0 := by
  apply scopes_reads.bind
  intro scopes
  refine peek_reads.bind fun kind => .stay ?_
  split
  · apply here_reads.bind
    intro start
    apply (specifiers_yields sound le).bind
    intro specifiers
    refine (declarator_declares sound (by omega) (by simp)).bind fun declarator =>
      .assuming fun named => ?_
    apply (initDeclarator_yields sound (by omega) (named rfl) (by simp)).bind
    intro decl
    apply at?_keeps.bind
    intro another
    dsimp only
    split
    · exact .refuse rfl
    · exact expectMark_reads.bind fun _ => .give (by omega) (by grind)
  · refine acceptMark_reads.bind fun empty => .branch ?_ ?_
    · exact .give (by omega) (by simp)
    · apply (expression_yields sound le).bind
      intro value
      exact expectMark_reads.bind fun _ => .give (by omega) (by simp)

theorem forClauses_yields (sound : rules.SoundFrom tokens limit) (le : limit ≤ position) :
    Yields tokens position nodes (forClauses rules) 0 := by
  refine (forStart_yields sound (by omega)).bind fun (pre, decl) => ?_
  apply (expressionUnless_yields sound (by omega)).bind
  intro condition
  refine expectMark_reads.bind fun _ => ?_
  apply (expressionUnless_yields sound (by omega)).bind
  intro post
  refine expectMark_reads.bind fun _ => ?_
  apply (sound.statement (by omega)).bind
  intro body
  exact .give (by omega) (by grind)

theorem forStatement_yields (sound : rules.SoundFrom tokens limit) (le : limit ≤ position) :
    Yields tokens position nodes (forStatement rules) 0 := by
  refine expectMark_reads.bind fun _ => ?_
  exact .last (inScope_yields (forClauses_yields sound (by omega))) (by omega)
    (List.Subset.refl _)

theorem returnStatement_yields (sound : rules.SoundFrom tokens limit) (le : limit ≤ position) :
    Yields tokens position nodes (returnStatement rules) 0 := by
  apply (expressionUnless_yields sound (by omega)).bind
  intro value
  exact expectMark_reads.bind fun _ => .give (by omega) (by simp)

theorem gotoStatement_yields : Yields tokens position nodes gotoStatement 0 := by
  apply identifier_yields.bind
  intro label
  exact expectMark_reads.bind fun _ => .give (by omega) (by simp)

theorem expressionStatement_yields (sound : rules.SoundFrom tokens limit)
    (le : limit ≤ position + 1) :
    Yields tokens position nodes (expressionStatement rules) 1 := by
  apply (expression_yields sound le).bind
  intro value
  exact expectMark_reads.bind fun _ => .give (by omega) (by simp)

theorem unlabeled_yields (sound : rules.SoundFrom tokens limit) (le : limit ≤ position + 1) :
    Yields tokens position nodes (unlabeled rules) 1 := by
  apply peek_reads.bind
  intro kind
  split
  · exact .stay (block_yields sound le)
  · exact (advance_reads (by simp)).bind fun _ => .give (Nat.le_refl _) (by simp)
  · refine (advance_reads (by simp)).bind fun _ => ?_
    exact .last (ifStatement_yields sound le) (by omega) (List.Subset.refl _)
  · refine (advance_reads (by simp)).bind fun _ => ?_
    exact .last (whileStatement_yields sound le) (by omega) (List.Subset.refl _)
  · refine (advance_reads (by simp)).bind fun _ => ?_
    exact .last (doStatement_yields sound le) (by omega) (List.Subset.refl _)
  · refine (advance_reads (by simp)).bind fun _ => ?_
    exact .last (forStatement_yields sound le) (by omega) (List.Subset.refl _)
  · refine (advance_reads (by simp)).bind fun _ => ?_
    exact .last (switchStatement_yields sound le) (by omega) (List.Subset.refl _)
  · refine (advance_reads (by simp)).bind fun _ => ?_
    exact .last (returnStatement_yields sound le) (by omega) (List.Subset.refl _)
  · refine (advance_reads (by simp)).bind fun _ => ?_
    exact expectMark_reads.bind fun _ => .give (by omega) (by simp)
  · refine (advance_reads (by simp)).bind fun _ => ?_
    exact expectMark_reads.bind fun _ => .give (by omega) (by simp)
  · refine (advance_reads (by simp)).bind fun _ => ?_
    exact .last gotoStatement_yields (by omega) (List.Subset.refl _)
  · exact .stay (expressionStatement_yields sound le)

theorem statement_yields (sound : rules.SoundFrom tokens limit) (le : limit ≤ position + 1) :
    Yields tokens position nodes (statement rules) 1 := by
  apply here_reads.bind
  intro start
  have labelled : Yields tokens position nodes (Parse.many (label? rules)) 0 :=
    many_yields fun _ _ further _ => label?_reads sound (by omega)
  apply labelled.bind
  intro labels
  apply (unlabeled_yields sound (by omega)).bind
  intro form
  apply spanFrom_reads.bind
  intro span
  exact .last (addStmt_yields (by simp)) (by omega) (by simp)

theorem compoundStatement_yields (sound : rules.SoundFrom tokens limit)
    (le : limit ≤ position + 1) :
    Yields tokens position nodes (compoundStatement rules) 1 := by
  apply here_reads.bind
  intro start
  apply (block_yields sound le).bind
  intro form
  apply spanFrom_reads.bind
  intro span
  exact .last (addStmt_yields (by simp)) (by omega) (by simp)

end SyntaxGraph.Grammar
