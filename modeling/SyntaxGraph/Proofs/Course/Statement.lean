import SyntaxGraph.Grammar.Statement
import SyntaxGraph.Proofs.Course.Declarator

/-!
# Declarations and statements take a course

A block and a `for` statement do what they do in a scope of their own.  Initializers, labels
and all statements that hold no declaration themselves take plain steps only; of a block, so
do the statements in it that declare nothing.  The first clause of a `for` statement is a
declaration or an expression, and never both, so the form of every statement fits.
-/

set_option autoImplicit false

namespace SyntaxGraph.Grammar

open Token (Kind Keyword Punctuator)

variable {relation : State → State → Prop} {rules : Rules}

section Plain

variable [Permits relation]

/-! ## Initializers -/

theorem designator?_follows (follow : rules.PartsFollow relation) :
    Follows relation (designator? rules) := by
  refine .bind .here fun start => .bind .accept fun dot => ?_
  split
  · exact .bind .identifier fun name => .bind .spanFrom fun _ => .pure
  · refine .bind .accept fun bracket => ?_
    split
    · refine follow.conditional.bind fun index => .bind .expect fun _ => ?_
      exact .bind .spanFrom fun _ => .pure
    · exact .pure

theorem designation_follows (follow : rules.PartsFollow relation) :
    Follows relation (designation rules) := by
  refine .bind (.many (designator?_follows follow)) fun found => ?_
  dsimp only
  split
  · exact .bind .expect fun _ => .pure
  · exact .pure

theorem spannedInit_follows {designators : List Designator} {form : Init.Form}
    {start : Location} :
    Follows relation (do Parse.addInit { designators, form, span := ← Parse.spanFrom start }) :=
  .bind .spanFrom fun _ => .addInit

theorem initializerItem_follows (follow : rules.PartsFollow relation) :
    Follows relation (initializerItem rules) := by
  refine .bind .here fun start => (designation_follows follow).bind fun designators => ?_
  refine .bind .accept fun braced => ?_
  split
  · exact follow.initializers.bind fun items => spannedInit_follows
  · exact (assignment_follows follow).bind fun value => spannedInit_follows

theorem initializers_follows (follow : rules.PartsFollow relation) :
    Follows relation (initializers rules) :=
  .bind (.listed (initializerItem_follows follow)) fun _ => .bind .expect fun _ => .pure

theorem initializer_follows (follow : rules.PartsFollow relation) :
    Follows relation (initializer rules) := by
  refine .bind .here fun start => .bind .accept fun braced => ?_
  split
  · exact (initializers_follows follow).bind fun items => spannedInit_follows
  · exact (assignment_follows follow).bind fun value => spannedInit_follows

theorem initializer?_follows (follow : rules.PartsFollow relation) {storage : Storage}
    {name : String} : Follows relation (initializer? rules storage name) := by
  refine .bind .accept fun equals => ?_
  split
  · dsimp only
    split
    · exact .refuse
    · exact .map (initializer_follows follow)
  · exact .pure

/-! ## Labels and blocks -/

theorem labelForm?_follows (follow : rules.PartsFollow relation) :
    Follows relation (labelForm? rules) := by
  refine .bind .peek fun kind => ?_
  split
  · refine .bind .peekNext fun behind => ?_
    split
    · exact .bind .advance fun _ => .bind .advance fun _ => .pure
    · exact .pure
  · refine .bind .advance fun _ => (conditional_follows follow).bind fun value => ?_
    exact .bind .expect fun _ => .pure
  · exact .bind .advance fun _ => .bind .expect fun _ => .pure
  · exact .pure

theorem label?_follows (follow : rules.PartsFollow relation) : Follows relation (label? rules) := by
  refine .bind .here fun start => (labelForm?_follows follow).bind fun form => ?_
  cases form with
  | some form => exact .bind .spanFrom fun _ => .map .addLabel
  | none => exact .pure

theorem blockItem?_follows (follow : rules.AllFollow relation)
    (declares : Follows relation (declarationStatements rules)) :
    Follows relation (blockItem? rules) := by
  refine .bind .peek fun kind => ?_
  split
  · exact .pure
  · exact .pure
  · refine .bind .scopes fun scopes => .bind .peekNext fun behind => ?_
    split
    · exact .map declares
    · exact follow.statement.bind fun only => .pure

theorem block_follows (follow : rules.AllFollow relation)
    (declares : Follows relation (declarationStatements rules)) :
    Follows relation (block rules) := by
  refine .bind .expect fun _ => ?_
  refine .bind (.inScope (.many (blockItem?_follows follow declares))) fun items => ?_
  exact .bind .expect fun _ => .pure

theorem block_answers : Answers (fun form => ∃ items, form = .block items) (block rules) :=
  .past fun _ => .past fun items => .past fun _ => .pure ⟨items.flatten, rfl⟩

theorem compoundStatement_follows (follow : rules.AllFollow relation)
    (declares : Follows relation (declarationStatements rules)) :
    Follows relation (compoundStatement rules) := by
  refine .bind .here fun start tokens s => ?_
  refine (block_follows follow declares).andThen fun form middle run => Follows.ends ?_
  obtain ⟨items, rfl⟩ := block_answers tokens s form middle run
  exact .bind .spanFrom fun _ => .addBlock

/-! ## Statements by their keyword -/

theorem parenthesized_follows (follow : rules.PartsFollow relation) {before after : String} :
    Follows relation (parenthesized rules before after) :=
  .bind .expect fun _ => (expression_follows follow).bind fun _ => .bind .expect fun _ => .pure

theorem expressionUnless_follows (follow : rules.PartsFollow relation) {stop : Punctuator} :
    Follows relation (expressionUnless rules stop) := by
  refine .bind .at? fun stops => ?_
  split
  · exact .pure
  · exact .map (expression_follows follow)

theorem elseBranch?_follows (follow : rules.AllFollow relation) :
    Follows relation (elseBranch? rules) := by
  refine .bind .accept fun taken => ?_
  split
  · exact .map follow.statement
  · exact .pure

theorem ifStatement_follows (follow : rules.AllFollow relation) :
    Follows relation (ifStatement rules) := by
  refine (parenthesized_follows follow.toPartsFollow).bind fun condition => ?_
  refine follow.statement.bind fun body => (elseBranch?_follows follow).bind fun _ => ?_
  exact .pure

theorem whileStatement_follows (follow : rules.AllFollow relation) :
    Follows relation (whileStatement rules) :=
  (parenthesized_follows follow.toPartsFollow).bind fun _ => follow.statement.bind fun _ => .pure

theorem doStatement_follows (follow : rules.AllFollow relation) :
    Follows relation (doStatement rules) := by
  refine follow.statement.bind fun body => .bind .expect fun _ => ?_
  refine (parenthesized_follows follow.toPartsFollow).bind fun condition => ?_
  exact .bind .expect fun _ => .pure

theorem switchStatement_follows (follow : rules.AllFollow relation) :
    Follows relation (switchStatement rules) :=
  (parenthesized_follows follow.toPartsFollow).bind fun _ => follow.statement.bind fun _ => .pure

theorem returnStatement_follows (follow : rules.PartsFollow relation) :
    Follows relation (returnStatement rules) :=
  (expressionUnless_follows follow).bind fun _ => .bind .expect fun _ => .pure

theorem gotoStatement_follows : Follows relation gotoStatement :=
  .bind .identifier fun _ => .bind .expect fun _ => .pure

theorem expressionStatement_follows (follow : rules.PartsFollow relation) :
    Follows relation (expressionStatement rules) :=
  (expression_follows follow).bind fun _ => .bind .expect fun _ => .pure

end Plain

/-! ## Declarations, and the statements that may hold one -/

section Declarations

variable [PermitsDeclarations relation]

theorem initDeclarator_follows (follow : rules.PartsFollow relation) {start : Location}
    {specifiers : Specifiers} {declarator : Declarator} :
    Follows relation (initDeclarator rules start specifiers declarator) := by
  unfold initDeclarator
  split
  · exact .fail
  · refine .bind .bindName fun _ => (initializer?_follows follow).bind fun init => ?_
    exact .bind .spanFrom fun _ => .addDecl rfl

theorem nextDeclarator?_follows (follow : rules.PartsFollow relation) {start : Location}
    {specifiers : Specifiers} : Follows relation (nextDeclarator? rules start specifiers) := by
  refine .bind .accept fun comma => ?_
  split
  · refine (declarator_follows follow).bind fun next => ?_
    exact .map (initDeclarator_follows follow)
  · exact .pure

/-- What takes over at a body is only asked of states in which the type of the declarator is
known to be that of a function. -/
theorem declaration_follows (follow : rules.PartsFollow relation)
    {define : Location → Specifiers → Declarator → Parse DeclId}
    (defines : ∀ start specifiers declarator tokens s,
      s.typeKind? declarator.type = some .function →
        relation s (endState (define start specifiers declarator tokens s))) :
    Follows relation (declaration rules define) := by
  refine .bind .here fun start => (specifiers_follows follow).bind fun specifiers => ?_
  refine .bind .accept fun alone => ?_
  split
  · exact .bind .spanFrom fun _ => .bind (.addDecl rfl) fun _ => .pure
  · refine (declarator_follows follow).bind fun first => .bind .at? fun body tokens s => ?_
    refine Follows.typeNode.andThen fun node middle looked => ?_
    obtain ⟨found, rfl⟩ := typeNode_ok looked
    split
    · next taken =>
      have function : node.kind = .function := by simp_all
      have known : middle.typeKind? first.type = some .function :=
        Option.map_eq_some_iff.mpr ⟨node, found, function⟩
      have ends := defines start specifiers first tokens middle known
      exact endState_bind (relation middle) ends fun decl defined run => by rwa [run] at ends
    · refine Follows.ends ((initDeclarator_follows follow).bind fun decl => ?_)
      refine .bind (.many (nextDeclarator?_follows follow)) fun others => ?_
      exact .bind .expect fun _ => .pure

theorem declarationStatements_follows (follow : rules.PartsFollow relation) :
    Follows relation (declarationStatements rules) := by
  refine (declaration_follows follow fun _ _ _ _ s _ => Permits.refl s).bind fun decls => ?_
  exact .mapM (fun _ => .bind .declSpan fun _ => .addDeclared) decls

theorem forStart_follows (follow : rules.PartsFollow relation) :
    Follows relation (forStart rules) := by
  refine .bind .scopes fun scopes => .bind .peek fun kind => ?_
  split
  · refine .bind .here fun start => (specifiers_follows follow).bind fun specifiers => ?_
    refine (declarator_follows follow).bind fun declarator => ?_
    refine (initDeclarator_follows follow).bind fun decl => .bind .at? fun another => ?_
    dsimp only
    split
    · exact .refuse
    · exact .bind .expect fun _ => .pure
  · refine .bind .accept fun empty => ?_
    split
    · exact .pure
    · exact (expression_follows follow).bind fun value => .bind .expect fun _ => .pure

theorem forClauses_follows (follow : rules.AllFollow relation) :
    Follows relation (forClauses rules) := by
  have parts := follow.toPartsFollow
  refine (forStart_follows parts).bind fun first => ?_
  refine (expressionUnless_follows parts).bind fun condition => .bind .expect fun _ => ?_
  refine (expressionUnless_follows parts).bind fun post => .bind .expect fun _ => ?_
  exact follow.statement.bind fun body => .pure

theorem forStatement_follows (follow : rules.AllFollow relation) :
    Follows relation (forStatement rules) :=
  .bind .expect fun _ => .inScope (forClauses_follows follow)

theorem unlabeled_follows (follow : rules.AllFollow relation) :
    Follows relation (unlabeled rules) := by
  have parts := follow.toPartsFollow
  refine .bind .peek fun kind => ?_
  split
  · exact block_follows follow (declarationStatements_follows parts)
  · exact .bind .advance fun _ => .pure
  · exact .bind .advance fun _ => ifStatement_follows follow
  · exact .bind .advance fun _ => whileStatement_follows follow
  · exact .bind .advance fun _ => doStatement_follows follow
  · exact .bind .advance fun _ => forStatement_follows follow
  · exact .bind .advance fun _ => switchStatement_follows follow
  · exact .bind .advance fun _ => returnStatement_follows parts
  · exact .bind .advance fun _ => .bind .expect fun _ => .pure
  · exact .bind .advance fun _ => .bind .expect fun _ => .pure
  · exact .bind .advance fun _ => gotoStatement_follows
  · exact expressionStatement_follows parts

end Declarations

/-! ## Statements -/

theorem forStart_answers :
    Answers (fun first => first.1 = none ∨ first.2 = none) (forStart rules) := by
  refine .past fun scopes => .past fun kind => ?_
  split
  · refine .past fun start => .past fun specifiers => .past fun declarator => ?_
    refine .past fun decl => .past fun another => ?_
    dsimp only
    split
    · exact .refuse
    · exact .past fun _ => .pure (.inl rfl)
  · refine .past fun empty => ?_
    split
    · exact .pure (.inl rfl)
    · exact .past fun value => .past fun _ => .pure (.inr rfl)

theorem forStatement_answers : Answers Stmt.Form.Fits (forStatement rules) := by
  refine .past fun _ => .inScope (forStart_answers.bind fun first either => ?_)
  exact .past fun _ => .past fun _ => .past fun _ => .past fun _ => .past fun _ => .pure either

theorem unlabeled_answers : Answers Stmt.Form.Fits (unlabeled rules) := by
  refine .past fun kind => ?_
  split
  · exact .past fun _ => .past fun _ => .past fun _ => .pure trivial
  · exact .past fun _ => .pure trivial
  · exact .past fun _ => .past fun _ => .past fun _ => .past fun _ => .pure trivial
  · exact .past fun _ => .past fun _ => .past fun _ => .pure trivial
  · exact .past fun _ => .past fun _ => .past fun _ => .past fun _ => .past fun _ => .pure trivial
  · exact .past fun _ => forStatement_answers
  · exact .past fun _ => .past fun _ => .past fun _ => .pure trivial
  · exact .past fun _ => .past fun _ => .past fun _ => .pure trivial
  · exact .past fun _ => .past fun _ => .pure trivial
  · exact .past fun _ => .past fun _ => .pure trivial
  · exact .past fun _ => .past fun _ => .past fun _ => .pure trivial
  · exact .past fun _ => .past fun _ => .pure trivial

theorem statement_follows [PermitsStatements relation] (follow : rules.AllFollow relation) :
    Follows relation (statement rules) := by
  have parts := follow.toPartsFollow
  refine .bind .here fun start => .bind (.many (label?_follows parts)) fun labels tokens s => ?_
  refine (unlabeled_follows follow).andThen fun form middle run => Follows.ends ?_
  exact .bind .spanFrom fun _ => .addStmt (unlabeled_answers tokens s form middle run)

end SyntaxGraph.Grammar
