import SyntaxGraph.Grammar.Statement
import SyntaxGraph.Proofs.Nesting.Declarator

/-!
# Declarations and statements are balanced

The clauses of a `for` statement are read from behind its opening parenthesis, and its
body behind the closing one, by one rule; every other rule is neutral.
-/

set_option autoImplicit false

namespace SyntaxGraph.Grammar

open Token (Kind Keyword Punctuator)

variable {α : Type} {tokens : Tokens} {rules : Rules}

/-! ## Initializers -/

theorem designator?_neutral (neutral : rules.AllNeutral tokens) :
    Neutral tokens (designator? rules) := by
  refine .look here_observes fun start => .ifAccept rfl ?_ (.ifAccept rfl ?_ .pure)
  · exact .bind .identifier fun name => .look spanFrom_observes fun _ => .pure
  · refine neutral.conditional.bind fun index => .bind (.expect rfl) fun _ => ?_
    exact .look spanFrom_observes fun _ => .pure

theorem designation_neutral (neutral : rules.AllNeutral tokens) :
    Neutral tokens (designation rules) := by
  refine .bind (.many (designator?_neutral neutral)) fun found => ?_
  dsimp only
  split
  · exact .bind (.expect rfl) fun _ => .pure
  · exact .pure

theorem spannedInit_neutral {designators : List Designator} {form : Init.Form}
    {start : Location} :
    Neutral tokens (do
      Parse.addInit { designators, form, span := ← Parse.spanFrom start }) :=
  .look spanFrom_observes fun _ => .addInit

theorem initializerItem_neutral (neutral : rules.AllNeutral tokens) :
    Neutral tokens (initializerItem rules) := by
  refine .look here_observes fun start => (designation_neutral neutral).bind fun _ => ?_
  refine .ifAccept rfl (neutral.initializers.bind fun items => spannedInit_neutral) ?_
  exact (assignment_neutral neutral).bind fun value => spannedInit_neutral

theorem initializers_neutral (neutral : rules.AllNeutral tokens) :
    Neutral tokens (initializers rules) :=
  .bind (.listed (initializerItem_neutral neutral)) fun _ => .bind (.expect rfl) fun _ => .pure

theorem initializer_neutral (neutral : rules.AllNeutral tokens) :
    Neutral tokens (initializer rules) := by
  refine .look here_observes fun start => .ifAccept rfl ?_ ?_
  · exact (initializers_neutral neutral).bind fun items => spannedInit_neutral
  · exact (assignment_neutral neutral).bind fun value => spannedInit_neutral

/-! ## Declarations -/

theorem initializer?_neutral (neutral : rules.AllNeutral tokens) {storage : Storage}
    {name : String} : Neutral tokens (initializer? rules storage name) := by
  refine .ifAccept rfl ?_ .pure
  dsimp only
  split
  · exact .refuse
  · exact .map (initializer_neutral neutral)

theorem initDeclarator_neutral (neutral : rules.AllNeutral tokens) {start : Location}
    {specifiers : Specifiers} {declarator : Declarator} :
    Neutral tokens (initDeclarator rules start specifiers declarator) := by
  unfold initDeclarator
  split
  · exact .fail
  · refine .bind .bindName fun _ => (initializer?_neutral neutral).bind fun init => ?_
    exact .look spanFrom_observes fun _ => .addDecl

theorem nextDeclarator?_neutral (neutral : rules.AllNeutral tokens) {start : Location}
    {specifiers : Specifiers} : Neutral tokens (nextDeclarator? rules start specifiers) := by
  refine .ifAccept rfl ((declarator_neutral neutral).bind fun next => ?_) .pure
  exact .map (initDeclarator_neutral neutral)

theorem declaration_neutral (neutral : rules.AllNeutral tokens)
    {define : Location → Specifiers → Declarator → Parse DeclId}
    (defines : ∀ start specifiers declarator,
      Neutral tokens (define start specifiers declarator)) :
    Neutral tokens (declaration rules define) := by
  refine .look here_observes fun start => (specifiers_neutral neutral).bind fun specifiers => ?_
  refine .ifAccept rfl (.look spanFrom_observes fun _ => .bind .addDecl fun _ => .pure) ?_
  refine (declarator_neutral neutral).bind fun first => ?_
  refine .look (peek_observes.bind fun _ => pure_observes) fun body => ?_
  refine .look typeNode_observes fun node => ?_
  split
  · exact (defines start specifiers first).bind fun _ => .pure
  · refine (initDeclarator_neutral neutral).bind fun decl => ?_
    refine .bind (.many (nextDeclarator?_neutral neutral)) fun others => ?_
    exact .bind (.expect rfl) fun _ => .pure

/-! ## Labels and blocks -/

theorem labelForm?_neutral (neutral : rules.AllNeutral tokens) :
    Neutral tokens (labelForm? rules) := by
  refine .peek fun kind => ?_
  split
  · refine .peekNext (fun behind inner => ?_) .pure
    split
    · next colon =>
        subst colon
        exact .advance rfl (.advance rfl .pure)
    · exact .pure
  · refine .advance rfl ((conditional_neutral neutral).bind fun value => ?_)
    exact .bind (.expect rfl) fun _ => .pure
  · exact .advance rfl (.bind (.expect rfl) fun _ => .pure)
  · exact .pure

theorem label?_neutral (neutral : rules.AllNeutral tokens) :
    Neutral tokens (label? rules) := by
  refine .look here_observes fun start => (labelForm?_neutral neutral).bind fun form => ?_
  split
  · exact .look spanFrom_observes fun _ => .map .addLabel
  · exact .pure

theorem declarationStatements_neutral (neutral : rules.AllNeutral tokens) :
    Neutral tokens (declarationStatements rules) := by
  refine (declaration_neutral neutral fun _ _ _ => .fail).bind fun decls => ?_
  exact .mapM (fun _ => .look declSpan_observes fun _ => .addStmt) decls

theorem blockItem?_neutral (neutral : rules.AllNeutral tokens) :
    Neutral tokens (blockItem? rules) := by
  refine .peek fun kind => ?_
  split
  · exact .pure
  · exact .pure
  · refine .stay (.look scopes_observes fun scopes => .look peekNext_observes fun behind => ?_)
    split
    · exact .map (declarationStatements_neutral neutral)
    · exact neutral.statement.bind fun only => .pure

theorem block_neutral (neutral : rules.AllNeutral tokens) : Neutral tokens (block rules) := by
  refine .bind (.expect rfl) fun _ => ?_
  refine .bind (.inScope (.many (blockItem?_neutral neutral))) fun items => ?_
  exact .bind (.expect rfl) fun _ => .pure

/-! ## Statements by their keyword -/

theorem parenthesized_neutral (neutral : rules.AllNeutral tokens) {before after : String} :
    Neutral tokens (parenthesized rules before after) :=
  .openParen ((expression_neutral neutral).andThen fun _ => .closeParen .pure)

theorem expressionUnless_neutral (neutral : rules.AllNeutral tokens) {stop : Punctuator} :
    Neutral tokens (expressionUnless rules stop) :=
  .ifAt .pure (.map (expression_neutral neutral))

theorem elseBranch?_neutral (neutral : rules.AllNeutral tokens) :
    Neutral tokens (elseBranch? rules) :=
  .ifAccept rfl (.map neutral.statement) .pure

theorem ifStatement_neutral (neutral : rules.AllNeutral tokens) :
    Neutral tokens (ifStatement rules) := by
  refine (parenthesized_neutral neutral).bind fun condition => ?_
  refine neutral.statement.bind fun body => (elseBranch?_neutral neutral).bind fun _ => ?_
  exact .pure

theorem whileStatement_neutral (neutral : rules.AllNeutral tokens) :
    Neutral tokens (whileStatement rules) :=
  (parenthesized_neutral neutral).bind fun _ => neutral.statement.bind fun _ => .pure

theorem doStatement_neutral (neutral : rules.AllNeutral tokens) :
    Neutral tokens (doStatement rules) := by
  refine neutral.statement.bind fun body => .bind (.expect rfl) fun _ => ?_
  refine (parenthesized_neutral neutral).bind fun condition => ?_
  exact .bind (.expect rfl) fun _ => .pure

theorem switchStatement_neutral (neutral : rules.AllNeutral tokens) :
    Neutral tokens (switchStatement rules) :=
  (parenthesized_neutral neutral).bind fun _ => neutral.statement.bind fun _ => .pure

theorem forStart_neutral (neutral : rules.AllNeutral tokens) :
    Neutral tokens (forStart rules) := by
  refine .look scopes_observes fun scopes => .look peek_observes fun kind => ?_
  dsimp only
  split
  · refine .look here_observes fun start => ?_
    refine (specifiers_neutral neutral).bind fun specifiers => ?_
    refine (declarator_neutral neutral).bind fun declarator => ?_
    refine (initDeclarator_neutral neutral).bind fun decl => .ifAt .refuse ?_
    exact .bind (.expect rfl) fun _ => .pure
  · refine .ifAccept rfl .pure ((expression_neutral neutral).bind fun value => ?_)
    exact .bind (.expect rfl) fun _ => .pure

theorem forClauses_nests (neutral : rules.AllNeutral tokens) :
    Nests tokens [] 1 0 (forClauses rules) := by
  refine (forStart_neutral neutral).andThen fun first => ?_
  refine (expressionUnless_neutral neutral).andThen fun condition => ?_
  refine .bind (.expect rfl) fun _ => ?_
  refine (expressionUnless_neutral neutral).andThen fun post => .closeParen ?_
  exact neutral.statement.bind fun body => .pure

theorem forStatement_neutral (neutral : rules.AllNeutral tokens) :
    Neutral tokens (forStatement rules) :=
  .openParen (.inScope (forClauses_nests neutral))

theorem returnStatement_neutral (neutral : rules.AllNeutral tokens) :
    Neutral tokens (returnStatement rules) :=
  (expressionUnless_neutral neutral).bind fun _ => .bind (.expect rfl) fun _ => .pure

theorem gotoStatement_neutral : Neutral tokens gotoStatement :=
  .bind .identifier fun _ => .bind (.expect rfl) fun _ => .pure

theorem expressionStatement_neutral (neutral : rules.AllNeutral tokens) :
    Neutral tokens (expressionStatement rules) :=
  (expression_neutral neutral).bind fun _ => .bind (.expect rfl) fun _ => .pure

theorem unlabeled_neutral (neutral : rules.AllNeutral tokens) :
    Neutral tokens (unlabeled rules) := by
  refine .peek fun kind => ?_
  split
  · exact .stay (block_neutral neutral)
  · exact .advance rfl .pure
  · exact .advance rfl (ifStatement_neutral neutral)
  · exact .advance rfl (whileStatement_neutral neutral)
  · exact .advance rfl (doStatement_neutral neutral)
  · exact .advance rfl (forStatement_neutral neutral)
  · exact .advance rfl (switchStatement_neutral neutral)
  · exact .advance rfl (returnStatement_neutral neutral)
  · exact .advance rfl (.bind (.expect rfl) fun _ => .pure)
  · exact .advance rfl (.bind (.expect rfl) fun _ => .pure)
  · exact .advance rfl gotoStatement_neutral
  · exact .stay (expressionStatement_neutral neutral)

theorem statement_neutral (neutral : rules.AllNeutral tokens) :
    Neutral tokens (statement rules) := by
  refine .look here_observes fun start => .bind (.many (label?_neutral neutral)) fun labels => ?_
  refine (unlabeled_neutral neutral).bind fun form => ?_
  exact .look spanFrom_observes fun _ => .addStmt

theorem compoundStatement_neutral (neutral : rules.AllNeutral tokens) :
    Neutral tokens (compoundStatement rules) := by
  refine .look here_observes fun start => (block_neutral neutral).bind fun form => ?_
  exact .look spanFrom_observes fun _ => .addStmt

end SyntaxGraph.Grammar
