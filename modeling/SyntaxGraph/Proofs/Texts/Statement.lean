import SyntaxGraph.Grammar.Statement
import SyntaxGraph.Proofs.Texts.Declarator

/-!
# Declarations and statements cite their tokens

A declaration has the name of its declarator, and a label the identifier in front of its
colon.
-/

set_option autoImplicit false

namespace SyntaxGraph.Grammar

open Token (Kind Keyword Punctuator)

variable {tokens : Tokens} {rules : Rules}

/-! ## Initializers -/

theorem designator?_cites (cite : rules.Cite tokens) : Steady tokens (designator? rules) := by
  refine .past .here fun start => .past .accept fun dot => ?_
  split
  · exact .past .identifier fun name => .past .spanFrom fun _ => .pure trivial
  · refine .past .accept fun bracket => ?_
    split
    · refine cite.conditional.past fun index => .past .expect fun _ => ?_
      exact .past .spanFrom fun _ => .pure trivial
    · exact .pure trivial

theorem designation_cites (cite : rules.Cite tokens) : Steady tokens (designation rules) := by
  refine .past (.many (designator?_cites cite)) fun found => ?_
  dsimp only
  split
  · exact .past .expect fun _ => .pure trivial
  · exact .pure trivial

theorem spannedInit_cites {designators : List Designator} {form : Init.Form}
    {start : Location} :
    Steady tokens (do Parse.addInit { designators, form, span := ← Parse.spanFrom start }) :=
  .past .spanFrom fun _ => .addInit

theorem initializerItem_cites (cite : rules.Cite tokens) :
    Steady tokens (initializerItem rules) := by
  refine .past .here fun start => (designation_cites cite).past fun designators => ?_
  refine .past .accept fun braced => ?_
  split
  · exact cite.initializers.past fun items => spannedInit_cites
  · exact (assignment_cites cite).past fun value => spannedInit_cites

theorem initializers_cites (cite : rules.Cite tokens) : Steady tokens (initializers rules) :=
  .past (.listed (initializerItem_cites cite)) fun _ => .past .expect fun _ => .pure trivial

theorem initializer_cites (cite : rules.Cite tokens) : Steady tokens (initializer rules) := by
  refine .past .here fun start => .past .accept fun braced => ?_
  split
  · exact (initializers_cites cite).past fun items => spannedInit_cites
  · exact (assignment_cites cite).past fun value => spannedInit_cites

theorem initializer?_cites (cite : rules.Cite tokens) {storage : Storage} {name : String} :
    Steady tokens (initializer? rules storage name) := by
  refine .past .accept fun equals => ?_
  split
  · dsimp only
    split
    · exact .refuse
    · exact .mapAny (initializer_cites cite)
  · exact .pure trivial

/-! ## Declarations -/

theorem initDeclarator_cites (cite : rules.Cite tokens) {start : Location}
    {specifiers : Specifiers} {declarator : Declarator} (cites : declarator.Cites tokens) :
    Steady tokens (initDeclarator rules start specifiers declarator) := by
  unfold initDeclarator
  split
  · exact .fail
  · next name named =>
      refine .past .bindName fun _ => (initializer?_cites cite).past fun init => ?_
      exact .past .spanFrom fun _ => .addDecl fun _ => cites name named

theorem nextDeclarator?_cites (cite : rules.Cite tokens) {start : Location}
    {specifiers : Specifiers} : Steady tokens (nextDeclarator? rules start specifiers) := by
  refine .past .accept fun comma => ?_
  split
  · refine (declarator_cites cite).bind fun next cites => ?_
    exact .mapAny (initDeclarator_cites cite cites)
  · exact .pure trivial

theorem declaration_cites (cite : rules.Cite tokens)
    {define : Location → Specifiers → Declarator → Parse DeclId}
    (defines : ∀ start specifiers declarator, Declarator.Cites tokens declarator →
      Steady tokens (define start specifiers declarator)) :
    Steady tokens (declaration rules define) := by
  refine .past .here fun start => (specifiers_cites cite).past fun specifiers => ?_
  refine .past .accept fun alone => ?_
  split
  · exact .past .spanFrom fun _ => .past (.addDecl (.unnamed rfl)) fun _ => .pure trivial
  · refine (declarator_cites cite).bind fun first cites => .past .at? fun body => ?_
    refine .past .typeNode fun node => ?_
    split
    · exact (defines start specifiers first cites).past fun _ => .pure trivial
    · refine (initDeclarator_cites cite cites).past fun decl => ?_
      refine .past (.many (nextDeclarator?_cites cite)) fun others => ?_
      exact .past .expect fun _ => .pure trivial

/-! ## Labels and blocks -/

theorem labelForm?_cites (cite : rules.Cite tokens) :
    Cites tokens (fun found => ∀ form ∈ found, Label.Form.Cites tokens form)
      (labelForm? rules) := by
  have ends : ∀ form ∈ none, Label.Form.Cites tokens form := fun form none => nomatch none
  refine .bind .peek fun kind there => ?_
  split
  · refine .past (.look peekNext_observes) fun behind => ?_
    split
    · refine .past .advance fun _ => .past .advance fun _ => .pure fun form member => ?_
      cases member
      exact there
    · exact .pure ends
  · refine .past .advance fun _ => (conditional_cites cite).past fun value => ?_
    refine .past .expect fun _ => .pure fun form member => ?_
    cases member
    trivial
  · refine .past .advance fun _ => .past .expect fun _ => .pure fun form member => ?_
    cases member
    trivial
  · exact .pure ends

theorem label?_cites (cite : rules.Cite tokens) : Steady tokens (label? rules) := by
  refine .past .here fun start => (labelForm?_cites cite).bind fun found cites => ?_
  cases found with
  | some form => exact .past .spanFrom fun _ => .mapAny (.addLabel (cites form rfl))
  | none => exact .pure trivial

theorem declarationStatements_cites (cite : rules.Cite tokens) :
    Steady tokens (declarationStatements rules) := by
  refine (declaration_cites cite fun _ _ _ _ => .fail).past fun decls => ?_
  exact .mapM (fun _ => .past (.look declSpan_observes) fun _ => .addStmt) decls

theorem blockItem?_cites (cite : rules.Cite tokens) : Steady tokens (blockItem? rules) := by
  refine .past .peek fun kind => ?_
  split
  · exact .pure trivial
  · exact .pure trivial
  · refine .past (.look scopes_observes) fun scopes => ?_
    refine .past (.look peekNext_observes) fun behind => ?_
    split
    · exact .mapAny (declarationStatements_cites cite)
    · exact cite.statement.past fun only => .pure trivial

theorem block_cites (cite : rules.Cite tokens) : Steady tokens (block rules) := by
  refine .past .expect fun _ => .past (.inScope (.many (blockItem?_cites cite))) fun items => ?_
  exact .past .expect fun _ => .pure trivial

/-! ## Statements by their keyword -/

theorem parenthesized_cites (cite : rules.Cite tokens) {before after : String} :
    Steady tokens (parenthesized rules before after) :=
  .past .expect fun _ => (expression_cites cite).past fun _ => .past .expect fun _ => .pure trivial

theorem expressionUnless_cites (cite : rules.Cite tokens) {stop : Punctuator} :
    Steady tokens (expressionUnless rules stop) := by
  refine .past .at? fun stops => ?_
  split
  · exact .pure trivial
  · exact .mapAny (expression_cites cite)

theorem elseBranch?_cites (cite : rules.Cite tokens) : Steady tokens (elseBranch? rules) := by
  refine .past .accept fun taken => ?_
  split
  · exact .mapAny cite.statement
  · exact .pure trivial

theorem ifStatement_cites (cite : rules.Cite tokens) : Steady tokens (ifStatement rules) := by
  refine (parenthesized_cites cite).past fun condition => cite.statement.past fun body => ?_
  exact (elseBranch?_cites cite).past fun _ => .pure trivial

theorem whileStatement_cites (cite : rules.Cite tokens) :
    Steady tokens (whileStatement rules) :=
  (parenthesized_cites cite).past fun _ => cite.statement.past fun _ => .pure trivial

theorem doStatement_cites (cite : rules.Cite tokens) : Steady tokens (doStatement rules) := by
  refine cite.statement.past fun body => .past .expect fun _ => ?_
  exact (parenthesized_cites cite).past fun condition => .past .expect fun _ => .pure trivial

theorem switchStatement_cites (cite : rules.Cite tokens) :
    Steady tokens (switchStatement rules) :=
  (parenthesized_cites cite).past fun _ => cite.statement.past fun _ => .pure trivial

theorem forStart_cites (cite : rules.Cite tokens) : Steady tokens (forStart rules) := by
  refine .past (.look scopes_observes) fun scopes => .past .peek fun kind => ?_
  split
  · refine .past .here fun start => (specifiers_cites cite).past fun specifiers => ?_
    refine (declarator_cites cite).bind fun declarator cites => ?_
    refine (initDeclarator_cites cite cites).past fun decl => .past .at? fun another => ?_
    dsimp only
    split
    · exact .refuse
    · exact .past .expect fun _ => .pure trivial
  · refine .past .accept fun empty => ?_
    split
    · exact .pure trivial
    · exact (expression_cites cite).past fun value => .past .expect fun _ => .pure trivial

theorem forClauses_cites (cite : rules.Cite tokens) : Steady tokens (forClauses rules) := by
  refine (forStart_cites cite).past fun first => ?_
  refine (expressionUnless_cites cite).past fun condition => .past .expect fun _ => ?_
  refine (expressionUnless_cites cite).past fun post => .past .expect fun _ => ?_
  exact cite.statement.past fun body => .pure trivial

theorem forStatement_cites (cite : rules.Cite tokens) : Steady tokens (forStatement rules) :=
  .past .expect fun _ => .inScope (forClauses_cites cite)

theorem returnStatement_cites (cite : rules.Cite tokens) :
    Steady tokens (returnStatement rules) :=
  (expressionUnless_cites cite).past fun _ => .past .expect fun _ => .pure trivial

theorem gotoStatement_cites : Steady tokens gotoStatement :=
  .past .identifier fun _ => .past .expect fun _ => .pure trivial

theorem expressionStatement_cites (cite : rules.Cite tokens) :
    Steady tokens (expressionStatement rules) :=
  (expression_cites cite).past fun _ => .past .expect fun _ => .pure trivial

theorem unlabeled_cites (cite : rules.Cite tokens) : Steady tokens (unlabeled rules) := by
  refine .past .peek fun kind => ?_
  split
  · exact block_cites cite
  · exact .past .advance fun _ => .pure trivial
  · exact .past .advance fun _ => ifStatement_cites cite
  · exact .past .advance fun _ => whileStatement_cites cite
  · exact .past .advance fun _ => doStatement_cites cite
  · exact .past .advance fun _ => forStatement_cites cite
  · exact .past .advance fun _ => switchStatement_cites cite
  · exact .past .advance fun _ => returnStatement_cites cite
  · exact .past .advance fun _ => .past .expect fun _ => .pure trivial
  · exact .past .advance fun _ => .past .expect fun _ => .pure trivial
  · exact .past .advance fun _ => gotoStatement_cites
  · exact expressionStatement_cites cite

theorem statement_cites (cite : rules.Cite tokens) : Steady tokens (statement rules) := by
  refine .past .here fun start => .past (.many (label?_cites cite)) fun labels => ?_
  exact (unlabeled_cites cite).past fun form => .past .spanFrom fun _ => .addStmt

theorem compoundStatement_cites (cite : rules.Cite tokens) :
    Steady tokens (compoundStatement rules) :=
  .past .here fun _ => (block_cites cite).past fun _ => .past .spanFrom fun _ => .addStmt

end SyntaxGraph.Grammar
