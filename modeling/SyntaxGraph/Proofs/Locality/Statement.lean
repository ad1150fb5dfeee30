import SyntaxGraph.Grammar.Statement
import SyntaxGraph.Proofs.Locality.Declarator

/-!
# Declarations finish, statements are read locally

Declarations and blocks finish.  A statement may have to look whether an `else` follows it,
so that it is local only; the block that it stands in has a closing brace behind it.
-/

set_option autoImplicit false

namespace SyntaxGraph.Grammar

open Token (Kind Keyword Punctuator)

variable {cut : Cut} {rules others : Rules}

/-! ## Initializers -/

theorem designator?_local (near : rules.AllLocal others cut) :
    Local cut (designator? rules) (designator? others) := by
  refine .bind .here fun start => .bind .accept fun dot => ?_
  split
  · exact .bind .identifier fun name => .bind .spanFrom fun _ => .pure
  · refine .bind .accept fun bracket => ?_
    split
    · refine near.conditional.bind fun index => .bind .expect fun _ => ?_
      exact .bind .spanFrom fun _ => .pure
    · exact .pure

theorem designation_local (near : rules.AllLocal others cut) :
    Local cut (designation rules) (designation others) := by
  refine .bind (.many (designator?_local near)) fun found => ?_
  dsimp only
  split
  · exact .bind .expect fun _ => .pure
  · exact .pure

theorem spannedInit_local {designators : List Designator} {form : Init.Form}
    {start : Location} :
    Local cut (do Parse.addInit { designators, form, span := ← Parse.spanFrom start })
      (do Parse.addInit { designators, form, span := ← Parse.spanFrom start }) :=
  .bind .spanFrom fun _ => .add

theorem initializerItem_local (near : rules.AllLocal others cut) :
    Local cut (initializerItem rules) (initializerItem others) := by
  refine .bind .here fun start => (designation_local near).bind fun designators => ?_
  refine .bind .accept fun braced => ?_
  split
  · exact near.initializers.bind fun items => spannedInit_local
  · exact (assignment_local near).bind fun value => spannedInit_local

theorem initializers_local (near : rules.AllLocal others cut) :
    Local cut (initializers rules) (initializers others) :=
  .bind (.listed (initializerItem_local near)) fun _ => .bind .expect fun _ => .pure

theorem initializer_local (near : rules.AllLocal others cut) :
    Local cut (initializer rules) (initializer others) := by
  refine .bind .here fun start => .bind .accept fun braced => ?_
  split
  · exact (initializers_local near).bind fun items => spannedInit_local
  · exact (assignment_local near).bind fun value => spannedInit_local

/-! ## Declarations -/

theorem initializer?_local (near : rules.AllLocal others cut) {storage : Storage} {name : String} :
    Local cut (initializer? rules storage name) (initializer? others storage name) := by
  refine .bind .accept fun equals => ?_
  split
  · dsimp only
    split
    · exact .refuse
    · exact .map (initializer_local near)
  · exact .pure

theorem initDeclarator_local (near : rules.AllLocal others cut) {start : Location}
    {specifiers : Specifiers} {declarator : Declarator} :
    Local cut (initDeclarator rules start specifiers declarator)
      (initDeclarator others start specifiers declarator) := by
  unfold initDeclarator
  split
  · exact .fail
  · refine .bind .bindName fun _ => (initializer?_local near).bind fun init => ?_
    exact .bind .spanFrom fun _ => .add

theorem nextDeclarator?_local (near : rules.AllLocal others cut) {start : Location}
    {specifiers : Specifiers} :
    Local cut (nextDeclarator? rules start specifiers)
      (nextDeclarator? others start specifiers) := by
  refine .bind .accept fun comma => ?_
  split
  · refine (declarator_local near).bind fun next => ?_
    exact .map (initDeclarator_local near)
  · exact .pure

/-- A declaration ends with a semicolon or with the body of a function. -/
theorem declaration_finishes (near : rules.AllLocal others cut)
    {define : Location → Specifiers → Declarator → Parse DeclId}
    {another : Location → Specifiers → Declarator → Parse DeclId}
    (defines : ∀ start specifiers declarator,
      Finishes cut (define start specifiers declarator) (another start specifiers declarator)) :
    Finishes cut (declaration rules define) (declaration others another) := by
  refine .bind .here fun start => .bind (specifiers_local near) fun specifiers => ?_
  refine .accept nofun ?_ ?_
  · exact .bind .spanFrom fun _ => .bind .add fun _ => .pure
  · refine .bind (declarator_local near) fun first => .bind .at? fun body => ?_
    refine .bind .typeNode fun node => ?_
    split
    · exact (defines start specifiers first).settle fun _ => .pure
    · refine .bind (initDeclarator_local near) fun decl => ?_
      refine .bind (.many (nextDeclarator?_local near)) fun others => ?_
      exact .settle (.expect nofun) fun _ => .pure

/-! ## Labels and blocks -/

theorem labelForm?_local (near : rules.AllLocal others cut) :
    Local cut (labelForm? rules) (labelForm? others) := by
  refine .peekFrom fun kind => ?_
  split
  · refine .peekNext nofun fun behind => .of_local ?_
    split
    · exact .bind .advance fun _ => .bind .advance fun _ => .pure
    · exact .pure
  · refine .of_local (.bind .advance fun _ => ?_)
    refine (conditional_local near).bind fun value => ?_
    exact .bind .expect fun _ => .pure
  · exact .of_local (.bind .advance fun _ => .bind .expect fun _ => .pure)
  · exact .of_local .pure

theorem label?_local (near : rules.AllLocal others cut) :
    Local cut (label? rules) (label? others) := by
  refine .bind .here fun start => (labelForm?_local near).bind fun form => ?_
  cases form with
  | some form => exact .bind .spanFrom fun _ => .map .add
  | none => exact .pure

theorem declarationStatements_local (near : rules.AllLocal others cut) :
    Local cut (declarationStatements rules) (declarationStatements others) := by
  refine (declaration_finishes near fun _ _ _ => .fail).near.bind fun decls => ?_
  exact .mapM (fun _ => .bind .declSpan fun _ => .add) decls

theorem startsDeclaration_of_closes {scopes : Scopes} {kind : Kind}
    (closes : kind.closes = true) : startsDeclaration scopes kind = false := by
  unfold Kind.closes at closes
  split at closes
  · rfl
  · rfl
  · cases closes

theorem blockItem?_local (near : rules.AllLocal others cut) :
    Local cut (blockItem? rules) (blockItem? others) := by
  refine .peekFrom fun kind => ?_
  split
  · exact .of_local .pure
  · exact .of_local .pure
  · refine .look scopes_observes .scopes fun scopes => .peekNext ?_ fun behind => .of_local ?_
    · intro closes one other
      simp [startsDeclaration_of_closes closes]
    split
    · exact .map (declarationStatements_local near)
    · exact near.statement.bind fun only => .pure

theorem block_finishes (near : rules.AllLocal others cut) :
    Finishes cut (block rules) (block others) := by
  refine .bind .expect fun _ => ?_
  refine .bind (.inScope (.many (blockItem?_local near))) fun items => ?_
  exact .settle (.expect nofun) fun _ => .pure

/-! ## Statements by their keyword -/

theorem parenthesized_local (near : rules.AllLocal others cut) {before after : String} :
    Local cut (parenthesized rules before after) (parenthesized others before after) :=
  .bind .expect fun _ => (expression_local near).bind fun _ => .bind .expect fun _ => .pure

theorem expressionUnless_local (near : rules.AllLocal others cut) {stop : Punctuator} :
    Local cut (expressionUnless rules stop) (expressionUnless others stop) := by
  refine .bind .at? fun stops => ?_
  split
  · exact .pure
  · exact .map (expression_local near)

theorem elseBranch?_local (near : rules.AllLocal others cut) :
    Local cut (elseBranch? rules) (elseBranch? others) := by
  refine .bind .accept fun taken => ?_
  split
  · exact .map near.statement
  · exact .pure

theorem ifStatement_local (near : rules.AllLocal others cut) :
    Local cut (ifStatement rules) (ifStatement others) := by
  refine (parenthesized_local near).bind fun condition => ?_
  refine near.statement.bind fun body => (elseBranch?_local near).bind fun _ => ?_
  exact .pure

theorem whileStatement_local (near : rules.AllLocal others cut) :
    Local cut (whileStatement rules) (whileStatement others) :=
  (parenthesized_local near).bind fun _ => near.statement.bind fun _ => .pure

theorem doStatement_local (near : rules.AllLocal others cut) :
    Local cut (doStatement rules) (doStatement others) := by
  refine near.statement.bind fun body => .bind .expect fun _ => ?_
  refine (parenthesized_local near).bind fun condition => ?_
  exact .bind .expect fun _ => .pure

theorem switchStatement_local (near : rules.AllLocal others cut) :
    Local cut (switchStatement rules) (switchStatement others) :=
  (parenthesized_local near).bind fun _ => near.statement.bind fun _ => .pure

theorem forStart_local (near : rules.AllLocal others cut) :
    Local cut (forStart rules) (forStart others) := by
  refine .bind .scopes fun scopes => .bind .peek fun kind => ?_
  split
  · refine .bind .here fun start => (specifiers_local near).bind fun specifiers => ?_
    refine (declarator_local near).bind fun declarator => ?_
    refine (initDeclarator_local near).bind fun decl => .bind .at? fun another => ?_
    dsimp only
    split
    · exact .refuse
    · exact .bind .expect fun _ => .pure
  · refine .bind .accept fun empty => ?_
    split
    · exact .pure
    · exact (expression_local near).bind fun value => .bind .expect fun _ => .pure

theorem forClauses_local (near : rules.AllLocal others cut) :
    Local cut (forClauses rules) (forClauses others) := by
  refine (forStart_local near).bind fun first => ?_
  refine (expressionUnless_local near).bind fun condition => .bind .expect fun _ => ?_
  refine (expressionUnless_local near).bind fun post => .bind .expect fun _ => ?_
  exact near.statement.bind fun body => .pure

theorem forStatement_local (near : rules.AllLocal others cut) :
    Local cut (forStatement rules) (forStatement others) :=
  .bind .expect fun _ => .inScope (forClauses_local near)

theorem returnStatement_local (near : rules.AllLocal others cut) :
    Local cut (returnStatement rules) (returnStatement others) :=
  (expressionUnless_local near).bind fun _ => .bind .expect fun _ => .pure

theorem gotoStatement_local : Local cut gotoStatement gotoStatement :=
  .bind .identifier fun _ => .bind .expect fun _ => .pure

theorem expressionStatement_local (near : rules.AllLocal others cut) :
    Local cut (expressionStatement rules) (expressionStatement others) :=
  (expression_local near).bind fun _ => .bind .expect fun _ => .pure

theorem unlabeled_local (near : rules.AllLocal others cut) :
    Local cut (unlabeled rules) (unlabeled others) := by
  refine .bind .peek fun kind => ?_
  split
  · exact (block_finishes near).near
  · exact .bind .advance fun _ => .pure
  · exact .bind .advance fun _ => ifStatement_local near
  · exact .bind .advance fun _ => whileStatement_local near
  · exact .bind .advance fun _ => doStatement_local near
  · exact .bind .advance fun _ => forStatement_local near
  · exact .bind .advance fun _ => switchStatement_local near
  · exact .bind .advance fun _ => returnStatement_local near
  · exact .bind .advance fun _ => .bind .expect fun _ => .pure
  · exact .bind .advance fun _ => .bind .expect fun _ => .pure
  · exact .bind .advance fun _ => gotoStatement_local
  · exact expressionStatement_local near

theorem statement_local (near : rules.AllLocal others cut) :
    Local cut (statement rules) (statement others) := by
  refine .bind .here fun start => .bind (.many (label?_local near)) fun labels => ?_
  refine (unlabeled_local near).bind fun form => ?_
  exact .bind .spanFrom fun _ => .add

theorem compoundStatement_finishes (near : rules.AllLocal others cut) :
    Finishes cut (compoundStatement rules) (compoundStatement others) := by
  refine .bind .here fun start => (block_finishes near).settle fun form => ?_
  exact .bind .spanFrom fun _ => .add

end SyntaxGraph.Grammar
