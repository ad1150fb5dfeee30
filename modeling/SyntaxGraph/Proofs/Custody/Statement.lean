import SyntaxGraph.Grammar.Statement
import SyntaxGraph.Proofs.Custody.Declarator

/-!
# Declarations and statements and the nodes they hold

A declaration in a block becomes one statement for each of its names, which owns that
declaration and no other one.
-/

set_option autoImplicit false

namespace SyntaxGraph.Grammar

open Token (Kind Keyword Punctuator)

variable {rules : Rules} {uses : List NodeRef}

/-! ## Initializers -/

theorem designator?_makes (make : rules.AllMake) : Makes (designator? rules) := by
  refine .past .here fun start => .past .accept fun dot => ?_
  split
  · exact .past .identifier fun name => .past .spanFrom fun span => .pure fun _ => rfl
  · refine .past .accept fun bracket => ?_
    split
    · refine .bind make.conditional fun index => .past .expect fun _ => ?_
      exact .past .spanFrom fun span => .pure fun _ => rfl
    · exact .pure fun _ => rfl

theorem designation_makes (make : rules.AllMake) : Makes (designation rules) := by
  refine .bind (.many (designator?_makes make)) fun found => ?_
  dsimp only
  split
  · exact .past .expect fun _ => .pure fun _ => rfl
  · exact .pure fun _ => rfl

theorem spannedInit_passes {designators : List Designator} {form : Init.Form}
    {start : Location}
    (same : ∀ node, uses.count node = (parts designators ++ form.parts).count node) :
    Passes [] uses (do Parse.addInit { designators, form, span := ← Parse.spanFrom start }) parts :=
  .past .spanFrom fun _ => .addInit same

theorem initializerItem_makes (make : rules.AllMake) : Makes (initializerItem rules) := by
  refine .past .here fun start => .bind (designation_makes make) fun designators => ?_
  refine .past .accept fun braced => ?_
  split
  · refine .andThen make.initializers fun items => spannedInit_passes fun node => ?_
    simp [Nat.add_comm]
  · refine .andThen (assignment_makes make) fun value => spannedInit_passes fun node => ?_
    simp [List.count_cons, Nat.add_comm]

theorem initializers_makes (make : rules.AllMake) : Makes (initializers rules) :=
  .bind (.listed (initializerItem_makes make)) fun _ => .past .expect fun _ =>
    .pure fun _ => rfl

theorem initializer_makes (make : rules.AllMake) : Makes (initializer rules) := by
  refine .past .here fun start => .past .accept fun braced => ?_
  split
  · exact .bind (initializers_makes make) fun items => spannedInit_passes fun _ => rfl
  · exact .bind (assignment_makes make) fun value => spannedInit_passes fun _ => rfl

/-! ## Declarations -/

theorem initializer?_makes (make : rules.AllMake) {storage : Storage} {name : String} :
    Makes (initializer? rules storage name) := by
  refine .past .accept fun equals => ?_
  split
  · dsimp only
    split
    · exact .refuse
    · exact .map (initializer_makes make)
  · exact .pure fun _ => rfl

theorem initDeclarator_passes (make : rules.AllMake) {start : Location}
    {specifiers : Specifiers} {declarator : Declarator} :
    Passes [] (parts declarator) (initDeclarator rules start specifiers declarator) parts := by
  unfold initDeclarator
  split
  · exact .fail
  · refine .past .bindName fun _ => .andThen (initializer?_makes make) fun init => ?_
    exact .past .spanFrom fun span => .addDecl fun node => by
      simp [List.count_cons, Nat.add_comm]

/-- The type of the specifiers is lent, since the first declarator holds it. -/
theorem nextDeclarator?_passes (make : rules.AllMake) {start : Location}
    {specifiers : Specifiers} :
    Passes (parts specifiers) [] (nextDeclarator? rules start specifiers) parts := by
  refine .past .accept fun comma => ?_
  split
  · refine .bind (declarator_passes make).borrow fun next => .map ?_
    exact (initDeclarator_passes make).alone
  · exact .pure fun _ => rfl

theorem declaration_makes (make : rules.AllMake)
    {define : Location → Specifiers → Declarator → Parse DeclId}
    (defines : ∀ start specifiers declarator,
      Passes [] (parts declarator) (define start specifiers declarator) parts) :
    Makes (declaration rules define) := by
  refine .past .here fun start => .bind (specifiers_makes make) fun specifiers => ?_
  refine .past .accept fun alone => ?_
  split
  · refine .past .spanFrom fun span => .bind (.addDecl fun _ => rfl) fun tagOnly => ?_
    exact .pure fun node => by simp
  · refine .lend (.bind (declarator_passes make).alone fun first => .past .at? fun body => ?_)
    refine .past (.looking typeNode_observes) fun type => ?_
    split
    · refine .bind (defines start specifiers first).alone fun decl => ?_
      exact .pure fun node => by simp
    · refine .bind (initDeclarator_passes make).alone fun decl => ?_
      refine .andThen (.many (nextDeclarator?_passes make)) fun others => .past .expect fun _ => ?_
      exact .pure fun node => by simp [List.count_cons, Nat.add_comm]

/-! ## Labels and blocks -/

theorem labelForm?_makes (make : rules.AllMake) : Makes (labelForm? rules) := by
  refine .past .peek fun kind => ?_
  split
  · refine .past (.looking peekNext_observes) fun behind => ?_
    split
    · exact .past .advance fun _ => .past .advance fun _ => .pure fun _ => rfl
    · exact .pure fun _ => rfl
  · refine .past .advance fun _ => .bind (conditional_makes make) fun value => ?_
    exact .past .expect fun _ => .pure fun _ => rfl
  · exact .past .advance fun _ => .past .expect fun _ => .pure fun _ => rfl
  · exact .pure fun _ => rfl

theorem label?_makes (make : rules.AllMake) : Makes (label? rules) := by
  refine .past .here fun start => .bind (labelForm?_makes make) fun form => ?_
  cases form with
  | some form => exact .past .spanFrom fun span => .map (.addLabel fun _ => rfl)
  | none => exact .pure fun _ => rfl

theorem declarationStatements_makes (make : rules.AllMake) :
    Makes (declarationStatements rules) := by
  refine .bind (declaration_makes make fun _ _ _ => .fail) fun decls => .mapM (fun decl => ?_) decls
  exact .past (.looking declSpan_observes) fun span => .addStmt fun node => by simp

theorem blockItem?_makes (make : rules.AllMake) : Makes (blockItem? rules) := by
  refine .past .peek fun kind => ?_
  split
  · exact .pure fun _ => rfl
  · exact .pure fun _ => rfl
  · refine .past (.looking scopes_observes) fun scopes => ?_
    refine .past (.looking peekNext_observes) fun behind => ?_
    split
    · exact .map (declarationStatements_makes make)
    · exact .bind make.statement fun only => .pure fun node => by simp

theorem block_makes (make : rules.AllMake) : Makes (block rules) := by
  refine .past .expect fun _ => .bind (.inScope (.many (blockItem?_makes make))) fun items => ?_
  exact .past .expect fun _ => .pure fun node => by simp [parts_flatten]

/-! ## Statements by their keyword -/

theorem parenthesized_makes (make : rules.AllMake) {before after : String} :
    Makes (parenthesized rules before after) :=
  .past .expect fun _ => .bind (expression_makes make) fun _ => .past .expect fun _ =>
    .pure fun _ => rfl

theorem expressionUnless_makes (make : rules.AllMake) {stop : Punctuator} :
    Makes (expressionUnless rules stop) := by
  refine .past .at? fun stops => ?_
  split
  · exact .pure fun _ => rfl
  · exact .map (expression_makes make)

theorem elseBranch?_makes (make : rules.AllMake) : Makes (elseBranch? rules) := by
  refine .past .accept fun taken => ?_
  split
  · exact .map make.statement
  · exact .pure fun _ => rfl

theorem ifStatement_makes (make : rules.AllMake) : Makes (ifStatement rules) := by
  refine .bind (parenthesized_makes make) fun condition => .andThen make.statement fun body => ?_
  refine .andThen (elseBranch?_makes make) fun otherwise => .pure fun node => ?_
  simp only [parts_exprId, parts_stmtId, parts_stmtForm, Stmt.Form.parts, List.count_append,
    List.count_cons, List.count_nil]
  omega

theorem whileStatement_makes (make : rules.AllMake) : Makes (whileStatement rules) := by
  refine .bind (parenthesized_makes make) fun condition => .andThen make.statement fun body => ?_
  exact .pure fun node => by simp [List.count_cons, Nat.add_comm]

theorem doStatement_makes (make : rules.AllMake) : Makes (doStatement rules) := by
  refine .bind make.statement fun body => .past .expect fun _ => ?_
  refine .andThen (parenthesized_makes make) fun condition => .past .expect fun _ => ?_
  exact .pure fun node => by simp [List.count_cons, Nat.add_comm]

theorem switchStatement_makes (make : rules.AllMake) : Makes (switchStatement rules) := by
  refine .bind (parenthesized_makes make) fun condition => .andThen make.statement fun body => ?_
  exact .pure fun node => by simp [List.count_cons, Nat.add_comm]

theorem forStart_makes (make : rules.AllMake) : Makes (forStart rules) := by
  refine .past (.looking scopes_observes) fun scopes => .past .peek fun kind => ?_
  split
  · refine .past .here fun start => .bind (specifiers_makes make) fun specifiers => ?_
    refine .bind (declarator_passes make) fun declarator => ?_
    refine .bind (initDeclarator_passes make) fun decl => .past .at? fun another => ?_
    dsimp only
    split
    · exact .refuse
    · exact .past .expect fun _ => .pure fun _ => rfl
  · refine .past .accept fun empty => ?_
    split
    · exact .pure fun _ => rfl
    · refine .bind (expression_makes make) fun value => .past .expect fun _ => ?_
      exact .pure fun _ => rfl

theorem forClauses_makes (make : rules.AllMake) : Makes (forClauses rules) := by
  refine .bind (forStart_makes make) fun (pre, decl) => ?_
  refine .andThen (expressionUnless_makes make) fun condition => .past .expect fun _ => ?_
  refine .andThen (expressionUnless_makes make) fun post => .past .expect fun _ => ?_
  refine .andThen make.statement fun body => .pure fun node => ?_
  simp only [parts_pair, parts_stmtId, parts_stmtForm, Stmt.Form.parts, List.count_append,
    List.count_cons, List.count_nil]
  omega

theorem forStatement_makes (make : rules.AllMake) : Makes (forStatement rules) :=
  .past .expect fun _ => .inScope (forClauses_makes make)

theorem returnStatement_makes (make : rules.AllMake) : Makes (returnStatement rules) :=
  .bind (expressionUnless_makes make) fun _ => .past .expect fun _ => .pure fun _ => rfl

theorem gotoStatement_makes : Makes gotoStatement :=
  .past .identifier fun _ => .past .expect fun _ => .pure fun _ => rfl

theorem expressionStatement_makes (make : rules.AllMake) : Makes (expressionStatement rules) :=
  .bind (expression_makes make) fun _ => .past .expect fun _ => .pure fun _ => rfl

theorem unlabeled_makes (make : rules.AllMake) : Makes (unlabeled rules) := by
  refine .past .peek fun kind => ?_
  split
  · exact block_makes make
  · exact .past .advance fun _ => .pure fun _ => rfl
  · exact .past .advance fun _ => ifStatement_makes make
  · exact .past .advance fun _ => whileStatement_makes make
  · exact .past .advance fun _ => doStatement_makes make
  · exact .past .advance fun _ => forStatement_makes make
  · exact .past .advance fun _ => switchStatement_makes make
  · exact .past .advance fun _ => returnStatement_makes make
  · exact .past .advance fun _ => .past .expect fun _ => .pure fun _ => rfl
  · exact .past .advance fun _ => .past .expect fun _ => .pure fun _ => rfl
  · exact .past .advance fun _ => gotoStatement_makes
  · exact expressionStatement_makes make

theorem statement_makes (make : rules.AllMake) : Makes (statement rules) := by
  refine .past .here fun start => .bind (.many (label?_makes make)) fun labels => ?_
  refine .andThen (unlabeled_makes make) fun form => .past .spanFrom fun span => ?_
  exact .addStmt fun _ => rfl

theorem compoundStatement_makes (make : rules.AllMake) : Makes (compoundStatement rules) := by
  refine .past .here fun start => .bind (block_makes make) fun form => ?_
  exact .past .spanFrom fun span => .addStmt fun node => by simp

end SyntaxGraph.Grammar
