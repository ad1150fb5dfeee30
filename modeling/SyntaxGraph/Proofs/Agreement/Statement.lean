import SyntaxGraph.Grammar.Statement
import SyntaxGraph.Proofs.Agreement.Declarator

/-!
# Declarations and statements are read by the kinds of their tokens

The designators of an initializer hold spans of their own; two lists of them are related if
they are the same with places erased.  The place where a declaration starts goes on to the
declarations of all of its names.
-/

set_option autoImplicit false

namespace SyntaxGraph.Grammar

open Token (Kind Keyword Punctuator)

variable {rules : Rules} {start other : Location}

/-! ## Initializers -/

/-- Designators that are the same when places are erased. -/
def Designator.Alike (designator copy : Designator) : Prop := designator.erased = copy.erased

theorem Designator.map_erased {found copies : List Designator}
    (all : List.Forall₂ Designator.Alike found copies) :
    found.map Designator.erased = copies.map Designator.erased := by
  induction all with
  | nil => rfl
  | cons same _ ih => rw [List.map_cons, List.map_cons, same, ih]

theorem designator?_agree (blind : rules.AllBlind) :
    Agree (Option.Rel Designator.Alike) (designator? rules) (designator? rules) := by
  refine .anyhow .here fun start other => .same .accept fun dot => ?_
  split
  · exact .same .identifier fun name => .anyhow .spanFrom fun _ _ => .pure (.some rfl)
  · refine .same .accept fun bracket => ?_
    split
    · refine blind.conditional.same fun index => .same .expect fun _ => ?_
      exact .anyhow .spanFrom fun _ _ => .pure (.some rfl)
    · exact .pure .none

theorem designation_agree (blind : rules.AllBlind) :
    Agree (List.Forall₂ Designator.Alike) (designation rules) (designation rules) := by
  refine .bind (.many (designator?_agree blind)) fun found copies all => ?_
  cases all with
  | nil => exact .pure .nil
  | cons same others => exact .same .expect fun _ => .pure (.cons same others)

theorem spannedInit_agree {designators copies : List Designator}
    (all : List.Forall₂ Designator.Alike designators copies) {form : Init.Form} :
    Agree Eq (do Parse.addInit { designators, form, span := ← Parse.spanFrom start })
      (do Parse.addInit { designators := copies, form, span := ← Parse.spanFrom other }) := by
  refine .anyhow .spanFrom fun _ _ => .addInit ?_
  simp only [Init.erased, Designator.map_erased all]

theorem initializerItem_blind (blind : rules.AllBlind) : Blind (initializerItem rules) := by
  refine .anyhow .here fun start other => ?_
  refine (designation_agree blind).bind fun designators copies all => ?_
  refine .same .accept fun braced => ?_
  split
  · exact blind.initializers.same fun items => spannedInit_agree all
  · exact (assignment_blind blind).same fun value => spannedInit_agree all

theorem initializers_blind (blind : rules.AllBlind) : Blind (initializers rules) :=
  .same (.listed (initializerItem_blind blind)) fun _ => .same .expect fun _ => .pure rfl

theorem initializer_blind (blind : rules.AllBlind) : Blind (initializer rules) := by
  refine .anyhow .here fun start other => .same .accept fun braced => ?_
  split
  · exact (initializers_blind blind).same fun items => spannedInit_agree .nil
  · exact (assignment_blind blind).same fun value => spannedInit_agree .nil

/-! ## Declarations -/

theorem initializer?_blind (blind : rules.AllBlind) {storage : Storage} {name : String} :
    Blind (initializer? rules storage name) := by
  refine .same .accept fun equals => ?_
  split
  · dsimp only
    split
    · exact .refuse
    · exact .mapSame (initializer_blind blind)
  · exact .pure rfl

theorem initDeclarator_agree (blind : rules.AllBlind) {specifiers : Specifiers}
    {declarator : Declarator} :
    Agree Eq (initDeclarator rules start specifiers declarator)
      (initDeclarator rules other specifiers declarator) := by
  unfold initDeclarator
  split
  · exact .fail
  · refine .same .bindName fun _ => (initializer?_blind blind).same fun init => ?_
    exact .anyhow .spanFrom fun _ _ => .addDecl rfl

theorem nextDeclarator?_agree (blind : rules.AllBlind) {specifiers : Specifiers} :
    Agree Eq (nextDeclarator? rules start specifiers)
      (nextDeclarator? rules other specifiers) := by
  refine .same .accept fun comma => ?_
  split
  · refine (declarator_blind blind).same fun next => ?_
    exact .mapSame (initDeclarator_agree blind)
  · exact .pure rfl

/-- What is done with the body of a function may depend on the place where the definition
starts, as long as it agrees at all places. -/
theorem declaration_blind (blind : rules.AllBlind)
    {define : Location → Specifiers → Declarator → Parse DeclId}
    (defines : ∀ start other specifiers declarator,
      Agree Eq (define start specifiers declarator) (define other specifiers declarator)) :
    Blind (declaration rules define) := by
  refine .anyhow .here fun start other => (specifiers_blind blind).same fun specifiers => ?_
  refine .same .accept fun alone => ?_
  split
  · exact .anyhow .spanFrom fun _ _ => .same (.addDecl rfl) fun _ => .pure rfl
  · refine (declarator_blind blind).same fun first => .same .at? fun body => ?_
    refine .bind .typeNode fun node copy equal => ?_
    rw [TypeNode.kind_eq equal]
    split
    · exact (defines start other specifiers first).same fun _ => .pure rfl
    · refine (initDeclarator_agree blind).same fun decl => ?_
      refine .same (.manySame (nextDeclarator?_agree blind)) fun others => ?_
      exact .same .expect fun _ => .pure rfl

/-! ## Labels and blocks -/

theorem labelForm?_blind (blind : rules.AllBlind) : Blind (labelForm? rules) := by
  refine .same .peek fun kind => ?_
  split
  · refine .same .peekNext fun behind => ?_
    split
    · exact .same .advance fun _ => .same .advance fun _ => .pure rfl
    · exact .pure rfl
  · refine .same .advance fun _ => (conditional_blind blind).same fun value => ?_
    exact .same .expect fun _ => .pure rfl
  · exact .same .advance fun _ => .same .expect fun _ => .pure rfl
  · exact .pure rfl

theorem label?_blind (blind : rules.AllBlind) : Blind (label? rules) := by
  refine .anyhow .here fun start other => (labelForm?_blind blind).same fun form => ?_
  cases form with
  | some form => exact .anyhow .spanFrom fun _ _ => .mapSame (.addLabel rfl)
  | none => exact .pure rfl

theorem declarationStatements_blind (blind : rules.AllBlind) :
    Blind (declarationStatements rules) := by
  refine (declaration_blind blind fun _ _ _ _ => .fail).same fun decls => ?_
  refine .mapM (fun decl => .anyhow .declSpan fun span copy => ?_) decls
  exact .addStmt rfl

theorem blockItem?_blind (blind : rules.AllBlind) : Blind (blockItem? rules) := by
  refine .same .peek fun kind => ?_
  split
  · exact .pure rfl
  · exact .pure rfl
  · refine .same .scopes fun scopes => .same .peekNext fun behind => ?_
    split
    · exact .mapSame (declarationStatements_blind blind)
    · exact blind.statement.same fun only => .pure rfl

theorem block_blind (blind : rules.AllBlind) : Blind (block rules) := by
  refine .same .expect fun _ => ?_
  refine .same (.inScope (.manySame (blockItem?_blind blind))) fun items => ?_
  exact .same .expect fun _ => .pure rfl

/-! ## Statements by their keyword -/

theorem parenthesized_blind (blind : rules.AllBlind) {before after : String} :
    Blind (parenthesized rules before after) :=
  .same .expect fun _ => (expression_blind blind).same fun _ =>
    .same .expect fun _ => .pure rfl

theorem expressionUnless_blind (blind : rules.AllBlind) {stop : Punctuator} :
    Blind (expressionUnless rules stop) := by
  refine .same .at? fun stops => ?_
  split
  · exact .pure rfl
  · exact .mapSame (expression_blind blind)

theorem elseBranch?_blind (blind : rules.AllBlind) : Blind (elseBranch? rules) := by
  refine .same .accept fun taken => ?_
  split
  · exact .mapSame blind.statement
  · exact .pure rfl

theorem ifStatement_blind (blind : rules.AllBlind) : Blind (ifStatement rules) := by
  refine (parenthesized_blind blind).same fun condition => blind.statement.same fun body => ?_
  exact (elseBranch?_blind blind).same fun otherwise => .pure rfl

theorem whileStatement_blind (blind : rules.AllBlind) : Blind (whileStatement rules) :=
  (parenthesized_blind blind).same fun _ => blind.statement.same fun _ => .pure rfl

theorem doStatement_blind (blind : rules.AllBlind) : Blind (doStatement rules) := by
  refine blind.statement.same fun body => .same .expect fun _ => ?_
  refine (parenthesized_blind blind).same fun condition => ?_
  exact .same .expect fun _ => .pure rfl

theorem switchStatement_blind (blind : rules.AllBlind) : Blind (switchStatement rules) :=
  (parenthesized_blind blind).same fun _ => blind.statement.same fun _ => .pure rfl

theorem forStart_blind (blind : rules.AllBlind) : Blind (forStart rules) := by
  refine .same .scopes fun scopes => .same .peek fun kind => ?_
  split
  · refine .anyhow .here fun start other => (specifiers_blind blind).same fun specifiers => ?_
    refine (declarator_blind blind).same fun declarator => ?_
    refine (initDeclarator_agree blind).same fun decl => .same .at? fun another => ?_
    dsimp only
    split
    · exact .refuse
    · exact .same .expect fun _ => .pure rfl
  · refine .same .accept fun empty => ?_
    split
    · exact .pure rfl
    · exact (expression_blind blind).same fun value => .same .expect fun _ => .pure rfl

theorem forClauses_blind (blind : rules.AllBlind) : Blind (forClauses rules) := by
  refine (forStart_blind blind).same fun first => ?_
  refine (expressionUnless_blind blind).same fun condition => .same .expect fun _ => ?_
  refine (expressionUnless_blind blind).same fun post => .same .expect fun _ => ?_
  exact blind.statement.same fun body => .pure rfl

theorem forStatement_blind (blind : rules.AllBlind) : Blind (forStatement rules) :=
  .same .expect fun _ => .inScope (forClauses_blind blind)

theorem returnStatement_blind (blind : rules.AllBlind) : Blind (returnStatement rules) :=
  (expressionUnless_blind blind).same fun _ => .same .expect fun _ => .pure rfl

theorem gotoStatement_blind : Blind gotoStatement :=
  .same .identifier fun _ => .same .expect fun _ => .pure rfl

theorem expressionStatement_blind (blind : rules.AllBlind) :
    Blind (expressionStatement rules) :=
  (expression_blind blind).same fun _ => .same .expect fun _ => .pure rfl

theorem unlabeled_blind (blind : rules.AllBlind) : Blind (unlabeled rules) := by
  refine .same .peek fun kind => ?_
  split
  · exact block_blind blind
  · exact .same .advance fun _ => .pure rfl
  · exact .same .advance fun _ => ifStatement_blind blind
  · exact .same .advance fun _ => whileStatement_blind blind
  · exact .same .advance fun _ => doStatement_blind blind
  · exact .same .advance fun _ => forStatement_blind blind
  · exact .same .advance fun _ => switchStatement_blind blind
  · exact .same .advance fun _ => returnStatement_blind blind
  · exact .same .advance fun _ => .same .expect fun _ => .pure rfl
  · exact .same .advance fun _ => .same .expect fun _ => .pure rfl
  · exact .same .advance fun _ => gotoStatement_blind
  · exact expressionStatement_blind blind

theorem statement_blind (blind : rules.AllBlind) : Blind (statement rules) := by
  refine .anyhow .here fun start other => .same (.manySame (label?_blind blind)) fun labels => ?_
  refine (unlabeled_blind blind).same fun form => ?_
  exact .anyhow .spanFrom fun _ _ => .addStmt rfl

theorem compoundStatement_blind (blind : rules.AllBlind) : Blind (compoundStatement rules) := by
  refine .anyhow .here fun start other => (block_blind blind).same fun form => ?_
  exact .anyhow .spanFrom fun _ _ => .addStmt rfl

end SyntaxGraph.Grammar
