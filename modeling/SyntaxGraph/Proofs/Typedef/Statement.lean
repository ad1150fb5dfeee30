import SyntaxGraph.Proofs.Typedef.Declaration

/-!
# Accounts of statements and files

A form hands on the declaration that it holds, which is put into the statement with it.  A
`for` statement holds its declaration back while its body is read.  The declarations of a
file are put nowhere: they are what reading it gives.
-/

set_option autoImplicit false

namespace SyntaxGraph

/-- The declaration that a form holds. -/
def Stmt.Form.decl? : Stmt.Form → Option DeclId
  | .decl id => some id
  | .forLoop _ _ _ held _ => held
  | _ => none

theorem Stmt.decl_eq (stmt : Stmt) : stmt.decl = stmt.form.decl? := by
  unfold Stmt.decl
  cases stmt.form <;> rfl

namespace Grammar

open Token (Kind Keyword Punctuator)

variable {tokens : Tokens} {depth : Nat}

abbrev TellsStmt {α : Type} (tokens : Tokens) (reading : Parse α) : Prop :=
  Tells tokens [] reading fun _ => []

abbrev TellsForm (tokens : Tokens) (reading : Parse Stmt.Form) : Prop :=
  Tells tokens [] reading fun form => form.decl?.toList

theorem addStmt_tells {stmt : Stmt} :
    Tells tokens stmt.form.decl?.toList (Parse.addStmt stmt) fun _ => [] := by
  intro s id t _ run
  obtain ⟨rfl, rfl⟩ := add_ok run
  exact ⟨[], _, .addStmt s stmt, nofun, by simp [stmt.decl_eq]⟩

/-- What is used already is kept for later. -/
theorem Tells.beside {α : Type} {reading : Parse α} (tells : TellsStmt tokens reading)
    (kept : List DeclId) : Tells tokens kept reading fun _ => kept := by
  simpa using tells.keep kept []

theorem declarationStatements_tells :
    TellsStmt tokens (declarationStatements (Rules.nested depth)) := by
  refine (declaration_tells fun _ _ _ => .fail).bind fun decls => ?_
  exact .mapM (fun id => .past .declSpan fun span => addStmt_tells) decls

theorem forStart_tells :
    Tells tokens [] (forStart (Rules.nested depth)) fun first => first.2.toList := by
  have parts : (Rules.nested depth).PartsFollow Silent := Rules.nested_parts depth
  refine .past .scopes fun scopes => .past .peek fun kind => ?_
  split
  · refine .past .here fun start => .past (specifiers_follows parts) fun specifiers => ?_
    refine .past (declarator_follows parts) fun declarator => ?_
    refine initDeclarator_tells.bind fun decl => .past .at? fun another => ?_
    dsimp only
    split
    · exact .refuse
    · exact .past .expect fun _ => .pure rfl
  · refine .past .accept fun empty => ?_
    split
    · exact .pure rfl
    · exact .past (expression_follows parts) fun value => .past .expect fun _ => .pure rfl

section Statements

variable (tells : TellsStmt tokens (Rules.nested depth).statement)

include tells

theorem blockItem?_tells :
    Tells tokens [] (blockItem? (Rules.nested depth)) (·.elim [] fun _ => []) := by
  refine .past .peek fun kind => ?_
  split
  · exact .pure rfl
  · exact .pure rfl
  · refine .past .scopes fun scopes => .past .peekNext fun behind => ?_
    split
    · exact .map declarationStatements_tells
    · exact tells.bind fun only => .pure rfl

theorem block_tells : TellsForm tokens (block (Rules.nested depth)) := by
  refine .past .expect fun _ => .bind (.inScope (.many (blockItem?_tells tells))) fun items => ?_
  exact .past .expect fun _ => .pure (by simp [Stmt.Form.decl?])

theorem compoundStatement_tells : TellsStmt tokens (compoundStatement (Rules.nested depth)) :=
  .past .here fun _ => (block_tells tells).bind fun _ => .past .spanFrom fun _ => addStmt_tells

theorem elseBranch?_tells : TellsStmt tokens (elseBranch? (Rules.nested depth)) := by
  refine .past .accept fun taken => ?_
  split
  · exact .map tells
  · exact .pure rfl

theorem ifStatement_tells : TellsForm tokens (ifStatement (Rules.nested depth)) := by
  refine .past (parenthesized_follows (Rules.nested_parts depth)) fun condition => ?_
  exact tells.bind fun body => (elseBranch?_tells tells).bind fun otherwise => .pure rfl

theorem whileStatement_tells : TellsForm tokens (whileStatement (Rules.nested depth)) :=
  .past (parenthesized_follows (Rules.nested_parts depth)) fun _ => tells.bind fun _ => .pure rfl

theorem doStatement_tells : TellsForm tokens (doStatement (Rules.nested depth)) := by
  refine tells.bind fun body => .past .expect fun _ => ?_
  refine .past (parenthesized_follows (Rules.nested_parts depth)) fun condition => ?_
  exact .past .expect fun _ => .pure rfl

theorem switchStatement_tells : TellsForm tokens (switchStatement (Rules.nested depth)) :=
  .past (parenthesized_follows (Rules.nested_parts depth)) fun _ => tells.bind fun _ => .pure rfl

/-- The declaration is held back while the clauses and the body are read. -/
theorem forStatement_tells : TellsForm tokens (forStatement (Rules.nested depth)) := by
  have parts : (Rules.nested depth).PartsFollow Silent := Rules.nested_parts depth
  refine .past .expect fun _ => .inScope (forStart_tells.bind fun ⟨pre, decl⟩ => ?_)
  refine .past (expressionUnless_follows parts) fun condition => .past .expect fun _ => ?_
  refine .past (expressionUnless_follows parts) fun post => .past .expect fun _ => ?_
  exact (tells.beside decl.toList).bind fun body => .pure rfl

theorem unlabeled_tells : TellsForm tokens (unlabeled (Rules.nested depth)) := by
  have parts : (Rules.nested depth).PartsFollow Silent := Rules.nested_parts depth
  refine .past .peek fun kind => ?_
  split
  · exact block_tells tells
  · exact .past .advance fun _ => .pure rfl
  · exact .past .advance fun _ => ifStatement_tells tells
  · exact .past .advance fun _ => whileStatement_tells tells
  · exact .past .advance fun _ => doStatement_tells tells
  · exact .past .advance fun _ => forStatement_tells tells
  · exact .past .advance fun _ => switchStatement_tells tells
  · refine .past .advance fun _ => .past (expressionUnless_follows parts) fun value => ?_
    exact .past .expect fun _ => .pure rfl
  · exact .past .advance fun _ => .past .expect fun _ => .pure rfl
  · exact .past .advance fun _ => .past .expect fun _ => .pure rfl
  · refine .past .advance fun _ => .past .identifier fun label => .past .expect fun _ => ?_
    exact .pure rfl
  · exact .past (expression_follows parts) fun value => .past .expect fun _ => .pure rfl

theorem statement_tells : TellsStmt tokens (statement (Rules.nested depth)) := by
  have parts : (Rules.nested depth).PartsFollow Silent := Rules.nested_parts depth
  refine .past .here fun start => .past (.many (label?_follows parts)) fun labels => ?_
  exact (unlabeled_tells tells).bind fun form => .past .spanFrom fun span => addStmt_tells

end Statements

theorem Rules.nested_tells (depth : Nat) : TellsStmt tokens (Rules.nested depth).statement := by
  induction depth with
  | zero => exact .fail
  | succ depth ih => exact statement_tells ih

/-! ## Files -/

theorem functionBody_tells {type : TypeId} :
    TellsStmt tokens (functionBody (Rules.nested depth) type) := by
  refine .inScope (.past .typeNode fun node => .past (.forM (fun parameter => ?_) _) fun _ => ?_)
  · exact .bind .declName fun _ => .bindObject
  · exact compoundStatement_tells (Rules.nested_tells depth)

theorem functionDefinition_tells {start : Location} {specifiers : Specifiers}
    {declarator : Declarator} : Tells tokens []
      (functionDefinition (Rules.nested depth) start specifiers declarator) fun id => [id] := by
  intro s id t standing run
  have creates : Creates tokens id t := .definition standing run
  obtain ⟨name, body, span, middle, -, reads, rfl, rfl⟩ := functionDefinition_ok run
  have binds : Accounts tokens [] s (s.bindName name .object) [] :=
    .of_silent (Permits.plain (.bindObject s name))
  have inner := functionBody_tells _ body middle (binds.standing standing) reads
  exact (binds.trans inner).trans (.declared (fun _ => .inr rfl) fun _ => creates)

theorem external?_tells :
    Tells tokens [] (external? (Rules.nested depth)) (·.elim [] External.decls) := by
  refine .past .at? fun ended => ?_
  split
  · exact .pure rfl
  · refine .past .here fun start => ?_
    refine (declaration_tells fun _ _ _ => functionDefinition_tells).bind fun decls => ?_
    exact .past .finishBefore fun finish => .pure rfl

theorem translationUnit_tells {comments : List Comment} :
    Tells tokens [] (translationUnit comments) fun decls => decls := by
  refine .past .read fun all => (Tells.many external?_tells).bind fun units => ?_
  exact .past attachComments_follows fun left => .past annotate_follows fun _ => .pure rfl

end Grammar

end SyntaxGraph
