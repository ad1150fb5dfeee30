import SyntaxGraph.Grammar.Declaration

/-!
# Statements

A statement is a list of labels and then one form.  A block opens a scope, and so
does a `for` statement for all of its clauses and its body; an `else` goes with the
`if` read last.  In a block, a token that can begin a declaration begins one, unless
a colon behind it makes it a label.
-/

set_option autoImplicit false

namespace SyntaxGraph.Grammar

open Token (Kind Keyword Punctuator)
open Parse

/-! ## Labels -/

/-- The form of one label, if one begins at the current token. -/
def labelForm? (rules : Rules) : Parse (Option Label.Form) := do
  match ← peek with
  | .identifier name =>
    if (← peekNext) = .punctuator .colon then
      advance
      advance
      return some (.named name)
    else return none
  | .keyword .caseKw =>
    advance
    let value ← conditional rules
    expectMark .colon "after case value"
    return some (.case value)
  | .keyword .defaultKw =>
    advance
    expectMark .colon "after 'default'"
    return some .default
  | _ => return none

def label? (rules : Rules) : Parse (Option LabelId) := do
  let start ← here
  match ← labelForm? rules with
  | some form => some <$> addLabel { form, span := ← spanFrom start }
  | none => return none

/-! ## Blocks -/

/-- A declaration in a block: one statement for each name. -/
def declarationStatements (rules : Rules) : Parse (List StmtId) := do
  let decls ← declaration rules fun _ _ _ => fail .nestedFunction
  decls.mapM fun decl => do addStmt { form := .decl decl, span := ← declSpan decl }

/-- The statements of one more block item, if the block goes on. -/
def blockItem? (rules : Rules) : Parse (Option (List StmtId)) := do
  match ← peek with
  | .punctuator .braceClose => return none
  | .eof => return none
  | kind =>
    if startsDeclaration (← scopes) kind && (← peekNext) ≠ .punctuator .colon then
      some <$> declarationStatements rules
    else
      let only ← rules.statement
      return some [only]

def block (rules : Rules) : Parse Stmt.Form := do
  expectMark .braceOpen "to open block"
  let items ← inScope (many (blockItem? rules))
  expectMark .braceClose "after block"
  return .block items.flatten

/-! ## Statements by their keyword -/

/-- An expression in parentheses; the two contexts go into the errors. -/
def parenthesized (rules : Rules) (before after : String) : Parse ExprId := do
  expectMark .parenOpen before
  let value ← expression rules
  expectMark .parenClose after
  return value

/-- An expression, unless `stop` is the current token. -/
def expressionUnless (rules : Rules) (stop : Punctuator) : Parse (Option ExprId) := do
  if ← at? (.punctuator stop) then return none else some <$> expression rules

/-- The statement behind an `else`, if there is one. -/
def elseBranch? (rules : Rules) : Parse (Option StmtId) := do
  if ← accept (.keyword .elseKw) then some <$> rules.statement else return none

def ifStatement (rules : Rules) : Parse Stmt.Form := do
  let condition ← parenthesized rules "after 'if'" "after if condition"
  let body ← rules.statement
  let otherwise ← elseBranch? rules
  return .ifElse condition body otherwise

def whileStatement (rules : Rules) : Parse Stmt.Form := do
  let condition ← parenthesized rules "after 'while'" "after while condition"
  let body ← rules.statement
  return .whileLoop condition body

def doStatement (rules : Rules) : Parse Stmt.Form := do
  let body ← rules.statement
  expect (.keyword .whileKw) "after do body"
  let condition ← parenthesized rules "after 'while'" "after do-while condition"
  expectMark .semicolon "after do-while"
  return .doWhile body condition

def switchStatement (rules : Rules) : Parse Stmt.Form := do
  let condition ← parenthesized rules "after 'switch'" "after switch expression"
  let body ← rules.statement
  return .switch condition body

/-- The first clause of a `for` statement, with its semicolon: an expression or the
declaration of one name. -/
def forStart (rules : Rules) : Parse (Option ExprId × Option DeclId) := do
  if startsDeclaration (← scopes) (← peek) then
    let start ← here
    let specifiers ← specifiers rules
    let declarator ← declarator rules specifiers.type false
    let decl ← initDeclarator rules start specifiers declarator
    if ← at? (.punctuator .comma) then fail .secondForDeclaration
    expectMark .semicolon "after for initializer"
    return (none, some decl)
  else if ← acceptMark .semicolon then return (none, none)
  else
    let value ← expression rules
    expectMark .semicolon "after for initializer"
    return (some value, none)

def forClauses (rules : Rules) : Parse Stmt.Form := do
  let (pre, decl) ← forStart rules
  let condition ← expressionUnless rules .semicolon
  expectMark .semicolon "after for condition"
  let post ← expressionUnless rules .parenClose
  expectMark .parenClose "after for clauses"
  let body ← rules.statement
  return .forLoop pre condition post decl body

def forStatement (rules : Rules) : Parse Stmt.Form := do
  expectMark .parenOpen "after 'for'"
  inScope (forClauses rules)

def returnStatement (rules : Rules) : Parse Stmt.Form := do
  let value ← expressionUnless rules .semicolon
  expectMark .semicolon "after return"
  return .returnValue value

def gotoStatement : Parse Stmt.Form := do
  let label ← identifier
  expectMark .semicolon "after 'goto'"
  return .goto label

def expressionStatement (rules : Rules) : Parse Stmt.Form := do
  let value ← expression rules
  expectMark .semicolon "after expression"
  return .expr value

/-- A statement without its labels. -/
def unlabeled (rules : Rules) : Parse Stmt.Form := do
  match ← peek with
  | .punctuator .braceOpen => block rules
  | .punctuator .semicolon =>
    advance
    return .empty
  | .keyword .ifKw =>
    advance
    ifStatement rules
  | .keyword .whileKw =>
    advance
    whileStatement rules
  | .keyword .doKw =>
    advance
    doStatement rules
  | .keyword .forKw =>
    advance
    forStatement rules
  | .keyword .switchKw =>
    advance
    switchStatement rules
  | .keyword .returnKw =>
    advance
    returnStatement rules
  | .keyword .breakKw =>
    advance
    expectMark .semicolon "after 'break'"
    return .breakOut
  | .keyword .continueKw =>
    advance
    expectMark .semicolon "after 'continue'"
    return .continueOn
  | .keyword .gotoKw =>
    advance
    gotoStatement
  | _ => expressionStatement rules

def statement (rules : Rules) : Parse StmtId := do
  let start ← here
  let labels ← many (label? rules)
  let form ← unlabeled rules
  addStmt { form, labels, span := ← spanFrom start }

/-- A block as a statement, which is what the body of a function is. -/
def compoundStatement (rules : Rules) : Parse StmtId := do
  let start ← here
  let form ← block rules
  addStmt { form, span := ← spanFrom start }

end SyntaxGraph.Grammar
