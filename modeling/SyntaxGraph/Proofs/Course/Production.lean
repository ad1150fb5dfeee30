import SyntaxGraph.Proofs.Course.TranslationUnit

/-!
# The functions of the grammar

`Production` lists what the grammar is made of over given rules: the readings of single
tokens and the changes of the state that all rules share, and then every rule with its
parts.  What holds of every course holds of each of them.
-/

set_option autoImplicit false

namespace SyntaxGraph.Grammar

open Token (Kind Keyword Punctuator)

/-- The reading is a function of the grammar over these rules. -/
inductive Production (rules : Rules) : {α : Type} → Parse α → Prop
  -- Tokens, nodes and names
  | moveTo (place : Nat) : Production rules (Parse.moveTo place)
  | advance : Production rules Parse.advance
  | accept (kind : Kind) : Production rules (Parse.accept kind)
  | expect (kind : Kind) (context : String) : Production rules (Parse.expect kind context)
  | identifier : Production rules Parse.identifier
  | identifier? : Production rules Parse.identifier?
  | addDecl (decl : Decl) : Production rules (Parse.addDecl decl)
  | addType (type : TypeNode) : Production rules (Parse.addType type)
  | addExpr (form : Expr.Form) (span : Span) : Production rules (Parse.addExpr form span)
  | addStmt (stmt : Stmt) : Production rules (Parse.addStmt stmt)
  | addInit (init : Init) : Production rules (Parse.addInit init)
  | addLabel (label : Label) : Production rules (Parse.addLabel label)
  | modifyComments (id : DeclId) (change : Comments → Comments) :
    Production rules (Parse.modifyComments id change)
  | bindName (name : String) (kind : NameKind) : Production rules (Parse.bindName name kind)
  | note (id : TypeId) (earlier : List DeclId) :
    Production rules (Parse.note (.completed id earlier))
  -- Expressions
  | argumentList : Production rules (argumentList rules)
  | arguments : Production rules (arguments rules)
  | suffixRound (start : Location) (operand : ExprId) :
    Production rules (suffixRound rules start operand)
  | suffixed (operand : ExprId) : Production rules (suffixed rules operand)
  | stringPiece? : Production rules stringPiece?
  | memberPathRound (start : Location) (path : ExprId) :
    Production rules (memberPathRound rules start path)
  | memberPath : Production rules (memberPath rules)
  | primary : Production rules (primary rules)
  | sizeofOperand (start : Location) : Production rules (sizeofOperand rules start)
  | prefixOperand (op : UnaryOp) : Production rules (prefixOperand rules op)
  | unary : Production rules (unary rules)
  | cast : Production rules (cast rules)
  | joined (op : BinaryOp) (left right : ExprId) : Production rules (joined op left right)
  | binary (tier : Nat) : Production rules (binary rules tier)
  | conditional : Production rules (conditional rules)
  | assignment : Production rules (assignment rules)
  | expression : Production rules (expression rules)
  -- Specifiers
  | bitField (type : TypeId) (width : ExprId) : Production rules (bitField type width)
  | memberDeclarator (type : TypeId) : Production rules (memberDeclarator rules type)
  | memberType (type : TypeId) : Production rules (memberType rules type)
  | member (start : Location) (specifiers : Specifiers) :
    Production rules (member rules start specifiers)
  | memberGroup? : Production rules (memberGroup? rules)
  | members : Production rules (members rules)
  | enumeratorValue? : Production rules (enumeratorValue? rules)
  | enumerator (int : TypeId) : Production rules (enumerator rules int)
  | enumerators : Production rules (enumerators rules)
  | checkTagKind (id : TypeId) (kind : TypeKind) (tag : String) :
    Production rules (checkTagKind id kind tag)
  | taggedReference {word : Keyword} {kind : TypeKind} (named : tagKind? word = some kind)
      (tag : Option String) (start : Location) :
    Production rules (taggedReference kind tag start)
  | taggedOwner {word : Keyword} {kind : TypeKind} (named : tagKind? word = some kind)
      (tag : Option String) (start : Location) : Production rules (taggedOwner kind tag start)
  | tagBody (kind : TypeKind) : Production rules (tagBody rules kind)
  | taggedSpecifier {word : Keyword} {kind : TypeKind} (named : tagKind? word = some kind) :
    Production rules (taggedSpecifier rules kind)
  | specifierRound (list : SpecifierList) : Production rules (specifierRound rules list)
  | specifiedType (list : SpecifierList) (span : Span) :
    Production rules (specifiedType list span)
  | specifiers : Production rules (specifiers rules)
  -- Declarators
  | qualifierRound (qualifiers : Qualifiers) : Production rules (qualifierRound qualifiers)
  | qualifiers : Production rules qualifiers
  | pointers (base : TypeId) : Production rules (pointers base)
  | parameter : Production rules (parameter rules)
  | parameterRound (list : ParameterList) : Production rules (parameterRound rules list)
  | parameters : Production rules (parameters rules)
  | arrayLength? : Production rules (arrayLength? rules)
  | arraySuffix (start : Location) : Production rules (arraySuffix rules start)
  | functionSuffix (start : Location) : Production rules (functionSuffix rules start)
  | suffix? : Production rules (suffix? rules)
  | suffixes (base : TypeId) : Production rules (suffixes rules base)
  | skipRound (depth : Nat × Bool) : Production rules (skipRound depth)
  | skipParenthesized : Production rules skipParenthesized
  | nestedDeclarator (type : TypeId) (abstractOk : Bool) :
    Production rules (nestedDeclarator rules type abstractOk)
  | plainDeclarator (type : TypeId) (abstractOk : Bool) :
    Production rules (plainDeclarator rules type abstractOk)
  | declarator (base : TypeId) (abstractOk : Bool) :
    Production rules (declarator rules base abstractOk)
  | typeName : Production rules (typeName rules)
  -- Declarations
  | designator? : Production rules (designator? rules)
  | designation : Production rules (designation rules)
  | initializerItem : Production rules (initializerItem rules)
  | initializers : Production rules (initializers rules)
  | initializer : Production rules (initializer rules)
  | initializer? (storage : Storage) (name : String) :
    Production rules (initializer? rules storage name)
  | initDeclarator (start : Location) (specifiers : Specifiers) (declarator : Declarator) :
    Production rules (initDeclarator rules start specifiers declarator)
  | nextDeclarator? (start : Location) (specifiers : Specifiers) :
    Production rules (nextDeclarator? rules start specifiers)
  | localDeclaration : Production rules (declaration rules fun _ _ _ => .fail .nestedFunction)
  -- Statements
  | labelForm? : Production rules (labelForm? rules)
  | label? : Production rules (label? rules)
  | declarationStatements : Production rules (declarationStatements rules)
  | blockItem? : Production rules (blockItem? rules)
  | block : Production rules (block rules)
  | parenthesized (before after : String) : Production rules (parenthesized rules before after)
  | expressionUnless (stop : Punctuator) : Production rules (expressionUnless rules stop)
  | elseBranch? : Production rules (elseBranch? rules)
  | ifStatement : Production rules (ifStatement rules)
  | whileStatement : Production rules (whileStatement rules)
  | doStatement : Production rules (doStatement rules)
  | switchStatement : Production rules (switchStatement rules)
  | forStart : Production rules (forStart rules)
  | forClauses : Production rules (forClauses rules)
  | forStatement : Production rules (forStatement rules)
  | returnStatement : Production rules (returnStatement rules)
  | gotoStatement : Production rules gotoStatement
  | expressionStatement : Production rules (expressionStatement rules)
  | unlabeled : Production rules (unlabeled rules)
  | statement : Production rules (statement rules)
  | compoundStatement : Production rules (compoundStatement rules)
  -- Files
  | functionBody (type : TypeId) : Production rules (functionBody rules type)
  | functionDefinition (start : Location) (specifiers : Specifiers) (declarator : Declarator) :
    Production rules (functionDefinition rules start specifiers declarator)
  | fileDeclaration : Production rules (declaration rules (functionDefinition rules))
  | external? : Production rules (external? rules)
  | attachComments (units : List External) (comments : List Comment) :
    Production rules (attachComments units comments)
  | translationUnit (comments : List Comment) : Production rules (translationUnit comments)

variable {rules : Rules}

theorem Production.follows (follow : rules.AllFollow Course) {α : Type} {reading : Parse α}
    (production : Production rules reading) : Follows Course reading := by
  have parts := follow.toPartsFollow
  have declares := declarationStatements_follows parts
  cases production with
  | moveTo => exact .moveTo
  | advance => exact .advance
  | accept => exact .accept
  | expect => exact .expect
  | identifier => exact .identifier
  | identifier? => exact .identifier?
  | addDecl decl => exact fun _ s => (Step.addDecl s decl).course
  | addType type => exact fun _ s => (Step.addType s type).course
  | addExpr form span => exact fun _ s => (Step.addExpr s { form, span }).course
  | addStmt stmt => exact fun _ s => (Step.addStmt s stmt).course
  | addInit => exact .addInit
  | addLabel => exact .addLabel
  | modifyComments => exact .modifyComments
  | bindName => exact .bindName
  | note id earlier => exact fun _ s => (Step.note s id earlier).course
  | argumentList => exact argumentList_follows parts
  | arguments => exact arguments_follows parts
  | suffixRound => exact suffixRound_follows parts
  | suffixed => exact suffixed_follows parts
  | stringPiece? => exact stringPiece?_follows
  | memberPathRound => exact memberPathRound_follows parts
  | memberPath => exact memberPath_follows parts
  | primary => exact primary_follows parts
  | sizeofOperand => exact sizeofOperand_follows parts
  | prefixOperand op => exact prefixOperand_follows parts op
  | unary => exact unary_follows parts
  | cast => exact cast_follows parts
  | joined => exact joined_follows
  | binary tier => exact binary_follows parts tier
  | conditional => exact conditional_follows parts
  | assignment => exact assignment_follows parts
  | expression => exact expression_follows parts
  | bitField => exact bitField_follows
  | memberDeclarator => exact memberDeclarator_follows parts
  | memberType => exact memberType_follows parts
  | member => exact member_follows parts
  | memberGroup? => exact memberGroup?_follows parts
  | members => exact members_follows parts
  | enumeratorValue? => exact enumeratorValue?_follows parts
  | enumerator => exact enumerator_follows parts
  | enumerators => exact enumerators_follows parts
  | checkTagKind => exact checkTagKind_follows
  | taggedReference named => exact taggedReference_follows (tagKind?_isTagged named)
  | taggedOwner named => exact taggedOwner_follows (tagKind?_isTagged named)
  | tagBody => exact tagBody_follows parts
  | taggedSpecifier named => exact taggedSpecifier_follows parts (tagKind?_isTagged named)
  | specifierRound => exact specifierRound_follows parts
  | specifiedType => exact specifiedType_follows
  | specifiers => exact specifiers_follows parts
  | qualifierRound => exact qualifierRound_follows
  | qualifiers => exact qualifiers_follows
  | pointers => exact pointers_follows
  | parameter => exact parameter_follows parts
  | parameterRound => exact parameterRound_follows parts
  | parameters => exact parameters_follows parts
  | arrayLength? => exact arrayLength?_follows parts
  | arraySuffix => exact arraySuffix_follows parts
  | functionSuffix => exact functionSuffix_follows parts
  | suffix? => exact suffix?_follows parts
  | suffixes => exact suffixes_follows parts
  | skipRound => exact skipRound_follows
  | skipParenthesized => exact skipParenthesized_follows
  | nestedDeclarator => exact nestedDeclarator_follows parts
  | plainDeclarator => exact plainDeclarator_follows parts
  | declarator => exact declarator_follows parts
  | typeName => exact typeName_follows parts
  | designator? => exact designator?_follows parts
  | designation => exact designation_follows parts
  | initializerItem => exact initializerItem_follows parts
  | initializers => exact initializers_follows parts
  | initializer => exact initializer_follows parts
  | initializer? => exact initializer?_follows parts
  | initDeclarator => exact initDeclarator_follows parts
  | nextDeclarator? => exact nextDeclarator?_follows parts
  | localDeclaration => exact declaration_follows parts fun _ _ _ _ s _ => .done s
  | labelForm? => exact labelForm?_follows parts
  | label? => exact label?_follows parts
  | declarationStatements => exact declares
  | blockItem? => exact blockItem?_follows follow declares
  | block => exact block_follows follow declares
  | parenthesized => exact parenthesized_follows parts
  | expressionUnless => exact expressionUnless_follows parts
  | elseBranch? => exact elseBranch?_follows follow
  | ifStatement => exact ifStatement_follows follow
  | whileStatement => exact whileStatement_follows follow
  | doStatement => exact doStatement_follows follow
  | switchStatement => exact switchStatement_follows follow
  | forStart => exact forStart_follows parts
  | forClauses => exact forClauses_follows follow
  | forStatement => exact forStatement_follows follow
  | returnStatement => exact returnStatement_follows parts
  | gotoStatement => exact gotoStatement_follows
  | expressionStatement => exact expressionStatement_follows parts
  | unlabeled => exact unlabeled_follows follow
  | statement => exact statement_follows follow
  | compoundStatement => exact compoundStatement_follows follow declares
  | functionBody => exact functionBody_follows follow declares
  | functionDefinition => exact functionDefinition_follows follow
  | fileDeclaration => exact fileDeclaration_follows follow
  | external? => exact external?_follows follow
  | attachComments => exact attachComments_follows
  | translationUnit => exact translationUnit_follows Rules.nested_follow

end SyntaxGraph.Grammar
