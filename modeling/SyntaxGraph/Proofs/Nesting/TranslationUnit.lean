import SyntaxGraph.Grammar.TranslationUnit
import SyntaxGraph.Proofs.Nesting.Statement

/-!
# Files are balanced

The rules with a bound on their nesting are neutral by induction on the bound.
-/

set_option autoImplicit false

namespace SyntaxGraph.Grammar

open Token (Kind Keyword Punctuator Balanced)

variable {α : Type} {tokens : Tokens} {rules : Rules}

theorem Rules.nested_neutral (depth : Nat) : (Rules.nested depth).AllNeutral tokens := by
  induction depth with
  | zero => constructor <;> intros <;> exact .fail
  | succ depth ih =>
      constructor
      case expression => exact expression_neutral ih
      case assignment => exact assignment_neutral ih
      case conditional => exact conditional_neutral ih
      case cast => exact cast_neutral ih
      case unary => exact unary_neutral ih
      case typeName => exact typeName_neutral ih
      case specifiers => exact specifiers_neutral ih
      case declarator => exact fun _ _ => declarator_neutral ih
      case initializers => exact initializers_neutral ih
      case statement => exact statement_neutral ih

theorem functionBody_neutral (neutral : rules.AllNeutral tokens) {type : TypeId} :
    Neutral tokens (functionBody rules type) := by
  refine .inScope (.look typeNode_observes fun node => ?_)
  refine .bind (.forM (fun _ => .look declName_observes fun _ => .bindName) _) fun _ => ?_
  exact compoundStatement_neutral neutral

theorem functionDefinition_neutral (neutral : rules.AllNeutral tokens) {start : Location}
    {specifiers : Specifiers} {declarator : Declarator} :
    Neutral tokens (functionDefinition rules start specifiers declarator) := by
  unfold functionDefinition
  split
  · exact .fail
  · refine .bind .bindName fun _ => (functionBody_neutral neutral).bind fun body => ?_
    exact .look spanFrom_observes fun _ => .addDecl

theorem external?_neutral (neutral : rules.AllNeutral tokens) :
    Neutral tokens (external? rules) := by
  refine .ifAt .pure (.look here_observes fun start => ?_)
  refine .bind (declaration_neutral neutral fun _ _ _ => functionDefinition_neutral neutral) ?_
  exact fun decls => .look finishBefore_observes fun _ => .pure

theorem annotate_neutral {decl : Option DeclId} {change : Comments → Comments} :
    Neutral tokens (annotate decl change) := by
  unfold annotate
  split
  · exact .modifyComments
  · exact .pure

theorem attachComments_neutral (units : List External) (comments : List Comment) :
    Neutral tokens (attachComments units comments) := by
  induction units generalizing comments with
  | nil => exact .pure
  | cons unit units ih =>
      exact annotate_neutral.bind fun _ => annotate_neutral.bind fun _ => ih _

theorem translationUnit_neutral {comments : List Comment} :
    Neutral tokens (translationUnit comments) := by
  refine .look read_observes fun size => ?_
  refine .bind (.many (external?_neutral (Rules.nested_neutral _))) fun units => ?_
  refine (attachComments_neutral units comments).bind fun left => ?_
  exact annotate_neutral.bind fun _ => .pure

/-! ## Runs that succeed -/

/-- What the reading consumes where it succeeds is balanced together with the tokens
`opened` in front of it. -/
def Closes (tokens : Tokens) (opened : List Kind) (reading : Parse α) : Prop :=
  ∀ s value s', reading tokens s = .ok value s' → s.position ≤ s'.position ∧
    Balanced (opened ++ tokens.between s.position s'.position)

theorem Nests.closes {reading : Parse α} (neutral : Neutral tokens reading) :
    Closes tokens [] reading := by
  intro s value s' run
  obtain ⟨le, balanced, -⟩ := neutral.consumes run
  exact ⟨le, balanced⟩

theorem Nests.closesOpened {reading : Parse α} (nests : Nests tokens [] 1 0 reading) :
    Closes tokens [.punctuator .parenOpen] reading := by
  intro s value s' run
  have passed := nests.passed List.nil_prefix run
  exact ⟨passed.place_le, passed.nesting⟩

/-- Every rule of the grammar over `rules` consumes a balanced stretch where it succeeds.
Three of them take over behind an opening parenthesis: arguments, parameters, and the
clauses of a `for` statement.  A tagged type is one if it begins with its keyword. -/
structure Rules.AllClose (rules : Rules) (tokens : Tokens) : Prop where
  argumentList : Closes tokens [] (Grammar.argumentList rules)
  arguments : Closes tokens [.punctuator .parenOpen] (Grammar.arguments rules)
  suffixed (operand : ExprId) : Closes tokens [] (Grammar.suffixed rules operand)
  memberPath : Closes tokens [] (Grammar.memberPath rules)
  primary : Closes tokens [] (Grammar.primary rules)
  postfixed : Closes tokens [] (Grammar.primary rules >>= Grammar.suffixed rules)
  unary : Closes tokens [] (Grammar.unary rules)
  cast : Closes tokens [] (Grammar.cast rules)
  binary (tier : Nat) : Closes tokens [] (Grammar.binary rules tier)
  conditional : Closes tokens [] (Grammar.conditional rules)
  assignment : Closes tokens [] (Grammar.assignment rules)
  expression : Closes tokens [] (Grammar.expression rules)
  members : Closes tokens [] (Grammar.members rules)
  enumerators : Closes tokens [] (Grammar.enumerators rules)
  taggedSpecifier (s s' : State) (word : Keyword) (kind : TypeKind) (type : TypeId)
    (begins : tokens.kind s.position = .keyword word)
    (run : Grammar.taggedSpecifier rules kind tokens s = .ok type s') :
    s.position ≤ s'.position ∧ Balanced (tokens.between s.position s'.position)
  specifiers : Closes tokens [] (Grammar.specifiers rules)
  qualifiers : Closes tokens [] Grammar.qualifiers
  pointers (base : TypeId) : Closes tokens [] (Grammar.pointers base)
  parameters : Closes tokens [.punctuator .parenOpen] (Grammar.parameters rules)
  suffixes (base : TypeId) : Closes tokens [] (Grammar.suffixes rules base)
  skipParenthesized : Closes tokens [] Grammar.skipParenthesized
  declarator (base : TypeId) (abstractOk : Bool) :
    Closes tokens [] (Grammar.declarator rules base abstractOk)
  typeName : Closes tokens [] (Grammar.typeName rules)
  designation : Closes tokens [] (Grammar.designation rules)
  initializer : Closes tokens [] (Grammar.initializer rules)
  initializers : Closes tokens [] (Grammar.initializers rules)
  initDeclarator (start : Location) (specifiers : Specifiers) (declarator : Declarator) :
    Closes tokens [] (Grammar.initDeclarator rules start specifiers declarator)
  declaration : Closes tokens [] (Grammar.declaration rules (functionDefinition rules))
  labels : Closes tokens [] (Parse.many (label? rules))
  declarationStatements : Closes tokens [] (Grammar.declarationStatements rules)
  blockItems : Closes tokens [] (Parse.many (blockItem? rules))
  block : Closes tokens [] (Grammar.block rules)
  ifStatement : Closes tokens [] (Grammar.ifStatement rules)
  whileStatement : Closes tokens [] (Grammar.whileStatement rules)
  doStatement : Closes tokens [] (Grammar.doStatement rules)
  switchStatement : Closes tokens [] (Grammar.switchStatement rules)
  forClauses : Closes tokens [.punctuator .parenOpen] (Grammar.forClauses rules)
  forStatement : Closes tokens [] (Grammar.forStatement rules)
  unlabeled : Closes tokens [] (Grammar.unlabeled rules)
  statement : Closes tokens [] (Grammar.statement rules)
  compoundStatement : Closes tokens [] (Grammar.compoundStatement rules)
  functionDefinition (start : Location) (specifiers : Specifiers) (declarator : Declarator) :
    Closes tokens [] (Grammar.functionDefinition rules start specifiers declarator)
  external? : Closes tokens [] (Grammar.external? rules)

theorem Rules.AllNeutral.allClose (neutral : rules.AllNeutral tokens) :
    rules.AllClose tokens where
  argumentList := (argumentList_neutral neutral).closes
  arguments := (arguments_nests neutral).closesOpened
  suffixed _ := (suffixed_neutral neutral).closes
  memberPath := (memberPath_neutral neutral).closes
  primary := (primary_neutral neutral).closes
  postfixed := (postfix_neutral neutral).closes
  unary := (unary_neutral neutral).closes
  cast := (cast_neutral neutral).closes
  binary tier := (binary_neutral neutral tier).closes
  conditional := (conditional_neutral neutral).closes
  assignment := (assignment_neutral neutral).closes
  expression := (expression_neutral neutral).closes
  members := (members_neutral neutral).closes
  enumerators := (enumerators_neutral neutral).closes
  taggedSpecifier s s' word kind type begins run := by
    have inside : s.position < tokens.size := by
      refine Tokens.inside_of_kind ?_
      rw [begins]
      simp
    have known : [.keyword word] <+: tokens.ahead s.position := by
      rw [Tokens.ahead_cons inside, begins]
      exact ⟨_, rfl⟩
    have passed := (taggedSpecifier_nests neutral).passed known run
    exact ⟨passed.place_le, passed.nesting⟩
  specifiers := (specifiers_neutral neutral).closes
  qualifiers := qualifiers_neutral.closes
  pointers _ := pointers_neutral.closes
  parameters := (parameters_nests neutral).closesOpened
  suffixes _ := (suffixes_neutral neutral).closes
  skipParenthesized _ _ _ run := skipParenthesized_consumes run
  declarator _ _ := (declarator_neutral neutral).closes
  typeName := (typeName_neutral neutral).closes
  designation := (designation_neutral neutral).closes
  initializer := (initializer_neutral neutral).closes
  initializers := (initializers_neutral neutral).closes
  initDeclarator _ _ _ := (initDeclarator_neutral neutral).closes
  declaration :=
    (declaration_neutral neutral fun _ _ _ => functionDefinition_neutral neutral).closes
  labels := Nests.closes (.many (label?_neutral neutral))
  declarationStatements := (declarationStatements_neutral neutral).closes
  blockItems := Nests.closes (.many (blockItem?_neutral neutral))
  block := (block_neutral neutral).closes
  ifStatement := (ifStatement_neutral neutral).closes
  whileStatement := (whileStatement_neutral neutral).closes
  doStatement := (doStatement_neutral neutral).closes
  switchStatement := (switchStatement_neutral neutral).closes
  forClauses := (forClauses_nests neutral).closesOpened
  forStatement := (forStatement_neutral neutral).closes
  unlabeled := (unlabeled_neutral neutral).closes
  statement := (statement_neutral neutral).closes
  compoundStatement := (compoundStatement_neutral neutral).closes
  functionDefinition _ _ _ := (functionDefinition_neutral neutral).closes
  external? := (external?_neutral neutral).closes

/-- A declarator that turns out to be nested behind its pointers is read as its opening
parenthesis, the inside, the parenthesis that skipping has found, and the suffixes, where
it ends; and every rule of the grammar consumes a balanced stretch, as a whole file does. -/
theorem declarator_consumes_once (tokens : Tokens) (depth : Nat) :
    (∀ base abstractOk s found s',
      declarator (Rules.nested depth) base abstractOk tokens s = .ok found s' →
        ∃ type opened nested, pointers base tokens s = .ok type opened ∧
          atNestedDeclarator tokens opened = .ok nested opened ∧
          (nested = true → tokens.kind opened.position = .punctuator .parenOpen ∧
            ∃ skipped outer behind inside, NestedRun tokens (Rules.nested depth) type abstractOk
              opened found s' skipped outer behind inside)) ∧
      (Rules.nested depth).AllClose tokens ∧
      ∀ comments, Closes tokens [] (translationUnit comments) := by
  have neutral : (Rules.nested depth).AllNeutral tokens := Rules.nested_neutral depth
  refine ⟨?_, neutral.allClose, fun _ => translationUnit_neutral.closes⟩
  intro base abstractOk s found s' run
  obtain ⟨type, opened, pointed, run⟩ := bind_ok run
  obtain ⟨nested, middle, looked, run⟩ := bind_ok run
  obtain ⟨rfl, opens⟩ := atNestedDeclarator_ok looked
  refine ⟨type, middle, nested, pointed, looked, fun branch => ⟨opens branch, ?_⟩⟩
  subst branch
  exact nestedDeclarator_ok (opens rfl) (fun outer => neutral.declarator outer abstractOk)
    (fun _ => suffixes_neutral neutral) run

/-- An array of two pointers to functions. -/
def tableTokens : Tokens :=
  (Token.Reading.ofSource "(*table[2])(int);").tokens.toArray

theorem declarator_consumes_once_table :
    ∃ found s' skipped outer behind inside,
      declarator (Rules.nested 10) ⟨0⟩ false tableTokens {} = .ok found s' ∧
        NestedRun tableTokens (Rules.nested 10) ⟨0⟩ false {} found s' skipped outer behind
          inside ∧ s'.position = 10 := by
  have shape : (match declarator (Rules.nested 10) ⟨0⟩ false tableTokens {} with
      | .ok _ s' => some s'.position
      | .error _ _ => none) = some 10 := by
    decide +kernel
  have pointed : (match pointers ⟨0⟩ tableTokens {} with
      | .ok type opened => some (type, opened)
      | .error _ _ => none) = some (⟨0⟩, {}) := by
    decide +kernel
  have branch : (match atNestedDeclarator tableTokens {} with
      | .ok nested _ => some nested
      | .error _ _ => none) = some true := by
    decide +kernel
  cases outcome : declarator (Rules.nested 10) ⟨0⟩ false tableTokens {} with
  | error cause s' =>
      rw [outcome] at shape
      cases shape
  | ok found s' =>
      rw [outcome] at shape
      obtain ⟨reads, -⟩ := declarator_consumes_once tableTokens 10
      obtain ⟨type, opened, nested, same, looked, run⟩ := reads _ _ _ _ _ outcome
      rw [same] at pointed
      cases pointed
      rw [looked] at branch
      cases branch
      obtain ⟨-, skipped, outer, behind, inside, whole⟩ := run rfl
      exact ⟨found, s', skipped, outer, behind, inside, rfl, whole, Option.some.inj shape⟩

end SyntaxGraph.Grammar
