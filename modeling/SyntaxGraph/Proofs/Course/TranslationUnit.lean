import SyntaxGraph.Grammar.TranslationUnit
import SyntaxGraph.Proofs.Course.Statement

/-!
# Files take a course

The rules with a bound on their nesting take a course by induction on the bound, and so
does everything that is read with them.
-/

set_option autoImplicit false

namespace SyntaxGraph.Grammar

open Token (Kind Keyword Punctuator)

variable {relation : State → State → Prop} {rules : Rules}

section Plain

variable [Permits relation]

/-- Everything but statements takes plain steps only, whatever the bound on the nesting. -/
theorem Rules.nested_parts (depth : Nat) : (Rules.nested depth).PartsFollow relation := by
  induction depth with
  | zero =>
      exact {
        expression := .fail
        assignment := .fail
        conditional := .fail
        cast := .fail
        unary := .fail
        typeName := .fail
        specifiers := .fail
        declarator _ _ := .fail
        initializers := .fail }
  | succ depth ih =>
      exact {
        expression := expression_follows ih
        assignment := assignment_follows ih
        conditional := conditional_follows ih
        cast := cast_follows ih
        unary := unary_follows ih
        typeName := typeName_follows ih
        specifiers := specifiers_follows ih
        declarator _ _ := declarator_follows ih
        initializers := initializers_follows ih }

theorem functionBody_follows (follow : rules.AllFollow relation)
    (declares : Follows relation (declarationStatements rules)) {type : TypeId} :
    Follows relation (functionBody rules type) := by
  refine .inScope (.bind .typeNode fun node => ?_)
  refine .bind (.forM (fun parameter => .bind .declName fun _ => .bindObject) node.decls) ?_
  exact fun _ => compoundStatement_follows follow declares

theorem annotate_follows [PermitsComments relation] {decl : Option DeclId}
    {change : Comments → Comments} : Follows relation (annotate decl change) := by
  cases decl with
  | none => exact .pure
  | some id => exact .modifyComments

theorem attachComments_follows [PermitsComments relation] {units : List External}
    {comments : List Comment} : Follows relation (attachComments units comments) := by
  induction units generalizing comments with
  | nil => exact .pure
  | cons unit units ih =>
      exact annotate_follows.bind fun _ => annotate_follows.bind fun _ => ih

end Plain

section Declarations

variable [PermitsDeclarations relation]

/-- A function is declared with its body when the body has been read. -/
theorem functionDefinition_relates (follow : rules.AllFollow relation) {start : Location}
    {specifiers : Specifiers} {declarator : Declarator} {tokens : Tokens} {s : State}
    (adds : ∀ {t : State} {decl : Decl}, decl.type = declarator.type → decl.init = none →
      relation s t → relation s { t with arenas := (t.arenas.addDecl decl).2 }) :
    relation s (endState (functionDefinition rules start specifiers declarator tokens s)) := by
  have declares := declarationStatements_follows follow.toPartsFollow
  obtain ⟨name, type⟩ := declarator
  cases name with
  | none => exact Permits.refl s
  | some name =>
      refine Follows.bindObject.after (Permits.refl s) fun _ bound _ early => ?_
      refine (functionBody_follows follow declares).after early fun body read _ late => ?_
      refine Follows.spanFrom.after late fun span same looked _ => ?_
      obtain rfl := spanFrom_observes _ _ _ _ looked
      exact adds rfl rfl late

theorem functionDefinition_follows (follow : rules.AllFollow Course) {start : Location}
    {specifiers : Specifiers} {declarator : Declarator} :
    Follows Course (functionDefinition rules start specifiers declarator) :=
  fun _ _ => functionDefinition_relates follow fun _ _ course =>
    course.trans (Step.addDecl _ _).course

theorem fileDeclaration_follows (follow : rules.AllFollow relation) :
    Follows relation (declaration rules (functionDefinition rules)) := by
  refine declaration_follows follow.toPartsFollow fun start specifiers declarator tokens s => ?_
  intro function
  exact functionDefinition_relates follow fun same noInit inner =>
    PermitsDeclarations.addFunction (same ▸ function) noInit inner

theorem external?_follows (follow : rules.AllFollow relation) :
    Follows relation (external? rules) := by
  refine .bind .at? fun ended => ?_
  split
  · exact .pure
  · refine .bind .here fun start => (fileDeclaration_follows follow).bind fun decls => ?_
    exact .bind .finishBefore fun finish => .pure

theorem translationUnit_follows [PermitsComments relation]
    (follow : ∀ depth, (Rules.nested depth).AllFollow relation) {comments : List Comment} :
    Follows relation (translationUnit comments) := by
  refine .bind .read fun tokens => ?_
  refine .bind (.many (external?_follows (follow tokens.size))) fun units => ?_
  exact attachComments_follows.bind fun left => annotate_follows.bind fun _ => .pure

end Declarations

theorem Rules.nested_follow [PermitsStatements relation] (depth : Nat) :
    (Rules.nested depth).AllFollow relation := by
  induction depth with
  | zero => exact { Rules.nested_parts 0 with statement := .fail }
  | succ depth ih =>
      exact { Rules.nested_parts (depth + 1) with statement := statement_follows ih }

end SyntaxGraph.Grammar
