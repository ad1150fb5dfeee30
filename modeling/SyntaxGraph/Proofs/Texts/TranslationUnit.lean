import SyntaxGraph.Grammar.TranslationUnit
import SyntaxGraph.Proofs.Program.Read
import SyntaxGraph.Proofs.Texts.Statement

/-!
# Files cite their tokens

By induction on the nesting, every rule of the grammar does; so each text in a program that
has been read is one of a token of the source.
-/

set_option autoImplicit false

namespace SyntaxGraph.Grammar

open Token (Kind Keyword Punctuator)

variable {tokens : Tokens} {rules : Rules}

theorem Rules.nested_cite (depth : Nat) : (Rules.nested depth).Cite tokens := by
  induction depth with
  | zero =>
      exact {
        expression := .fail
        assignment := .fail
        conditional := .fail
        cast := .fail
        unary := .fail
        typeName := .fail
        specifiers := .fail
        declarator _ _ := .fail
        initializers := .fail
        statement := .fail }
  | succ depth ih =>
      exact {
        expression := expression_cites ih
        assignment := assignment_cites ih
        conditional := conditional_cites ih
        cast := cast_cites ih
        unary := unary_cites ih
        typeName := typeName_cites ih
        specifiers := specifiers_cites ih
        declarator _ _ := declarator_cites ih
        initializers := initializers_cites ih
        statement := statement_cites ih }

theorem functionBody_cites (cite : rules.Cite tokens) {type : TypeId} :
    Steady tokens (functionBody rules type) := by
  refine .inScope (.past .typeNode fun node => ?_)
  refine .past (.forM (fun parameter => ?_) node.decls) fun _ => compoundStatement_cites cite
  exact .past (.look declName_observes) fun _ => .bindName

theorem functionDefinition_cites (cite : rules.Cite tokens) {start : Location}
    {specifiers : Specifiers} {declarator : Declarator} (cites : declarator.Cites tokens) :
    Steady tokens (functionDefinition rules start specifiers declarator) := by
  unfold functionDefinition
  split
  · exact .fail
  · next name named =>
      refine .past .bindName fun _ => (functionBody_cites cite).past fun body => ?_
      exact .past .spanFrom fun _ => .addDecl fun _ => cites name named

theorem external?_cites (cite : rules.Cite tokens) : Steady tokens (external? rules) := by
  refine .past .at? fun ended => ?_
  split
  · exact .pure trivial
  · refine .past .here fun start => ?_
    refine .past (declaration_cites cite fun _ _ _ cites => ?_) fun decls => ?_
    · exact functionDefinition_cites cite cites
    · exact .past (.look finishBefore_observes) fun finish => .pure trivial

theorem annotate_cites {decl : Option DeclId} {change : Comments → Comments} :
    Steady tokens (annotate decl change) := by
  cases decl with
  | none => exact .pure trivial
  | some id => exact .modifyComments

theorem attachComments_cites {units : List External} {comments : List Comment} :
    Steady tokens (attachComments units comments) := by
  induction units generalizing comments with
  | nil => exact .pure trivial
  | cons unit units ih =>
      exact annotate_cites.past fun _ => annotate_cites.past fun _ => ih

theorem translationUnit_cites {comments : List Comment} :
    Steady tokens (translationUnit comments) := by
  refine .past (.look read_observes) fun all => ?_
  refine .past (.many (external?_cites (Rules.nested_cite all.size))) fun units => ?_
  exact attachComments_cites.past fun left => annotate_cites.past fun _ => .pure trivial

end SyntaxGraph.Grammar

namespace SyntaxGraph.Program

open Grammar
open Token (Reading)

/-- Every text in a program that has been read is one of a token of its source. -/
theorem cite_of_read {file source : String} {p : Program}
    (read : Program.read file source = .ok p) :
    p.arenas.Cite (Reading.ofSource source).tokens.toArray := by
  obtain ⟨state, run, same, -⟩ := parse_of_read read
  rw [← same]
  exact (translationUnit_cites {} p.decls state .empty run).1

end SyntaxGraph.Program
