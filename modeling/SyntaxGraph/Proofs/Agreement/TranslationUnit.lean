import SyntaxGraph.Grammar.TranslationUnit
import SyntaxGraph.Proofs.Agreement.Statement

/-!
# Files are read by the kinds of their tokens

External declarations are related if they declare the same.  Where they start and end
decides which comments go with them, and so do the comments themselves, but comments are
erased.
-/

set_option autoImplicit false

namespace SyntaxGraph.Grammar

open Token (Kind Keyword Punctuator)

variable {rules : Rules} {start other : Location}

theorem Rules.nested_blind (depth : Nat) : (Rules.nested depth).AllBlind := by
  induction depth with
  | zero =>
      exact {
        expression := .fail
        assignment := .fail
        conditional := .fail
        cast := .fail
        unary := .fail
        typeName := .fail
        specifiers := .fail
        declarator := fun _ _ => .fail
        initializers := .fail
        statement := .fail }
  | succ depth ih =>
      exact {
        expression := expression_blind ih
        assignment := assignment_blind ih
        conditional := conditional_blind ih
        cast := cast_blind ih
        unary := unary_blind ih
        typeName := typeName_blind ih
        specifiers := specifiers_blind ih
        declarator := fun _ _ => declarator_blind ih
        initializers := initializers_blind ih
        statement := statement_blind ih }

/-! ## Functions -/

theorem functionBody_blind (blind : rules.AllBlind) {type : TypeId} :
    Blind (functionBody rules type) := by
  refine .inScope (.bind .typeNode fun node copy equal => ?_)
  dsimp only
  rw [TypeNode.decls_eq equal]
  refine .same (.forM (fun parameter => ?_) copy.decls) fun _ => compoundStatement_blind blind
  exact .same .declName fun _ => .bindName

theorem functionDefinition_agree (blind : rules.AllBlind) {specifiers : Specifiers}
    {declarator : Declarator} :
    Agree Eq (functionDefinition rules start specifiers declarator)
      (functionDefinition rules other specifiers declarator) := by
  unfold functionDefinition
  split
  · exact .fail
  · refine .same .bindName fun _ => (functionBody_blind blind).same fun body => ?_
    exact .anyhow .spanFrom fun _ _ => .addDecl rfl

/-! ## External declarations and their comments -/

def External.Alike (unit copy : External) : Prop := unit.decls = copy.decls

theorem external?_agree (blind : rules.AllBlind) :
    Agree (Option.Rel External.Alike) (external? rules) (external? rules) := by
  refine .same .at? fun ended => ?_
  split
  · exact .pure .none
  · refine .anyhow .here fun start other => ?_
    refine .same (declaration_blind blind fun _ _ _ _ => functionDefinition_agree blind) ?_
    exact fun decls => .anyhow .finishBefore fun finish last => .pure (.some rfl)

theorem annotate_agree {decl : Option DeclId} {change other : Comments → Comments} :
    Agree Eq (annotate decl change) (annotate decl other) := by
  cases decl with
  | none => exact .pure rfl
  | some id => exact .modifyComments

/-- No two lists of comments make a difference, and what is left over of them may be anything. -/
theorem attachComments_agree {units copies : List External}
    (all : List.Forall₂ External.Alike units copies) {comments others : List Comment} :
    Agree Unrelated (attachComments units comments) (attachComments copies others) := by
  induction all generalizing comments others with
  | nil => exact .pure trivial
  | @cons unit copy _ _ same _ ih =>
      have decls : unit.decls = copy.decls := same
      unfold attachComments
      rw [decls]
      exact annotate_agree.same fun _ => annotate_agree.same fun _ => ih

theorem flatMap_decls {units copies : List External}
    (all : List.Forall₂ External.Alike units copies) :
    units.flatMap External.decls = copies.flatMap External.decls := by
  induction all with
  | nil => rfl
  | cons same _ ih =>
      rw [List.flatMap_cons, List.flatMap_cons, ih]
      exact congrArg (· ++ _) same

theorem translationUnit_agree {comments others : List Comment} :
    Agree Eq (translationUnit comments) (translationUnit others) := by
  refine .bind .read fun tokens copies similar => ?_
  rw [similar.size]
  have blind : (Rules.nested copies.size).AllBlind := Rules.nested_blind _
  refine .bind (.many (external?_agree blind)) fun units twins all => ?_
  refine .anyhow (attachComments_agree all) fun left rest => ?_
  dsimp only
  rw [flatMap_decls all]
  exact annotate_agree.same fun _ => .pure rfl

end SyntaxGraph.Grammar
