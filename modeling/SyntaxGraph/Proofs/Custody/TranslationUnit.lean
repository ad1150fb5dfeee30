import SyntaxGraph.Grammar.TranslationUnit
import SyntaxGraph.Proofs.Custody.Statement

/-!
# Files and the nodes they hold

The rules with a bound on their nesting make what they answer, by induction on the bound,
and a file makes its top-level declarations.  Handing out comments moves no node.
-/

set_option autoImplicit false

namespace SyntaxGraph.Grammar

variable {rules : Rules}

theorem Rules.nested_make (depth : Nat) : (Rules.nested depth).AllMake := by
  induction depth with
  | zero =>
      exact {
        expression := .fail
        assignment := .fail
        conditional := .fail
        cast := .fail
        unary := .fail
        typeName := .fail
        specifiers := .fail
        declarator := fun _ _ => .fail
        initializers := .fail
        statement := .fail }
  | succ depth ih =>
      exact {
        expression := expression_makes ih
        assignment := assignment_makes ih
        conditional := conditional_makes ih
        cast := cast_makes ih
        unary := unary_makes ih
        typeName := typeName_makes ih
        specifiers := specifiers_makes ih
        declarator := fun _ _ => declarator_passes ih
        initializers := initializers_makes ih
        statement := statement_makes ih }

/-- The scope of a body binds the names of parameters, which belong to the type. -/
theorem bindParameters_spares (parameters : List DeclId) :
    Spares (parameters.forM fun parameter => do
      Parse.bindName (← Parse.declName parameter) .object) := by
  induction parameters with
  | nil => exact .pure fun _ => rfl
  | cons parameter parameters ih =>
      have one : Spares (do Parse.bindName (← Parse.declName parameter) .object) :=
        .past (.looking declName_observes) fun _ => .bindName
      exact .past one fun _ => ih

theorem functionBody_makes (make : rules.AllMake) {type : TypeId} :
    Makes (functionBody rules type) := by
  refine .inScope (.past (.looking typeNode_observes) fun node => ?_)
  exact .past (bindParameters_spares node.decls) fun _ => compoundStatement_makes make

theorem functionDefinition_passes (make : rules.AllMake) {start : Location}
    {specifiers : Specifiers} {declarator : Declarator} :
    Passes [] (parts declarator) (functionDefinition rules start specifiers declarator)
      parts := by
  unfold functionDefinition
  split
  · exact .fail
  · refine .past .bindName fun _ => .andThen (functionBody_makes make) fun body => ?_
    exact .past .spanFrom fun span => .addDecl fun node => by
      simp [List.count_cons, Nat.add_comm]

instance : Owning External := ⟨fun unit => parts unit.decls⟩

@[simp] theorem parts_external (unit : External) : parts unit = parts unit.decls := rfl

theorem external?_makes (make : rules.AllMake) : Makes (external? rules) := by
  refine .past .at? fun ended => ?_
  split
  · exact .pure fun _ => rfl
  · refine .past .here fun start => ?_
    have made : Makes (declaration rules (functionDefinition rules)) :=
      declaration_makes make fun _ _ _ => functionDefinition_passes make
    refine .bind made fun decls => ?_
    exact .past (.looking finishBefore_observes) fun finish => .pure fun _ => rfl

theorem annotate_spares {decl : Option DeclId} {change : Comments → Comments} :
    Spares (annotate decl change) := by
  cases decl with
  | none => exact .pure fun _ => rfl
  | some id => exact .modifyComments

theorem attachComments_spares {units : List External} {comments : List Comment} :
    Spares (attachComments units comments) := by
  induction units generalizing comments with
  | nil => exact .pure fun _ => rfl
  | cons unit units ih => exact .past annotate_spares fun _ => .past annotate_spares fun _ => ih

theorem parts_flatMap_decls (units : List External) :
    parts (units.flatMap External.decls) = parts units := by
  induction units with
  | nil => rfl
  | cons unit units ih => rw [List.flatMap_cons, parts_append, ih, parts_cons, parts_external]

theorem translationUnit_makes {comments : List Comment} : Makes (translationUnit comments) := by
  refine .past (.looking read_observes) fun tokens => ?_
  have make : (Rules.nested tokens.size).AllMake := Rules.nested_make _
  refine .bind (.many (external?_makes make)) fun units => ?_
  refine .past attachComments_spares fun left => ?_
  exact .past annotate_spares fun _ => .pure fun node => by rw [parts_flatMap_decls]

end SyntaxGraph.Grammar
