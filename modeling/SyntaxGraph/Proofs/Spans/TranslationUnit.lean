import SyntaxGraph.Grammar.TranslationUnit
import SyntaxGraph.Proofs.Spans.Statement

/-!
# Where external declarations lie

The rules with a bound on their nesting lay out what they add, by induction on the bound, and
the external declarations of a file follow each other.
-/

set_option autoImplicit false

namespace SyntaxGraph.Grammar

variable {rules : Rules} {sheet : Sheet} {given : Prop} {i first : Nat}

theorem Rules.nested_lay (depth : Nat) : (Rules.nested depth).AllLay sheet := by
  induction depth with
  | zero =>
      exact {
        expression := fun _ _ => .fail
        assignment := fun _ _ => .fail
        conditional := fun _ _ => .fail
        cast := fun _ _ => .fail
        unary := fun _ _ => .fail
        typeName := fun _ _ => .fail
        specifiers := fun _ _ => .fail
        declarator := fun _ _ _ _ => .fail
        initializers := fun _ _ => .fail
        statement := fun _ _ => .fail }
  | succ depth ih =>
      exact {
        expression := fun _ _ => expression_lays ih
        assignment := fun _ _ => assignment_lays ih
        conditional := fun _ _ => conditional_lays ih
        cast := fun _ _ => cast_lays ih
        unary := fun _ _ => unary_lays ih
        typeName := fun _ _ => typeName_lays ih
        specifiers := fun _ _ => specifiers_lays ih
        declarator := fun _ _ _ _ => declarator_lays ih
        initializers := fun _ _ => initializers_lays ih
        statement := fun _ _ => statement_lays ih }

theorem bindParameters_lays (parameters : List DeclId) :
    Lays sheet given i
      (parameters.forM fun parameter => do
        Parse.bindName (← Parse.declName parameter) .object) fun j _ => j = i := by
  induction parameters with
  | nil => exact .pure fun _ => rfl
  | cons parameter parameters ih =>
      have one : Still (do Parse.bindName (← Parse.declName parameter) .object) := by
        intro tokens s value s' run
        obtain ⟨name, binds⟩ := look_then declName_observes run
        exact bindName_still _ _ _ _ binds
      exact .look one fun _ => ih

theorem functionBody_lays (lay : rules.AllLay sheet) {type : TypeId} :
    Lays sheet given i (functionBody rules type) fun j id => sheet.Inside (parts id) i j := by
  refine .inScope (.look typeNode_observes.still fun node => ?_)
  refine .bind (bindParameters_lays node.decls) fun _ j le => ?_
  exact .inward (compoundStatement_lays lay) le

theorem functionDefinition_lays (lay : rules.AllLay sheet) {start : Location}
    {specifiers : Specifiers} {declarator : Declarator}
    (starts : given → start = sheet.tokens.start first ∧ first < i) :
    Lays sheet given i (functionDefinition rules start specifiers declarator)
      fun j id => sheet.Lies (.decl id) first j := by
  unfold functionDefinition
  split
  · exact .fail
  · refine .bindName (.bind (functionBody_lays lay) fun body j le => ?_)
    refine spannedDecl_lays (fun _ => rfl) (fun _ => rfl) (fun known => ?_) fun known _ => ?_
    · exact ⟨(starts known.1).1, (starts known.1).2.trans_le le⟩
    · exact known.2.mono (starts known.1).2.le (Nat.le_refl j)

/-- An external declaration covers the tokens, its declarations some of them. -/
structure Sheet.UnitLies (sheet : Sheet) (i j : Nat) (unit : External) : Prop where
  start : unit.start = sheet.tokens.start i
  finish : unit.finish = sheet.tokens.finish (j - 1)
  some : i < j
  declares : unit.decls ≠ []
  inside : sheet.Inside (parts unit.decls) i j

theorem external?_lays (lay : rules.AllLay sheet) :
    Lays sheet given i (external? rules)
      fun j next => next.elim (j = i) (sheet.UnitLies i j) := by
  refine .at? fun ended _ => ?_
  split
  · exact .pure fun _ => rfl
  · refine .here (.bind (declaration_lays lay (functionDefinition_lays lay)) fun decls j le => ?_)
    refine .finishBefore (.pure fun known => ?_)
    obtain ⟨-, some, declares, inside⟩ := known
    exact ⟨rfl, rfl, some, declares, inside⟩

theorem externals_lay (depth : Nat) :
    Lays sheet given i (Parse.many (external? (.nested depth)))
      fun j units => Consecutive sheet.UnitLies i units j :=
  .many _ fun _ _ => external?_lays (Rules.nested_lay depth)

end SyntaxGraph.Grammar
