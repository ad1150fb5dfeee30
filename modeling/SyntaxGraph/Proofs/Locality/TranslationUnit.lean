import SyntaxGraph.Grammar.TranslationUnit
import SyntaxGraph.Proofs.Locality.Statement

/-!
# Files are read in pieces

External declarations finish, so those in front of a cut are read in front of further tokens
as they are in front of the end of the file, and then comes what the further tokens make.
-/

set_option autoImplicit false

namespace SyntaxGraph.Grammar

open Token (Kind Keyword Punctuator)

variable {cut : Cut} {rules others : Rules}

/-- A higher bound on the nesting makes no difference to what is read within a lower one. -/
theorem Rules.nested_local {depth larger : Nat} (le : depth ≤ larger) :
    (Rules.nested depth).AllLocal (Rules.nested larger) cut := by
  induction depth generalizing larger with
  | zero =>
      exact {
        expression := .fail
        assignment := .fail
        conditional := .fail
        cast := .fail
        unary := .fail
        typeName := .fail
        specifiers := .fail
        declarator := fun _ _ => .fail
        initializers := .fail
        statement := .fail }
  | succ depth ih =>
      obtain ⟨larger, rfl⟩ : ∃ less, larger = less + 1 := ⟨larger - 1, by omega⟩
      have near := ih (Nat.le_of_succ_le_succ le)
      exact {
        expression := expression_local near
        assignment := assignment_local near
        conditional := conditional_local near
        cast := cast_local near
        unary := unary_local near
        typeName := typeName_local near
        specifiers := specifiers_local near
        declarator := fun _ _ => declarator_local near
        initializers := initializers_local near
        statement := statement_local near }

theorem functionBody_finishes (near : rules.AllLocal others cut) {type : TypeId} :
    Finishes cut (functionBody rules type) (functionBody others type) := by
  refine .inScope (.bind .typeNode fun node => ?_)
  refine .bind (.forM (fun parameter => .bind .declName fun _ => .bindName) node.decls) ?_
  exact fun _ => compoundStatement_finishes near

theorem functionDefinition_finishes (near : rules.AllLocal others cut) {start : Location}
    {specifiers : Specifiers} {declarator : Declarator} :
    Finishes cut (functionDefinition rules start specifiers declarator)
      (functionDefinition others start specifiers declarator) := by
  unfold functionDefinition
  split
  · exact .fail
  · refine .bind .bindName fun _ => (functionBody_finishes near).settle fun body => ?_
    exact .bind .spanFrom fun _ => .add

theorem externalHere_finishes (near : rules.AllLocal others cut) :
    Finishes cut (externalHere rules) (externalHere others) := by
  refine .bind .here fun start => ?_
  refine .settle (declaration_finishes near fun _ _ _ => functionDefinition_finishes near) ?_
  exact fun decls => .bind .finishBefore fun finish => .pure

variable {s s' t : State} {unit : External} {units all : List External}

/-- An external declaration in front of the cut is also one in front of the further tokens. -/
theorem external?_more (near : rules.AllLocal others cut)
    (run : external? rules cut.tokens s = .ok (some unit) s') :
    external? others cut.more s = .ok (some unit) s' := by
  obtain ⟨here, inner, inside⟩ := external?_ok run
  have before := cut.lt_of_kind inside inner
  have found : Parse.at? .eof cut.tokens s = .ok false s := by
    obtain ⟨ended, middle, looked, -⟩ := bind_ok run
    obtain ⟨rfl, rfl, -⟩ := at?_ok looked
    rwa [decide_eq_false inner] at looked
  have looks : Parse.at? .eof cut.more s = .ok false s :=
    (Local.at? s false s found).2 before
  change (Parse.at? .eof >>= _) cut.more s = _
  rw [bind_of_ok looks]
  exact (externalHere_finishes near s (some unit) s' here).2.2

/-- What is read in front of the further tokens begins with what is read in front of the cut,
and goes on in the state in which that ends. -/
theorem externals_more (near : rules.AllLocal others cut)
    (early : Collects cut.tokens (external? rules) s units s')
    (whole : Collects cut.more (external? others) s all t) :
    ∃ later, all = units ++ later ∧ Collects cut.more (external? others) s' later t := by
  induction early generalizing all with
  | stop last =>
      obtain ⟨rfl, -⟩ := external?_ok last
      exact ⟨all, rfl, whole⟩
  | next one _ ih =>
      have same := external?_more near one
      cases whole with
      | stop last =>
          rw [same] at last
          cases last
      | next found rest =>
          rw [same] at found
          cases found
          obtain ⟨later, rfl, goesOn⟩ := ih rest
          exact ⟨later, rfl, goesOn⟩

end SyntaxGraph.Grammar
