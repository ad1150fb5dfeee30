import SyntaxGraph.Grammar.Declaration
import SyntaxGraph.Proofs.Grammar.Declarator
import SyntaxGraph.Proofs.Grammar.Expression

/-!
# What reading declarations keeps up

A declarator that may not do without a name has one, so what is declared with it always
has a name.
-/

set_option autoImplicit false

namespace SyntaxGraph.Grammar

open Token (Kind Keyword Punctuator)

variable {tokens : Tokens} {rules : Rules} {limit position : Nat} {nodes : List NodeRef}

/-! ## Initializers -/

theorem designator?_reads (sound : rules.SoundFrom tokens limit) (le : limit ≤ position + 1) :
    Reads tokens (Known position nodes) (designator? rules) (Offered position nodes) := by
  apply here_reads.bind
  intro start
  refine acceptMark_reads.bind fun dot => .branch ?_ ?_
  · apply identifier_yields.bind
    intro name
    apply spanFrom_reads.bind
    intro span
    exact .something (by omega) (by grind [Designator.field])
  · refine acceptMark_reads.bind fun bracket => .branch ?_ ?_
    · apply (sound.conditional le).bind
      intro index
      refine expectMark_reads.bind fun _ => ?_
      apply spanFrom_reads.bind
      intro span
      exact .something (by omega) (by grind [Designator.index])
    · exact .nothing (Nat.le_refl _) (List.Subset.refl _)

theorem designation_yields (sound : rules.SoundFrom tokens limit) (le : limit ≤ position + 1) :
    Yields tokens position nodes (designation rules) 0 := by
  have collected : Yields tokens position nodes (Parse.many (designator? rules)) 0 :=
    many_yields fun _ _ further _ => designator?_reads sound (by omega)
  apply collected.bind
  intro found
  dsimp only
  split
  · exact expectMark_reads.bind fun _ => .give (by omega) (List.Subset.refl _)
  · exact .give (Nat.le_refl _) (List.Subset.refl _)

theorem spannedInit_yields {start : Location} {designators : List Designator}
    {form : Init.Form} (inside : references designators ++ form.references ⊆ nodes) :
    Yields tokens position nodes
      (do Parse.addInit { designators, form, span := ← Parse.spanFrom start }) 0 := by
  apply spanFrom_reads.bind
  intro span
  exact addInit_yields (by simpa using inside)

theorem initializerItem_yields (sound : rules.SoundFrom tokens limit)
    (le : limit ≤ position + 1) :
    Yields tokens position nodes (initializerItem rules) 1 := by
  apply here_reads.bind
  intro start
  apply (designation_yields sound le).bind
  intro designators
  refine acceptMark_reads.bind fun opens => .branch ?_ ?_
  · apply (sound.initializers (by omega)).bind
    intro items
    exact .last (spannedInit_yields (by simp)) (by omega) (by simp)
  · apply (assignment_yields sound (by omega)).bind
    intro value
    exact .last (spannedInit_yields (by simp)) (by omega) (by simp)

theorem initializers_yields (sound : rules.SoundFrom tokens limit) (le : limit ≤ position + 1) :
    Yields tokens position nodes (initializers rules) 1 := by
  refine .bind (listed_yields fun _ _ further _ => initializerItem_yields sound (by omega))
    fun items => ?_
  exact expectMark_reads.bind fun _ => .give (by omega) (List.Subset.refl _)

theorem initializer_yields (sound : rules.SoundFrom tokens limit) (le : limit ≤ position + 1) :
    Yields tokens position nodes (initializer rules) 1 := by
  apply here_reads.bind
  intro start
  refine acceptMark_reads.bind fun opens => .branch ?_ ?_
  · apply (initializers_yields sound (by omega)).bind
    intro items
    exact .last (spannedInit_yields (by simp)) (by omega) (by simp)
  · apply (assignment_yields sound (by omega)).bind
    intro value
    exact .last (spannedInit_yields (by simp)) (by omega) (by simp)

/-! ## Declarations -/

theorem initializer?_yields (sound : rules.SoundFrom tokens limit) (le : limit ≤ position + 1)
    {storage : Storage} {name : String} :
    Yields tokens position nodes (initializer? rules storage name) 0 := by
  refine acceptMark_reads.bind fun equals => .branch ?_ ?_
  · dsimp only
    split
    · exact .refuse rfl
    · exact .map (.last (initializer_yields sound (by omega)) (by omega) (List.Subset.refl _))
  · exact .give (Nat.le_refl _) (by simp)

theorem initDeclarator_yields (sound : rules.SoundFrom tokens limit) (le : limit ≤ position + 1)
    {start : Location} {specifiers : Specifiers} {declarator : Declarator}
    (named : declarator.name.isSome = true) (inside : references declarator ⊆ nodes) :
    Yields tokens position nodes (initDeclarator rules start specifiers declarator) 0 := by
  unfold initDeclarator
  split
  · next absent => simp [absent] at named
  · refine bindName_reads.bind fun _ => ?_
    apply (initializer?_yields sound le).bind
    intro init
    apply spanFrom_reads.bind
    intro span
    exact .last (addDecl_yields (by grind)) (by omega) (by simp)

theorem nextDeclarator?_reads (sound : rules.SoundFrom tokens limit) (le : limit ≤ position + 1)
    {start : Location} {specifiers : Specifiers} (inside : references specifiers ⊆ nodes) :
    Reads tokens (Known position nodes) (nextDeclarator? rules start specifiers)
      (Offered position nodes) := by
  refine acceptMark_reads.bind fun comma => .branch ?_ ?_
  · refine (declarator_declares sound (by omega) inside).bind fun next =>
      .assuming fun named => ?_
    have declares : Yields tokens (position + 1) (references next ++ nodes)
        (initDeclarator rules start specifiers next) 0 :=
      initDeclarator_yields sound (by omega) (named rfl) (by simp)
    exact .offer declares (by omega) (by simp)
  · exact .nothing (Nat.le_refl _) (List.Subset.refl _)

/-- `define` may rely on a declarator with a name. -/
theorem declaration_yields (sound : rules.SoundFrom tokens limit) (le : limit ≤ position + 1)
    {define : Location → Specifiers → Declarator → Parse DeclId}
    (defines : ∀ start specifiers declarator place known, position < place →
      declarator.name.isSome = true → references declarator ⊆ known →
      Yields tokens place known (define start specifiers declarator) 0) :
    Yields tokens position nodes (declaration rules define) 1 := by
  apply here_reads.bind
  intro start
  apply (specifiers_yields sound le).bind
  intro specifiers
  refine acceptMark_reads.bind fun semicolon => .branch ?_ ?_
  · apply spanFrom_reads.bind
    intro span
    apply (addDecl_yields (by simp)).bind
    intro tagOnly
    exact .give (by omega) (by simp)
  · refine (declarator_declares sound (by omega) (by simp)).bind fun first =>
      .assuming fun named => ?_
    apply at?_keeps.bind
    intro body
    apply (typeNode_yields (by simp)).bind
    intro type
    split
    · apply (defines start specifiers first _ _ (by omega) (named rfl) (by simp)).bind
      intro decl
      exact .give (by omega) (by grind)
    · apply (initDeclarator_yields sound (by omega) (named rfl) (by simp)).bind
      intro decl
      refine .bind (many_yields fun _ _ further owned =>
        nextDeclarator?_reads sound (by omega) (by grind)) fun others => ?_
      exact expectMark_reads.bind fun _ => .give (by omega) (by grind)

end SyntaxGraph.Grammar
