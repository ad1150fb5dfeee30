import SyntaxGraph.Proofs.Course.TranslationUnit
import SyntaxGraph.Proofs.Grammar.Statement

/-!
# What reading a file keeps up

Each level of nesting begins behind a token of its own, so with as many levels as there
are tokens the limit from which the rules are sound falls back to the first token.  The
state before reading is sound, and so is everything that reading a file makes of it.
-/

set_option autoImplicit false

namespace SyntaxGraph.Grammar

open Token (Kind Keyword Punctuator Ended)

variable {tokens : Tokens} {rules : Rules} {limit position : Nat} {nodes : List NodeRef}

/-- With enough levels for the tokens behind the limit, no reading runs out of levels. -/
theorem Rules.nested_sound {depth : Nat} (enough : tokens.size ≤ limit + depth) :
    (Rules.nested depth).SoundFrom tokens limit := by
  induction depth generalizing limit with
  | zero => exact Rules.soundFrom_beyond (Rules.nested_follow 0) enough
  | succ depth ih =>
      -- Each rule consumes a token before it calls the rules one level further in.
      have inner : (Rules.nested depth).SoundFrom tokens (limit + 1) := ih (by omega)
      exact {
        follow := Rules.nested_follow (depth + 1)
        expression := fun le => expression_yields inner (by omega)
        assignment := fun le => assignment_yields inner (by omega)
        conditional := fun le => conditional_yields inner (by omega)
        cast := fun le => cast_yields inner (by omega)
        unary := fun le => unary_yields inner (by omega)
        typeName := fun le => typeName_yields inner (by omega)
        specifiers := fun le => specifiers_yields inner (by omega)
        declarator := fun le member =>
          declarator_declares inner (by omega) (by simpa using member)
        initializers := fun le => initializers_yields inner (by omega)
        statement := fun le => statement_yields inner (by omega) }

theorem bindParameters_reads {parameters : List DeclId}
    (inside : references parameters ⊆ nodes) :
    Reads tokens (Known position nodes)
      (parameters.forM fun parameter => do Parse.bindName (← Parse.declName parameter) .object)
      fun _ => Known position nodes := by
  induction parameters with
  | nil => exact .pure fun _ known => known
  | cons parameter parameters ih =>
      refine Reads.bind ?_ fun _ => ih (by grind)
      exact (declName_reads (by grind)).bind fun _ => bindName_reads

theorem functionBody_yields (sound : rules.SoundFrom tokens limit) (le : limit ≤ position + 1)
    {type : TypeId} (inside : references type ⊆ nodes) :
    Yields tokens position nodes (functionBody rules type) 1 := by
  refine inScope_yields ?_
  apply (typeNode_yields (by simpa using inside)).bind
  intro node
  refine (bindParameters_reads (by simp)).bind fun _ => ?_
  exact .last (compoundStatement_yields sound le) (Nat.le_refl _) (by grind)

theorem functionDefinition_yields (sound : rules.SoundFrom tokens limit)
    (le : limit ≤ position + 1) {start : Location} {specifiers : Specifiers}
    {declarator : Declarator}
    (named : declarator.name.isSome = true) (inside : references declarator ⊆ nodes) :
    Yields tokens position nodes (functionDefinition rules start specifiers declarator) 0 := by
  unfold functionDefinition
  split
  · next absent => simp [absent] at named
  · refine bindName_reads.bind fun _ => ?_
    apply (functionBody_yields sound le inside).bind
    intro body
    apply spanFrom_reads.bind
    intro span
    exact .last (addDecl_yields (by simpa using inside)) (by omega) (by simp)

instance : Refers External := ⟨fun unit => references unit.decls⟩

@[simp, grind =] theorem references_external (unit : External) :
    references unit = references unit.decls := rfl

theorem external?_reads (sound : rules.SoundFrom tokens limit) (le : limit ≤ position + 1) :
    Reads tokens (Known position nodes) (external? rules) (Offered position nodes) := by
  apply at?_keeps.bind
  intro ended
  split
  · exact .nothing (Nat.le_refl _) (List.Subset.refl _)
  · apply here_reads.bind
    intro start
    have defines : ∀ start specifiers declarator place known, position < place →
        declarator.name.isSome = true → references declarator ⊆ known →
        Yields tokens place known (functionDefinition rules start specifiers declarator) 0 :=
      fun _ _ _ _ _ further named inside =>
        functionDefinition_yields sound (by omega) named inside
    apply (declaration_yields sound le defines).bind
    intro decls
    exact finishBefore_reads.bind fun finish => .something (Nat.le_refl _) (by simp)

/-! ## Comments -/

theorem annotate_reads {decl : Option DeclId} {change : Comments → Comments}
    (inside : references decl ⊆ nodes) :
    Reads tokens (Known position nodes) (annotate decl change)
      fun _ => Known position nodes := by
  cases decl with
  | none => exact .pure fun _ known => known
  | some id => exact modifyComments_reads (by simpa using inside)

theorem references_head?_subset (decls : List DeclId) :
    references decls.head? ⊆ references decls := by
  cases decls <;> simp

theorem references_getLast?_subset (decls : List DeclId) :
    references decls.getLast? ⊆ references decls := by
  cases last : decls.getLast? with
  | none => exact List.nil_subset _
  | some id => exact references_subset_of_mem (List.mem_of_getLast? last)

theorem attachComments_reads {units : List External} {comments : List Comment}
    (inside : references units ⊆ nodes) :
    Reads tokens (Known position nodes) (attachComments units comments)
      fun _ => Known position nodes := by
  induction units generalizing comments with
  | nil => exact .pure fun _ known => known
  | cons unit units ih =>
      have first := references_head?_subset unit.decls
      have last := references_getLast?_subset unit.decls
      refine Reads.bind (annotate_reads (by grind)) fun _ => ?_
      refine Reads.bind (annotate_reads (by grind)) fun _ => ?_
      exact ih (by grind)

/-! ## Files -/

theorem references_flatMap_decls_subset (units : List External) :
    references (units.flatMap External.decls) ⊆ references units := by
  intro node member
  obtain ⟨decl, inside, refers⟩ := mem_references.mp member
  obtain ⟨unit, unitInside, inside⟩ := List.mem_flatMap.mp inside
  exact mem_references.mpr ⟨unit, unitInside, references_subset_of_mem inside refers⟩

theorem translationUnit_yields {comments : List Comment} :
    Yields tokens 0 nodes (translationUnit comments) 0 := by
  refine tokens_reads.bind fun found => .assuming fun same => ?_
  subst same
  have sound : (Rules.nested found.size).SoundFrom found 0 := Rules.nested_sound (by omega)
  have collected : Yields found 0 nodes (Parse.many (external? (Rules.nested found.size))) 0 :=
    many_yields fun _ _ _ _ => external?_reads sound (by omega)
  apply collected.bind
  intro units
  apply (attachComments_reads (by simp)).bind
  intro left
  have inside := references_flatMap_decls_subset units
  have last := references_getLast?_subset (units.flatMap External.decls)
  refine (annotate_reads (by grind)).bind fun _ => ?_
  exact .give (by omega) (by simp [inside])

theorem Sound.start (ended : Ended tokens.toList) : Sound tokens {} where
  ended := ended
  inside := by
    obtain ⟨front, -, place, equal⟩ := ended
    simp [← Array.length_toList, equal]
  closed := Arenas.closed_empty
  ranked := Arenas.ranked_empty
  tags := by simp [Arenas.OwnsAll, Scopes.start]

/-- A file is read to its end or refused at one of its tokens. -/
theorem translationUnit_ends (ended : Ended tokens.toList) (comments : List Comment) :
    Ends tokens (fun decls s => s.arenas.OwnsAll (references decls))
      (translationUnit comments tokens {}) := by
  have known : Known 0 [] ({} : State) := ⟨Nat.le_refl _, by simp [Arenas.OwnsAll]⟩
  refine (translationUnit_yields {} (.start ended) known).mono fun decls s _ reached => ?_
  exact reached.owned.subset (List.subset_append_left _ _)

end SyntaxGraph.Grammar
