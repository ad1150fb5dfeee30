import SyntaxGraph.Grammar.Declarator
import SyntaxGraph.Proofs.Grammar.Specifier

/-!
# What reading declarators keeps up

A nested declarator is read out of order, but the places that it goes back to are among
the tokens: the one behind its parenthesis, since the file does not end with a
parenthesis, and the one where its suffixes ended.  Skipping it starts at a parenthesis
that opens, so no other one can close before the skipping is over.
-/

set_option autoImplicit false

namespace SyntaxGraph.Grammar

open Token (Kind Keyword Punctuator)

variable {tokens : Tokens} {rules : Rules} {limit position : Nat} {nodes : List NodeRef}

instance : Refers Qualifiers := ⟨fun _ => []⟩

@[simp, grind =] theorem references_qualifiers (qualifiers : Qualifiers) :
    references qualifiers = [] := rfl

theorem qualifierRound_reads {q : Qualifiers} :
    Reads tokens (Known position nodes) (qualifierRound q) (Offered position nodes) := by
  apply peek_reads.bind
  intro kind
  split
  · split
    · exact (advance_reads (by simp)).bind fun _ => .something (Nat.le_refl _) (by simp)
    · exact .stay (.nothing (Nat.le_refl _) (List.Subset.refl _))
  · exact .stay (.nothing (Nat.le_refl _) (List.Subset.refl _))

theorem qualifiers_yields : Yields tokens position nodes qualifiers 0 :=
  iterate_yields (fun _ _ _ _ _ _ => qualifierRound_reads) (List.nil_subset _)

theorem pointers_yields {base : TypeId} (inside : references base ⊆ nodes) :
    Yields tokens position nodes (pointers base) 0 := by
  refine iterate_yields (fun type place known further owned within => ?_) inside
  apply here_reads.bind
  intro start
  refine acceptMark_reads.bind fun star => .branch ?_ ?_
  · apply qualifiers_yields.bind
    intro found
    apply spanFrom_reads.bind
    intro span
    refine .offer (addType_yields ?_) (by omega) (by simp)
    simp only [TypeNode.pointer, TypeNode.qualified, references_typeNode]
    grind
  · exact .nothing (Nat.le_refl _) (List.Subset.refl _)

/-! ## Parameters and suffixes -/

theorem parameter_yields (sound : rules.SoundFrom tokens limit) (le : limit ≤ position) :
    Yields tokens position nodes (parameter rules) 1 := by
  apply here_reads.bind
  intro start
  apply (sound.specifiers le).bind
  intro specifiers
  refine (sound.declarator (by omega) (by simp)).bind fun declarator => .assuming fun _ => ?_
  apply spanFrom_reads.bind
  intro span
  exact .last (addDecl_yields (by simp)) (by omega) (by simp)

instance : Refers ParameterList := ⟨fun list => references list.found⟩

@[simp, grind =] theorem references_parameterList (list : ParameterList) :
    references list = references list.found := rfl

theorem parameterRound_reads (sound : rules.SoundFrom tokens limit) (le : limit ≤ position)
    {list : ParameterList} (inside : references list ⊆ nodes) :
    Reads tokens (Known position nodes) (parameterRound rules list)
      (Offered position nodes) := by
  unfold parameterRound
  split
  · exact .nothing (Nat.le_refl _) (List.Subset.refl _)
  · refine acceptMark_reads.bind fun ellipsis => .branch ?_ ?_
    · exact .something (Nat.le_refl _) (by simpa using inside)
    · apply (parameter_yields sound le).bind
      intro next
      refine (accept_keeps (by simp)).bind fun more => .something (by omega) (by grind)

theorem parameters_yields (sound : rules.SoundFrom tokens limit) (le : limit ≤ position) :
    Yields tokens position nodes (parameters rules) 0 := by
  refine acceptMark_reads.bind fun closes => .branch ?_ ?_
  · exact .give (by omega) (by simp)
  · apply at?_keeps.bind
    intro void
    apply peekNext_reads.bind
    intro next
    split
    · refine advance_keeps.bind fun _ => advance_keeps.bind fun _ => ?_
      exact .give (Nat.le_refl _) (by simp)
    · refine .bind (iterate_yields (fun list place known further owned within => ?_) ?_)
        fun list => ?_
      · exact parameterRound_reads sound (by omega) within
      · simp
      · have within := references_reverse_subset list.found
        exact expectMark_reads.bind fun _ => .give (by omega) (by simp [within])

@[simp, grind =] def Suffix.references : Suffix → List NodeRef
  | .array length _ => SyntaxGraph.references length
  | .function parameters _ _ => SyntaxGraph.references parameters

instance : Refers Suffix := ⟨Suffix.references⟩

@[simp, grind =] theorem references_suffix (suffix : Suffix) :
    references suffix = suffix.references := rfl

theorem references_over (suffix : Suffix) (base : TypeId) :
    references (suffix.over base) = .type base :: references suffix := by
  cases suffix <;> simp [Suffix.over, TypeNode.array, TypeNode.function]

theorem arrayLength?_yields (sound : rules.SoundFrom tokens limit) (le : limit ≤ position) :
    Yields tokens position nodes (arrayLength? rules) 0 := by
  apply at?_keeps.bind
  intro closes
  split
  · exact .give (Nat.le_refl _) (by simp)
  · exact .map ((sound.assignment le).weaken (fun _ known => known) fun _ _ _ known =>
      known.mono (by omega) (List.Subset.refl _))

theorem arraySuffix_yields (sound : rules.SoundFrom tokens limit) (le : limit ≤ position)
    {start : Location} : Yields tokens position nodes (arraySuffix rules start) 0 := by
  refine qualifiers_yields.bind fun _ => ?_
  refine (accept_keeps (by simp)).bind fun _ => ?_
  apply (arrayLength?_yields sound (by omega)).bind
  intro length
  refine expectMark_reads.bind fun _ => ?_
  exact spanFrom_reads.bind fun span => .give (by omega) (by simp)

theorem functionSuffix_yields (sound : rules.SoundFrom tokens limit) (le : limit ≤ position)
    {start : Location} : Yields tokens position nodes (functionSuffix rules start) 0 := by
  refine (parameters_yields sound le).bind fun (found, variadic) => ?_
  exact spanFrom_reads.bind fun span => .give (by omega) (by simp)

theorem suffix?_reads (sound : rules.SoundFrom tokens limit) (le : limit ≤ position + 1) :
    Reads tokens (Known position nodes) (suffix? rules) (Offered position nodes) := by
  apply here_reads.bind
  intro start
  refine acceptMark_reads.bind fun bracket => .branch ?_ ?_
  · exact .offer (arraySuffix_yields sound le) (by omega) (List.Subset.refl _)
  · refine acceptMark_reads.bind fun paren => .branch ?_ ?_
    · exact .offer (functionSuffix_yields sound le) (by omega) (List.Subset.refl _)
    · exact .nothing (Nat.le_refl _) (List.Subset.refl _)

/-- Each suffix goes over a type that has been added before it. -/
theorem overAll_yields {found : List Suffix} {base : TypeId} (inside : references base ⊆ nodes)
    (foundInside : references found ⊆ nodes) :
    Yields tokens position nodes
      (found.foldrM (fun suffix type => Parse.addType (suffix.over type)) base) 0 := by
  induction found with
  | nil => exact .give (Nat.le_refl _) (by simpa using inside)
  | cons suffix found ih =>
      rw [List.foldrM_cons]
      apply (ih (by grind)).bind
      intro type
      refine .last (addType_yields ?_) (Nat.le_refl _) (by simp)
      rw [references_over]
      grind

theorem suffixes_yields (sound : rules.SoundFrom tokens limit) (le : limit ≤ position + 1)
    {base : TypeId} (inside : references base ⊆ nodes) :
    Yields tokens position nodes (suffixes rules base) 0 := by
  have collected : Yields tokens position nodes (Parse.many (suffix? rules)) 0 :=
    many_yields fun _ _ further _ => suffix?_reads sound (by omega)
  apply collected.bind
  intro found
  exact .last (overAll_yields (by grind) (by simp)) (Nat.le_refl _) (by simp)

/-! ## Declarators -/

theorem atNestedDeclarator_reads :
    Reads tokens (Known position nodes) atNestedDeclarator fun found =>
      bif found then At tokens (.punctuator .parenOpen) position nodes
      else Known position nodes := by
  refine at?_reads.bind fun opens => .branch ?_ ?_
  · apply peekNext_reads.bind
    intro next
    split
    · exact .pure fun _ known => known
    · exact .pure fun _ known => known
    · next name =>
        refine isTypedef_reads.bind fun typedef => .pure fun _ known => ?_
        cases typedef with
        | true => exact known.toKnown
        | false => exact known
    · exact .pure fun _ known => known.toKnown
  · exact .pure fun _ known => known

/-- Before each round of skipping: at first the opening parenthesis, then a text of
which at least one parenthesis is open or which is over. -/
abbrev Skipping (tokens : Tokens) (position : Nat) (nodes : List NodeRef) :
    Nat × Bool → State → Prop
  | (0, false) => At tokens (.punctuator .parenOpen) position nodes
  | _ => Known (position + 1) nodes

theorem Skipping.ahead {place : Nat} (further : position ≤ place) {next : Nat × Bool}
    (later : next ≠ (0, false)) :
    Reads tokens (Known (place + 1) nodes) (pure (some next))
      (Continues (Skipping tokens position nodes) (Known (position + 1) nodes) place) := by
  refine .pure fun s known => ⟨known.position_le, ?_⟩
  have reached : Known (position + 1) nodes s :=
    known.mono (Nat.succ_le_succ further) (List.Subset.refl _)
  match next, later with
  | (0, true), _ => exact reached
  | (depth + 1, ended), _ => exact reached

theorem skipRound_reads (depth : Nat × Bool) (place : Nat) :
    Reads tokens (fun s => s.position = place ∧ Skipping tokens position nodes depth s)
      (skipRound depth)
      (Continues (Skipping tokens position nodes) (Known (position + 1) nodes) place) := by
  rintro s sound ⟨rfl, known⟩
  match depth, known with
  | (0, true), known => exact ⟨sound, known⟩
  | (depth + 1, true), known => exact ⟨sound, known⟩
  | (0, false), known =>
      -- Only before the first round is nothing open, and then a parenthesis opens here.
      have further : position ≤ s.position := known.position_le
      have here : At tokens (.punctuator .parenOpen) s.position nodes s :=
        ⟨⟨Nat.le_refl _, known.owned⟩, known.kind_eq⟩
      refine (peek_again.bind fun found => .assuming fun same => ?_) s sound here
      subst same
      exact (advance_reads (by simp)).bind fun _ => Skipping.ahead further (by simp)
  | (depth + 1, false), known =>
      have further : position ≤ s.position := Nat.le_of_succ_le known.position_le
      have here : At tokens (tokens.kind s.position) s.position nodes s :=
        ⟨⟨Nat.le_refl _, known.owned⟩, rfl⟩
      refine (peek_reads.bind fun found => ?_) s sound here.toKnown
      split
      · exact .fail rfl
      · exact (advance_reads (by simp)).bind fun _ => Skipping.ahead further (by simp)
      · rw [if_neg (by simp)]
        refine (advance_reads (by simp)).bind fun _ => Skipping.ahead further ?_
        cases depth <;> simp
      · next inner _ _ =>
          exact (advance_reads inner).bind fun _ => Skipping.ahead further (by simp)

/-- No parenthesis closes that has not been opened. -/
theorem skipParenthesized_reads :
    Reads tokens (At tokens (.punctuator .parenOpen) position nodes) skipParenthesized
      fun _ => Known (position + 1) nodes := by
  have skipped := iterate_reads (Skipping tokens position nodes)
    (fun _ => Known (position + 1) nodes) skipRound_reads (0, false)
  exact skipped.bind fun _ => .pure fun _ known => known

theorem nestedDeclarator_declares (sound : rules.SoundFrom tokens limit)
    (le : limit ≤ position + 1) {type : TypeId} (inside : references type ⊆ nodes)
    {abstractOk : Bool} :
    Reads tokens (At tokens (.punctuator .parenOpen) position nodes)
      (nestedDeclarator rules type abstractOk) fun declarator s =>
        (abstractOk = false → declarator.name.isSome = true) ∧
          Known position (references declarator ++ nodes) s := by
  refine position_reads.bind fun place => .assuming fun ⟨reached, _, next⟩ => ?_
  -- From here on the suffixes are read first, and `resume` is where they end.
  refine skipParenthesized_reads.bind fun _ => ?_
  apply (suffixes_yields sound (by omega) inside).bind
  intro outer
  refine position_known.bind fun resume => .assuming fun ⟨further, resumeInside⟩ => ?_
  refine (moveTo_reads (next (by simp))).bind fun _ => ?_
  refine (sound.declarator (by omega) (by simp)).bind fun declarator =>
    .assuming fun named => ?_
  refine expectMark_reads.bind fun _ => ?_
  refine (moveTo_reads resumeInside).bind fun _ => ?_
  exact .pure fun _ known => ⟨named, known.mono (by omega) (by simp)⟩

theorem plainDeclarator_declares (sound : rules.SoundFrom tokens limit)
    (le : limit ≤ position + 1) {type : TypeId} (inside : references type ⊆ nodes)
    {abstractOk : Bool} :
    Declares tokens position nodes abstractOk (plainDeclarator rules type abstractOk) := by
  apply identifier?_reads.bind
  intro name
  dsimp only
  split
  · exact peek_reads.bind fun _ => .refuse rfl
  · next named =>
      refine (suffixes_yields sound le inside).bind fun outer => .pure fun _ known => ?_
      exact ⟨by grind, known.mono (Nat.le_refl _) (by simp)⟩

theorem declarator_declares (sound : rules.SoundFrom tokens limit) (le : limit ≤ position + 1)
    {base : TypeId} (inside : references base ⊆ nodes) {abstractOk : Bool} :
    Declares tokens position nodes abstractOk (declarator rules base abstractOk) := by
  apply (pointers_yields inside).bind
  intro type
  refine .bind atNestedDeclarator_reads fun nested => .branch ?_ ?_
  · refine (nestedDeclarator_declares sound (by omega) (by simp)).weaken
      (fun _ known => known) fun declarator s _ answer => ?_
    obtain ⟨named, known⟩ := answer
    exact ⟨named, known.mono (by omega) (by simp)⟩
  · refine (plainDeclarator_declares sound (by omega) (by simp)).weaken
      (fun _ known => known) fun declarator s _ answer => ?_
    obtain ⟨named, known⟩ := answer
    exact ⟨named, known.mono (by omega) (by simp)⟩

theorem typeName_yields (sound : rules.SoundFrom tokens limit) (le : limit ≤ position + 1) :
    Yields tokens position nodes (typeName rules) 1 := by
  apply (specifiers_yields sound le).bind
  intro specifiers
  dsimp only
  split
  · exact .refuse rfl
  · refine (declarator_declares sound (by omega) (by simp)).bind fun declarator =>
      .assuming fun _ => ?_
    split
    · exact .fail rfl
    · exact .give (by omega) (by simp)

end SyntaxGraph.Grammar
