import SyntaxGraph.Grammar.Specifier
import SyntaxGraph.Proofs.Course.Declarator
import SyntaxGraph.Proofs.Grammar.Rules

/-!
# What reading specifiers keeps up

A type is completed only with members that have been read, and it is a tagged one: when
its body begins its kind has been checked or it has just been added, and types keep their
kinds.  A tag is looked up among bindings to owned types.  Specifiers that consume no token
name no type and are refused.
-/

set_option autoImplicit false

namespace SyntaxGraph.Grammar

open Token (Kind Keyword Punctuator)

variable {tokens : Tokens} {rules : Rules} {limit position : Nat} {nodes : List NodeRef}

/-! ## Members -/

theorem bitField_yields {type : TypeId} {width : ExprId} (typeInside : references type ⊆ nodes)
    (widthInside : references width ⊆ nodes) :
    Yields tokens position nodes (bitField type width) 0 := by
  apply (typeNode_yields (by grind)).bind
  intro base
  split
  · exact .last (addType_yields (by grind)) (by omega) (by grind)
  · exact .fail rfl

theorem memberDeclarator_yields (sound : rules.SoundFrom tokens limit) (le : limit ≤ position)
    {type : TypeId} (inside : references type ⊆ nodes) :
    Yields tokens position nodes (memberDeclarator rules type) 0 := by
  apply at?_keeps.bind
  intro unnamed
  split
  · exact .give (Nat.le_refl _) (by simpa using inside)
  · have member : .type type ∈ nodes := by simpa using inside
    exact (sound.declarator le member).weaken (fun _ known => known) fun _ _ _ => And.right

theorem memberType_yields (sound : rules.SoundFrom tokens limit) (le : limit ≤ position)
    {type : TypeId} (inside : references type ⊆ nodes) :
    Yields tokens position nodes (memberType rules type) 0 := by
  refine acceptMark_reads.bind fun taken => .branch ?_ ?_
  · apply (sound.conditional (by omega)).bind
    intro width
    exact .last (bitField_yields (by simpa using inside) (by simp)) (by omega) (by simp)
  · exact .give (Nat.le_refl _) (by simpa using inside)

theorem member_yields (sound : rules.SoundFrom tokens limit) (le : limit ≤ position)
    {start : Location} {specifiers : Specifiers} (inside : references specifiers ⊆ nodes) :
    Yields tokens position nodes (member rules start specifiers) 0 := by
  apply (memberDeclarator_yields sound le inside).bind
  intro declarator
  apply (memberType_yields sound (by omega) (by simp)).bind
  intro type
  apply spanFrom_reads.bind
  intro span
  exact .last (addDecl_yields (by simp)) (by omega) (by simp)

theorem memberGroup?_reads (sound : rules.SoundFrom tokens limit) (le : limit ≤ position) :
    Reads tokens (Known position nodes) (memberGroup? rules) (Offered position nodes) := by
  apply peek_reads.bind
  intro kind
  split
  · exact .stay (.nothing (Nat.le_refl _) (List.Subset.refl _))
  · exact .fail rfl
  · refine .stay ?_
    apply here_reads.bind
    intro start
    apply (sound.specifiers le).bind
    intro specifiers
    refine acceptMark_reads.bind fun taken => .branch ?_ ?_
    · apply spanFrom_reads.bind
      intro span
      apply (addDecl_yields (by simp)).bind
      intro anonymous
      exact .something (by omega) (by simp)
    · refine .bind (separated_yields fun _ _ further owned =>
        member_yields sound (by omega) (by grind)) fun group => ?_
      exact expectMark_reads.bind fun _ => .something (by omega) (by simp)

theorem members_yields (sound : rules.SoundFrom tokens limit) (le : limit ≤ position) :
    Yields tokens position nodes (members rules) 1 := by
  have grouped : Yields tokens position nodes (Parse.many (memberGroup? rules)) 0 :=
    many_yields fun _ _ further _ => memberGroup?_reads sound (by omega)
  apply grouped.bind
  intro groups
  refine expectMark_reads.bind fun _ => ?_
  have flat := references_flatten_subset groups
  exact .give (by omega) (by grind)

theorem enumeratorValue?_yields (sound : rules.SoundFrom tokens limit) (le : limit ≤ position) :
    Yields tokens position nodes (enumeratorValue? rules) 0 := by
  refine acceptMark_reads.bind fun taken => .branch ?_ ?_
  · apply here_reads.bind
    intro start
    apply (sound.conditional (by omega)).bind
    intro value
    refine spanFrom_reads.bind fun span => .map ?_
    exact .last (addInit_yields (by simp)) (by omega) (by simp)
  · exact .give (Nat.le_refl _) (by simp)

theorem enumerator_yields (sound : rules.SoundFrom tokens limit) (le : limit ≤ position)
    {int : TypeId} (inside : references int ⊆ nodes) :
    Yields tokens position nodes (enumerator rules int) 1 := by
  apply here_reads.bind
  intro start
  apply identifier_yields.bind
  intro name
  apply (enumeratorValue?_yields sound (by omega)).bind
  intro init
  refine bindName_reads.bind fun _ => ?_
  apply spanFrom_reads.bind
  intro span
  exact .last (addDecl_yields (by grind)) (by omega) (by simp)

theorem enumerators_yields (sound : rules.SoundFrom tokens limit) (le : limit ≤ position) :
    Yields tokens position nodes (enumerators rules) 1 := by
  apply here_reads.bind
  intro start
  apply (addType_yields (by grind [TypeNode.basic])).bind
  intro int
  refine .bind (listed_yields fun _ _ further owned =>
    enumerator_yields sound (by omega) (by grind)) fun found => ?_
  exact expectMark_reads.bind fun _ => .give (by omega) (by simp)

/-! ## Tags -/

/-- The type that a reading answers is known to be of this kind. -/
abbrev YieldsKind (tokens : Tokens) (position : Nat) (nodes : List NodeRef) (kind : TypeKind)
    (reading : Parse TypeId) : Prop :=
  Reads tokens (Known position nodes) reading fun id s =>
    s.typeKind? id = some kind ∧ Known position (references id ++ nodes) s

theorem checkTagKind_reads {id : TypeId} {kind : TypeKind} {tag : String}
    (inside : references id ⊆ nodes) :
    Reads tokens (Known position nodes) (checkTagKind id kind tag)
      fun _ s => s.typeKind? id = some kind ∧ Known position nodes s := by
  apply (typeNode_finds (by simpa using inside)).bind
  intro node
  dsimp only
  split
  · exact .fail rfl
  · next same =>
      refine .pure fun s ⟨found, known⟩ => ⟨?_, known.mono (Nat.le_refl _) (by grind)⟩
      rw [State.typeKind?, found, Option.map_some, not_not.mp same]

theorem addType_known {type : TypeNode} (inside : references type ⊆ nodes) :
    YieldsKind tokens position nodes type.kind (Parse.addType type) := by
  intro s sound known
  have reached := addType_yields inside s sound known
  have found : (s.arenas.addType type).2.type? (s.arenas.addType type).1 = some type :=
    Array.getElem?_push_size
  exact ⟨reached.1, congrArg (Option.map TypeNode.kind) found, reached.2⟩

/-- To bind a tag changes no type. -/
theorem bindTag_keepsKind {id : TypeId} {tag : String} {kind : TypeKind}
    (member : .type id ∈ nodes) :
    Reads tokens (fun s => s.typeKind? id = some kind ∧ Known position nodes s)
      (Parse.bindTag tag id) fun _ s => s.typeKind? id = some kind ∧ Known position nodes s := by
  rintro s sound ⟨same, known⟩
  have binds : Reads tokens (Known position nodes) (Parse.bindTag tag id)
      fun _ => Known position nodes := bindTag_reads member
  have reached := binds s sound known
  exact ⟨reached.1, same, reached.2⟩

theorem declareTagged_yields {kind : TypeKind} {tag : Option String} {start : Location} :
    YieldsKind tokens position nodes kind (declareTagged kind tag start) := by
  apply spanFrom_reads.bind
  intro span
  apply (addType_known (by grind [TypeNode.tagged])).bind
  intro id
  dsimp only
  split
  · exact (bindTag_keepsKind (by simp)).bind fun _ => .pure fun _ known => known
  · exact .pure fun _ known => known

theorem taggedReference_yields {kind : TypeKind} {tag : Option String} {start : Location} :
    Yields tokens position nodes (taggedReference kind tag start) 0 := by
  unfold taggedReference
  split
  · exact .fail rfl
  · next tag =>
      apply at?_keeps.bind
      intro declares
      apply scopes_yields.bind
      intro scopes
      split
      · next id found =>
          have bound : .type id ∈ references scopes := by
            split at found
            · exact Scopes.innerTag?_references found
            · exact Scopes.findTag?_references found
          refine (checkTagKind_reads (by grind)).bind fun _ => .pure fun _ ⟨_, known⟩ => ?_
          exact known.mono (Nat.le_refl _) (by grind)
      · refine declareTagged_yields.weaken (fun _ known => known) fun _ _ _ ⟨_, known⟩ => ?_
        exact known.mono (Nat.le_refl _) (by simp)

theorem taggedOwner_yields {kind : TypeKind} {tag : Option String} {start : Location} :
    YieldsKind tokens position nodes kind (taggedOwner kind tag start) := by
  apply scopes_yields.bind
  intro scopes
  split
  · next tag id found =>
      have bound : .type id ∈ references scopes := Scopes.innerTag?_references found
      refine (checkTagKind_reads (by grind)).bind fun _ => ?_
      apply ((typeNode_yields (by grind)).keepKind .typeNode).bind
      intro node
      split
      · exact .pure fun _ ⟨same, known⟩ => ⟨same, known.mono (Nat.le_refl _) (by grind)⟩
      · exact .fail rfl
  · refine declareTagged_yields.weaken (fun _ known => known.mono (Nat.le_refl _) ?_)
      fun _ _ _ known => known
    exact List.subset_append_right _ _

theorem tagBody_yields (sound : rules.SoundFrom tokens limit) (le : limit ≤ position)
    {kind : TypeKind} : Yields tokens position nodes (tagBody rules kind) 1 := by
  unfold tagBody
  split
  · exact enumerators_yields sound le
  · exact members_yields sound le

theorem taggedSpecifier_yields (sound : rules.SoundFrom tokens limit)
    (le : limit ≤ position + 1) {token : Kind} (inner : token ≠ .eof) {kind : TypeKind}
    (tagged : kind.isTagged = true) :
    Reads tokens (At tokens token position nodes) (taggedSpecifier rules kind)
      fun id => Known (position + 1) (references id ++ nodes) := by
  apply here_reads.bind
  intro start
  refine (advance_reads inner).bind fun _ => ?_
  apply identifier?_reads.bind
  intro tag
  refine at?_reads.bind fun opens => .branch ?_ ?_
  · refine .stay ?_
    apply taggedOwner_yields.bind
    intro id
    -- The body is read before the type gets it, and the type is still of its kind then.
    refine (advance_keeps.keepKind .advance).bind fun _ => ?_
    have follows : Follows Course (tagBody rules kind) := tagBody_follows sound.follow.toPartsFollow
    apply ((tagBody_yields sound (by omega)).keepKind follows).bind
    intro decls
    refine (completeType_reads tagged (by simp) (by simp)).bind fun _ => ?_
    exact .give (by omega) (by simp)
  · exact .last taggedReference_yields (Nat.le_refl _) (List.Subset.refl _)

/-! ## The list of specifiers -/

instance : Refers SpecifierList := ⟨fun list => references list.tagged⟩

@[simp, grind =] theorem references_specifierList (list : SpecifierList) :
    references list = references list.tagged := rfl

theorem SpecifierList.insert?_tagged {list next : SpecifierList} {word : Keyword}
    (inserted : list.insert? word = some next) : next.tagged = list.tagged := by
  unfold insert? at inserted
  split at inserted
  · cases inserted
    rfl
  · split at inserted
    · cases inserted
      rfl
    · obtain ⟨words, -, rfl⟩ := Option.map_eq_some_iff.mp inserted
      rfl

theorem specifierRound_reads (sound : rules.SoundFrom tokens limit) (le : limit ≤ position + 1)
    {list : SpecifierList} (inside : references list ⊆ nodes) :
    Reads tokens (Known position nodes) (specifierRound rules list)
      (Offered position nodes) := by
  apply peek_reads.bind
  intro kind
  split
  · split
    · dsimp only
      split
      · exact .refuse rfl
      · refine (advance_reads (by simp)).bind fun _ => ?_
        exact .something (Nat.le_refl _) (by simpa using inside)
    · split
      · next named =>
        dsimp only
        split
        · exact .refuse rfl
        · apply (taggedSpecifier_yields sound le (by simp) (tagKind?_isTagged named)).bind
          intro type
          exact .something (Nat.le_refl _) (by simp)
      · split
        · next inserted =>
            have same := SpecifierList.insert?_tagged inserted
            refine (advance_reads (by simp)).bind fun _ => ?_
            exact .something (Nat.le_refl _) (by grind)
        · exact .stay (.nothing (Nat.le_refl _) (List.Subset.refl _))
  · apply isTypedef_reads.bind
    intro typedef
    split
    · refine (advance_reads (by simp)).bind fun _ => ?_
      exact .something (Nat.le_refl _) (by simpa using inside)
    · exact .stay (.nothing (Nat.le_refl _) (List.Subset.refl _))
  · exact .stay (.nothing (Nat.le_refl _) (List.Subset.refl _))

theorem specifiedType_yields {list : SpecifierList} {span : Span}
    (inside : references list ⊆ nodes) :
    Yields tokens position nodes (specifiedType list span) 0 := by
  unfold specifiedType
  split
  · exact .give (Nat.le_refl _) (by grind)
  · exact addType_yields (by grind [TypeNode.typedefName, TypeNode.qualified])
  · split
    · exact peek_reads.bind fun _ => .fail rfl
    · split
      · exact addType_yields (by grind [TypeNode.basic, TypeNode.qualified])
      · exact .fail rfl

/-- An empty list of specifiers names no type. -/
theorem specifiedType_empty {span : Span} :
    Reads tokens (Known position nodes) (specifiedType {} span) fun _ _ => False :=
  peek_reads.bind fun _ => .fail rfl

theorem specifiers_yields (sound : rules.SoundFrom tokens limit) (le : limit ≤ position + 1) :
    Yields tokens position nodes (specifiers rules) 1 := by
  apply here_reads.bind
  intro start
  refine .bind (iterate_moves (fun list place known further owned within => ?_) ?_)
    fun list => ?_
  · exact specifierRound_reads sound (by omega) within
  · simp
  · -- Either no word has been consumed and the list is empty, or one has.
    refine spanFrom_reads.bind fun span => .oneOf (.assuming fun empty => ?_) ?_
    · subst empty
      exact specifiedType_empty.bind fun _ _ _ => False.elim
    · apply (specifiedType_yields (by simp)).bind
      intro type
      exact .give (by omega) (by simp)

end SyntaxGraph.Grammar
