import SyntaxGraph.Grammar.Declarator
import SyntaxGraph.Proofs.Course.Expression
import SyntaxGraph.Proofs.Grammar.Runs

/-!
# Specifiers and declarators take plain steps

Before a tag is bound the innermost scope is searched for it, and before a body is read
for a type that is there already the type is found to have no declarations.  Before a type is
narrowed it is found to be an integer type.  A nested declarator goes back to an earlier
position, which is a step like any other.
-/

set_option autoImplicit false

namespace SyntaxGraph.Grammar

open Token (Kind Keyword Punctuator)

variable {relation : State → State → Prop} [Permits relation] {rules : Rules}

/-! ## Members -/

theorem bitField_follows {type : TypeId} {width : ExprId} :
    Follows relation (bitField type width) := by
  intro tokens s
  refine Follows.typeNode.andThen fun base middle looked => ?_
  obtain ⟨found, rfl⟩ := typeNode_ok looked
  split
  · next integer => exact Permits.plain (.addNarrowed middle width found integer)
  · exact Follows.ends .fail

theorem memberDeclarator_follows (follow : rules.PartsFollow relation) {type : TypeId} :
    Follows relation (memberDeclarator rules type) := by
  refine .bind .at? fun unnamed => ?_
  split
  · exact .pure
  · exact follow.declarator type false

theorem memberType_follows (follow : rules.PartsFollow relation) {type : TypeId} :
    Follows relation (memberType rules type) := by
  refine .bind .accept fun sized => ?_
  split
  · exact follow.conditional.bind fun width => bitField_follows
  · exact .pure

theorem member_follows (follow : rules.PartsFollow relation) {start : Location}
    {specifiers : Specifiers} : Follows relation (member rules start specifiers) := by
  refine (memberDeclarator_follows follow).bind fun declarator => ?_
  refine (memberType_follows follow).bind fun type => ?_
  exact .bind .spanFrom fun _ => .addDecl rfl

theorem memberGroup?_follows (follow : rules.PartsFollow relation) :
    Follows relation (memberGroup? rules) := by
  refine .bind .peek fun kind => ?_
  split
  · exact .pure
  · exact .fail
  · refine .bind .here fun start => follow.specifiers.bind fun specifiers => ?_
    refine .bind .accept fun alone => ?_
    split
    · exact .bind .spanFrom fun _ => .bind (.addDecl rfl) fun _ => .pure
    · refine .bind (.separated (member_follows follow)) fun group => ?_
      exact .bind .expect fun _ => .pure

theorem members_follows (follow : rules.PartsFollow relation) : Follows relation (members rules) :=
  .bind (.many (memberGroup?_follows follow)) fun _ => .bind .expect fun _ => .pure

theorem enumeratorValue?_follows (follow : rules.PartsFollow relation) :
    Follows relation (enumeratorValue? rules) := by
  refine .bind .accept fun equals => ?_
  split
  · refine .bind .here fun start => follow.conditional.bind fun value => ?_
    exact .bind .spanFrom fun span => .map .addInit
  · exact .pure

theorem enumerator_follows (follow : rules.PartsFollow relation) {int : TypeId} :
    Follows relation (enumerator rules int) := by
  refine .bind .here fun start => .bind .identifier fun name => ?_
  refine (enumeratorValue?_follows follow).bind fun init => .bind .bindObject fun _ => ?_
  exact .bind .spanFrom fun _ => .addDecl rfl

theorem enumerators_follows (follow : rules.PartsFollow relation) :
    Follows relation (enumerators rules) := by
  refine .bind .here fun start => .bind (.addType (TypeNode.basic_fits rfl _)) fun int => ?_
  exact .bind (.listed (enumerator_follows follow)) fun found => .bind .expect fun _ => .pure

/-! ## Tags -/

theorem checkTagKind_follows {id : TypeId} {kind : TypeKind} {tag : String} :
    Follows relation (checkTagKind id kind tag) := by
  refine .bind .typeNode fun node => ?_
  dsimp only
  split
  · exact .fail
  · exact .pure

theorem tagKind?_isTagged {word : Keyword} {kind : TypeKind} (named : tagKind? word = some kind) :
    kind.isTagged = true := by
  unfold tagKind? at named
  split at named <;> cases named <;> rfl

theorem Scopes.innerTag?_of_findTag?_none {scopes : Scopes} {tag : String}
    (missing : scopes.findTag? tag = none) : scopes.innerTag? tag = none := by
  cases scopes with
  | nil => rfl
  | cons inner outer =>
      exact List.findSome?_eq_none_iff.mp missing inner List.mem_cons_self

theorem checkTagKind_ok {id : TypeId} {kind : TypeKind} {tag : String} {tokens : Tokens}
    {value : Unit} {s s' : State} (run : checkTagKind id kind tag tokens s = .ok value s') :
    s.typeKind? id = some kind ∧ s' = s := by
  obtain ⟨type, middle, looked, checked⟩ := bind_ok run
  obtain ⟨found, rfl⟩ := typeNode_ok looked
  by_cases differs : type.kind ≠ kind
  · simp only [if_pos differs] at checked
    cases checked
  · simp only [if_neg differs] at checked
    have same : type.kind = kind := not_not.mp differs
    exact ⟨Option.map_eq_some_iff.mpr ⟨type, found, same⟩, (pure_ok checked).2⟩

/-- A new type is added, and its tag is bound in the innermost scope. -/
theorem declareTagged_ok {kind : TypeKind} {tag : Option String} {start : Location}
    {tokens : Tokens} {id : TypeId} {s s' : State}
    (run : declareTagged kind tag start tokens s = .ok id s') :
    ∃ span, s'.arenas = (s.arenas.addType (.tagged kind tag [] span)).2 ∧
      id = (s.arenas.addType (.tagged kind tag [] span)).1 ∧
      s'.scopes = tag.elim s.scopes (s.scopes.bindTag · id) := by
  obtain ⟨span, middle, looked, inserts⟩ := bind_ok run
  obtain rfl := spanFrom_observes _ _ _ _ looked
  obtain ⟨added, grown, inserted, binds⟩ := bind_ok inserts
  obtain ⟨rfl, rfl⟩ := add_ok inserted
  cases tag <;>
    · cases binds
      exact ⟨span, rfl, rfl, rfl⟩

/-- A tag is bound only where the innermost scope has none such. -/
theorem declareTagged_relates {kind : TypeKind} (tagged : kind.isTagged = true)
    {tag : Option String} {start : Location} {tokens : Tokens} {s : State}
    (fresh : tag.bind s.scopes.innerTag? = none) :
    relation s (endState (declareTagged kind tag start tokens s)) := by
  refine Follows.spanFrom.andThen fun span middle looked => ?_
  obtain rfl := spanFrom_observes _ _ _ _ looked
  have fits := TypeNode.tagged_fits tagged tag [] span
  refine (Follows.addType fits).andThen fun id added run => ?_
  obtain ⟨rfl, rfl⟩ := add_ok run
  cases tag with
  | none => exact Permits.refl _
  | some tag =>
      let type : TypeNode := .tagged kind (some tag) [] span
      let grown : State := { middle with arenas := (middle.arenas.addType type).2 }
      have bears : grown.arenas.Bears tag (middle.arenas.addType type).1 :=
        ⟨_, Arenas.type?_addType_self _ _, tagged, rfl⟩
      exact Permits.plain (.bindTag grown tag _ fresh bears)

theorem taggedReference_follows {kind : TypeKind} (tagged : kind.isTagged = true)
    {tag : Option String} {start : Location} :
    Follows relation (taggedReference kind tag start) := by
  unfold taggedReference
  split
  · exact .fail
  · next tag =>
    refine .bind .at? fun declares tokens s => ?_
    refine Follows.scopes.andThen fun scopes middle looked => ?_
    obtain ⟨rfl, rfl⟩ := scopes_ok looked
    cases found : if declares then middle.scopes.innerTag? tag else middle.scopes.findTag? tag with
    | some id =>
        exact Follows.ends (.bind checkTagKind_follows fun _ => .pure)
    | none =>
        refine declareTagged_relates tagged ?_
        cases declares with
        | true => exact found
        | false => exact Scopes.innerTag?_of_findTag?_none found

theorem taggedOwner_follows {kind : TypeKind} (tagged : kind.isTagged = true)
    {tag : Option String} {start : Location} : Follows relation (taggedOwner kind tag start) := by
  intro tokens s
  refine Follows.scopes.andThen fun scopes middle looked => ?_
  obtain ⟨rfl, rfl⟩ := scopes_ok looked
  cases tag with
  | none => exact declareTagged_relates tagged rfl
  | some tag =>
      cases found : (some tag).bind middle.scopes.innerTag? with
      | none => exact declareTagged_relates tagged found
      | some id =>
          refine Follows.ends (.bind checkTagKind_follows fun _ => .bind .typeNode fun type => ?_)
          split
          · exact .pure
          · exact .fail

/-- A body is either of the type that the innermost scope binds its tag to, which is of the
same kind and has no declarations, or of a type that is declared for it. -/
theorem taggedOwner_ok {kind : TypeKind} {tag : Option String} {start : Location}
    {tokens : Tokens} {id : TypeId} {s s' : State}
    (run : taggedOwner kind tag start tokens s = .ok id s') :
    (tag.bind s.scopes.innerTag? = some id ∧ s' = s ∧
      ∃ type, s.arenas.type? id = some type ∧ type.kind = kind ∧ type.decls = []) ∨
    declareTagged kind tag start tokens s = .ok id s' := by
  obtain ⟨scopes, middle, looked, rest⟩ := bind_ok run
  obtain ⟨rfl, rfl⟩ := scopes_ok looked
  cases tag with
  | none => exact .inr rest
  | some tag =>
      cases found : (some tag).bind middle.scopes.innerTag? with
      | none =>
          rw [found] at rest
          exact .inr rest
      | some bound =>
          rw [found] at rest
          obtain ⟨_, checked, kinds, looks⟩ := bind_ok rest
          obtain ⟨known, rfl⟩ := checkTagKind_ok kinds
          obtain ⟨type, observed, looked, answers⟩ := bind_ok looks
          obtain ⟨there, rfl⟩ := typeNode_ok looked
          by_cases empty : type.decls.isEmpty = true
          · simp only [if_pos empty] at answers
            obtain ⟨rfl, rfl⟩ := pure_ok answers
            obtain ⟨same, again, equal⟩ := Option.map_eq_some_iff.mp known
            obtain rfl : type = same := Option.some.inj (there.symm.trans again)
            exact .inl ⟨rfl, rfl, type, there, equal, List.isEmpty_iff.mp empty⟩
          · simp only [if_neg empty] at answers
            cases answers

/-- The type that a body defines has no declarations yet. -/
theorem taggedOwner_bare {kind : TypeKind} (tagged : kind.isTagged = true)
    {tag : Option String} {start : Location} {tokens : Tokens} {id : TypeId} {s s' : State}
    (run : taggedOwner kind tag start tokens s = .ok id s') : s'.arenas.Bare id := by
  rcases taggedOwner_ok run with ⟨-, rfl, type, found, rfl, empty⟩ | declares
  · exact ⟨type, found, tagged, empty⟩
  · obtain ⟨span, arenas, rfl, -⟩ := declareTagged_ok declares
    rw [arenas]
    exact ⟨_, Arenas.type?_addType_self _ _, tagged, rfl⟩

theorem tagBody_follows (follow : rules.PartsFollow relation) {kind : TypeKind} :
    Follows relation (tagBody rules kind) := by
  unfold tagBody
  split
  · exact enumerators_follows follow
  · exact members_follows follow

/-- A body that is read for a type without declarations. -/
theorem taggedBody_relates (follow : rules.PartsFollow relation) {kind : TypeKind} {id : TypeId}
    {tokens : Tokens} {s : State} (bare : s.arenas.Bare id) :
    relation s (endState ((do
      let decls ← tagBody rules kind
      Parse.completeType id decls
      return id) tokens s)) := by
  have inner : relation s (endState (tagBody rules kind tokens s)) :=
    tagBody_follows follow tokens s
  rw [bind_apply]
  cases outcome : tagBody rules kind tokens s with
  | error cause failed =>
      rw [outcome] at inner
      exact inner
  | ok decls closed =>
      rw [outcome] at inner
      cases found : closed.arenas.type? id with
      | none =>
          simp only [Parse.completeType, bind_apply, typeNode_missing found]
          exact inner
      | some type =>
          simp only [Parse.completeType, bind_apply, typeNode_apply found]
          have noted : relation closed
              { closed with log := .completed id type.decls :: closed.log } :=
            Permits.plain (.note closed id type.decls)
          exact Permits.body decls bare (Permits.trans inner noted)

/-- A body that has been read, and the type for which it has been. -/
theorem taggedBody_ok (follow : rules.PartsFollow relation) {kind : TypeKind} {id type : TypeId}
    {tokens : Tokens} {s s' : State} (bare : s.arenas.Bare id)
    (run : (do
      Parse.advance
      let decls ← tagBody rules kind
      Parse.completeType id decls
      return id : Parse TypeId) tokens s = .ok type s') : type = id ∧ relation s s' := by
  have course : relation s (endState ((do
      Parse.advance
      let decls ← tagBody rules kind
      Parse.completeType id decls
      return id) tokens s)) :=
    Follows.advance.andThen fun _ opened moved =>
      taggedBody_relates follow ((advance_arenas moved).symm ▸ bare)
  rw [run] at course
  obtain ⟨_, opened, moved, reads⟩ := bind_ok run
  obtain ⟨decls, closed, -, completes⟩ := bind_ok reads
  obtain ⟨_, completed, -, answers⟩ := bind_ok completes
  exact ⟨(pure_ok answers).1, course⟩

theorem taggedSpecifier_follows (follow : rules.PartsFollow relation) {kind : TypeKind}
    (tagged : kind.isTagged = true) : Follows relation (taggedSpecifier rules kind) := by
  refine .bind .here fun start => .bind .advance fun _ => .bind .identifier? fun tag => ?_
  refine .bind .at? fun opens => ?_
  split
  · intro tokens s
    refine (taggedOwner_follows tagged).andThen fun id owned run => ?_
    have bare : owned.arenas.Bare id := taggedOwner_bare tagged run
    refine Follows.advance.andThen fun _ opened moved => ?_
    refine taggedBody_relates follow ?_
    rwa [advance_arenas moved]
  · exact taggedReference_follows tagged

/-! ## The list of specifiers -/

theorem specifierRound_follows (follow : rules.PartsFollow relation) {list : SpecifierList} :
    Follows relation (specifierRound rules list) := by
  refine .bind .peek fun kind => ?_
  split
  · split
    · dsimp only
      split
      · exact .refuse
      · exact .bind .advance fun _ => .pure
    · split
      · next named =>
        dsimp only
        split
        · exact .refuse
        · exact (taggedSpecifier_follows follow (tagKind?_isTagged named)).bind fun _ => .pure
      · split
        · exact .bind .advance fun _ => .pure
        · exact .pure
  · refine .bind .isTypedef fun typedef => ?_
    split
    · exact .bind .advance fun _ => .pure
    · exact .pure
  · exact .pure

theorem TypeWords.kind?_isBasic {words : TypeWords} {kind : TypeKind}
    (named : words.kind? = some kind) : kind.isBasic = true := by
  unfold kind? at named
  grind [TypeKind.isBasic]

theorem specifiedType_follows {list : SpecifierList} {span : Span} :
    Follows relation (specifiedType list span) := by
  unfold specifiedType
  split
  · exact .pure
  · exact .addType ((TypeNode.typedefName_fits _ span).qualified _)
  · split
    · exact .bind .peek fun _ => .fail
    · split
      · next named =>
        exact .addType ((TypeNode.basic_fits (TypeWords.kind?_isBasic named) span).qualified _)
      · exact .fail

theorem specifiers_follows (follow : rules.PartsFollow relation) :
    Follows relation (specifiers rules) := by
  refine .bind .here fun start => ?_
  refine .bind (.iterate (fun _ => specifierRound_follows follow) _) fun list => ?_
  exact .bind .spanFrom fun span => specifiedType_follows.bind fun type => .pure

/-! ## Parameters and suffixes -/

theorem qualifierRound_follows {q : Qualifiers} : Follows relation (qualifierRound q) := by
  refine .bind .peek fun kind => ?_
  split
  · split
    · exact .bind .advance fun _ => .pure
    · exact .pure
  · exact .pure

theorem qualifiers_follows :
    Follows relation qualifiers := .iterate (fun _ => qualifierRound_follows) _

theorem pointers_follows {base : TypeId} : Follows relation (pointers base) := by
  refine .iterate (fun type => .bind .here fun start => .bind .accept fun star => ?_) base
  split
  · refine qualifiers_follows.bind fun found => .bind .spanFrom fun span => ?_
    exact .map (.addType ((TypeNode.pointer_fits type span).qualified found))
  · exact .pure

theorem parameter_follows (follow : rules.PartsFollow relation) :
    Follows relation (parameter rules) := by
  refine .bind .here fun start => follow.specifiers.bind fun specifiers => ?_
  refine (follow.declarator specifiers.type true).bind fun declarator => ?_
  exact .bind .spanFrom fun _ => .addDecl rfl

theorem parameterRound_follows (follow : rules.PartsFollow relation) {list : ParameterList} :
    Follows relation (parameterRound rules list) := by
  unfold parameterRound
  split
  · exact .pure
  · refine .bind .accept fun ellipsis => ?_
    split
    · exact .pure
    · exact (parameter_follows follow).bind fun next => .bind .accept fun more => .pure

theorem parameters_follows (follow : rules.PartsFollow relation) :
    Follows relation (parameters rules) := by
  refine .bind .accept fun closes => ?_
  split
  · exact .pure
  · refine .bind .at? fun void => .bind .peekNext fun next => ?_
    split
    · exact .bind .advance fun _ => .bind .advance fun _ => .pure
    · refine .bind (.iterate (fun _ => parameterRound_follows follow) _) fun list => ?_
      exact .bind .expect fun _ => .pure

theorem arrayLength?_follows (follow : rules.PartsFollow relation) :
    Follows relation (arrayLength? rules) := by
  refine .bind .at? fun closes => ?_
  split
  · exact .pure
  · exact .map follow.assignment

theorem arraySuffix_follows (follow : rules.PartsFollow relation) {start : Location} :
    Follows relation (arraySuffix rules start) := by
  refine qualifiers_follows.bind fun _ => .bind .accept fun _ => ?_
  refine (arrayLength?_follows follow).bind fun length => ?_
  exact .bind .expect fun _ => .bind .spanFrom fun span => .pure

theorem functionSuffix_follows (follow : rules.PartsFollow relation) {start : Location} :
    Follows relation (functionSuffix rules start) :=
  (parameters_follows follow).bind fun _ => .bind .spanFrom fun _ => .pure

theorem suffix?_follows (follow : rules.PartsFollow relation) :
    Follows relation (suffix? rules) := by
  refine .bind .here fun start => .bind .accept fun bracket => ?_
  split
  · exact .map (arraySuffix_follows follow)
  · refine .bind .accept fun paren => ?_
    split
    · exact .map (functionSuffix_follows follow)
    · exact .pure

theorem Suffix.over_fits (suffix : Suffix) (base : TypeId) : (suffix.over base).Fits := by
  cases suffix with
  | array length span => exact TypeNode.array_fits base length span
  | function parameters variadic span =>
      exact TypeNode.function_fits base parameters variadic span

theorem suffixes_follows (follow : rules.PartsFollow relation) {base : TypeId} :
    Follows relation (suffixes rules base) := by
  refine .bind (.many (suffix?_follows follow)) fun found => ?_
  exact .foldrM (fun suffix type => .addType (suffix.over_fits type)) base found

/-! ## Declarators -/

theorem atNestedDeclarator_follows : Follows relation atNestedDeclarator := by
  refine .bind .at? fun opens => ?_
  split
  · refine .bind .peekNext fun next => ?_
    split
    · exact .pure
    · exact .pure
    · exact .bind .isTypedef fun _ => .pure
    · exact .pure
  · exact .pure

theorem skipRound_follows {depth : Nat × Bool} : Follows relation (skipRound depth) := by
  obtain ⟨depth, ended⟩ := depth
  cases ended with
  | true => exact .pure
  | false =>
      refine .bind .peek fun kind => ?_
      split
      · exact .fail
      · exact .bind .advance fun _ => .pure
      · dsimp only
        split
        · exact .refuse
        · exact .bind .advance fun _ => .pure
      · exact .bind .advance fun _ => .pure

theorem skipParenthesized_follows : Follows relation skipParenthesized :=
  .bind (.iterate (fun _ => skipRound_follows) _) fun _ => .pure

theorem nestedDeclarator_follows (follow : rules.PartsFollow relation) {type : TypeId}
    {abstractOk : Bool} : Follows relation (nestedDeclarator rules type abstractOk) := by
  refine .bind .position fun place => .bind skipParenthesized_follows fun _ => ?_
  refine (suffixes_follows follow).bind fun outer => .bind .position fun resume => ?_
  refine .bind .moveTo fun _ => (follow.declarator outer abstractOk).bind fun declarator => ?_
  exact .bind .expect fun _ => .bind .moveTo fun _ => .pure

theorem plainDeclarator_follows (follow : rules.PartsFollow relation) {type : TypeId}
    {abstractOk : Bool} : Follows relation (plainDeclarator rules type abstractOk) := by
  refine .bind .identifier? fun name => ?_
  dsimp only
  split
  · exact .bind .peek fun _ => .refuse
  · exact (suffixes_follows follow).bind fun _ => .pure

theorem declarator_follows (follow : rules.PartsFollow relation) {base : TypeId}
    {abstractOk : Bool} :
    Follows relation (declarator rules base abstractOk) := by
  refine pointers_follows.bind fun type => .bind atNestedDeclarator_follows fun nested => ?_
  split
  · exact nestedDeclarator_follows follow
  · exact plainDeclarator_follows follow

theorem typeName_follows (follow : rules.PartsFollow relation) :
    Follows relation (typeName rules) := by
  refine (specifiers_follows follow).bind fun specifiers => ?_
  dsimp only
  split
  · exact .refuse
  · refine (declarator_follows follow).bind fun declarator => ?_
    split
    · exact .fail
    · exact .pure

end SyntaxGraph.Grammar
