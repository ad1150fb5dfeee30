import SyntaxGraph.Grammar.Declarator
import SyntaxGraph.Proofs.Texts.Expression

/-!
# Specifiers and declarators cite their tokens

A tag, an enumerator and the name in a declarator are identifiers, and a list of specifiers
holds the identifier that it has taken for the name of a type.  A declaration without a
declarator's name has the empty name, and a bit-field has the tag or the name of the type of
which it is a copy.
-/

set_option autoImplicit false

namespace SyntaxGraph.Grammar

open Token (Kind Keyword Punctuator)

variable {tokens : Tokens} {rules : Rules}

/-- A declaration of what a declarator names, if it names anything. -/
theorem Declarator.Cites.decl {declarator : Declarator} (cites : declarator.Cites tokens)
    {decl : Decl} (same : decl.name = declarator.name.getD "") : decl.Cites tokens := by
  intro named
  rw [same] at named ⊢
  cases name : declarator.name with
  | none => simp [name] at named
  | some text => exact cites text name

/-! ## Members -/

theorem bitField_cites {type : TypeId} {width : ExprId} : Steady tokens (bitField type width) := by
  refine .bind .typeNode fun base cites => ?_
  split
  · exact .addType ⟨cites.tag, cites.name⟩
  · exact .fail

theorem memberDeclarator_cites (cite : rules.Cite tokens) {type : TypeId} :
    Cites tokens (Declarator.Cites tokens) (memberDeclarator rules type) := by
  refine .past .at? fun unnamed => ?_
  split
  · exact .pure fun name none => nomatch none
  · exact cite.declarator type false

theorem memberType_cites (cite : rules.Cite tokens) {type : TypeId} :
    Steady tokens (memberType rules type) := by
  refine .past .accept fun sized => ?_
  split
  · exact cite.conditional.past fun width => bitField_cites
  · exact .pure trivial

theorem member_cites (cite : rules.Cite tokens) {start : Location} {specifiers : Specifiers} :
    Steady tokens (member rules start specifiers) := by
  refine (memberDeclarator_cites cite).bind fun declarator cites => ?_
  refine (memberType_cites cite).past fun type => ?_
  exact .past .spanFrom fun _ => .addDecl (cites.decl rfl)

theorem memberGroup?_cites (cite : rules.Cite tokens) : Steady tokens (memberGroup? rules) := by
  refine .past .peek fun kind => ?_
  split
  · exact .pure trivial
  · exact .fail
  · refine .past .here fun start => cite.specifiers.past fun specifiers => ?_
    refine .past .accept fun alone => ?_
    split
    · refine .past .spanFrom fun _ => .past (.addDecl (.unnamed rfl)) fun _ => ?_
      exact .pure trivial
    · refine .past (.separated (member_cites cite)) fun group => ?_
      exact .past .expect fun _ => .pure trivial

theorem members_cites (cite : rules.Cite tokens) : Steady tokens (members rules) :=
  .past (.many (memberGroup?_cites cite)) fun _ => .past .expect fun _ => .pure trivial

theorem enumeratorValue?_cites (cite : rules.Cite tokens) :
    Steady tokens (enumeratorValue? rules) := by
  refine .past .accept fun equals => ?_
  split
  · refine .past .here fun start => cite.conditional.past fun value => ?_
    exact .past .spanFrom fun span => .mapAny .addInit
  · exact .pure trivial

theorem enumerator_cites (cite : rules.Cite tokens) {int : TypeId} :
    Steady tokens (enumerator rules int) := by
  refine .past .here fun start => .bind .identifier fun name named => ?_
  refine (enumeratorValue?_cites cite).past fun init => .past .bindName fun _ => ?_
  exact .past .spanFrom fun _ => .addDecl fun _ => named

theorem enumerators_cites (cite : rules.Cite tokens) : Steady tokens (enumerators rules) := by
  refine .past .here fun start => .past (.addType (.untexted rfl rfl)) fun int => ?_
  refine .past (.listed (enumerator_cites cite)) fun found => ?_
  exact .past .expect fun _ => .pure trivial

/-! ## Tags -/

theorem checkTagKind_cites {id : TypeId} {kind : TypeKind} {tag : String} :
    Steady tokens (checkTagKind id kind tag) := by
  refine .past .typeNode fun node => ?_
  dsimp only
  split
  · exact .fail
  · exact .pure trivial

theorem declareTagged_cites {kind : TypeKind} {tag : Option String} {start : Location}
    (named : ∀ name ∈ tag, tokens.Names name) : Steady tokens (declareTagged kind tag start) := by
  refine .past .spanFrom fun span => ?_
  refine .past (.addType ⟨named, fun text none => nomatch none⟩) fun id => ?_
  cases tag with
  | none => exact .pure trivial
  | some tag => exact .past .bindTag fun _ => .pure trivial

theorem taggedReference_cites {kind : TypeKind} {tag : Option String} {start : Location}
    (named : ∀ name ∈ tag, tokens.Names name) :
    Steady tokens (taggedReference kind tag start) := by
  unfold taggedReference
  split
  · exact .fail
  · refine .past .at? fun declares => .past (.look scopes_observes) fun scopes => ?_
    split
    · exact .past checkTagKind_cites fun _ => .pure trivial
    · exact declareTagged_cites named

theorem taggedOwner_cites {kind : TypeKind} {tag : Option String} {start : Location}
    (named : ∀ name ∈ tag, tokens.Names name) : Steady tokens (taggedOwner kind tag start) := by
  refine .past (.look scopes_observes) fun scopes => ?_
  split
  · refine .past checkTagKind_cites fun _ => .past .typeNode fun type => ?_
    split
    · exact .pure trivial
    · exact .fail
  · exact declareTagged_cites named

theorem tagBody_cites (cite : rules.Cite tokens) {kind : TypeKind} :
    Steady tokens (tagBody rules kind) := by
  unfold tagBody
  split
  · exact enumerators_cites cite
  · exact members_cites cite

theorem taggedSpecifier_cites (cite : rules.Cite tokens) {kind : TypeKind} :
    Steady tokens (taggedSpecifier rules kind) := by
  refine .past .here fun start => .past .advance fun _ => .bind .identifier? fun tag named => ?_
  refine .past .at? fun opens => ?_
  split
  · refine (taggedOwner_cites named).past fun id => .past .advance fun _ => ?_
    refine (tagBody_cites cite).past fun decls => .past .completeType fun _ => ?_
    exact .pure trivial
  · exact taggedReference_cites named

/-! ## The list of specifiers -/

/-- What the list has taken for the name of a type is a name. -/
def SpecifierList.Cites (tokens : Tokens) (list : SpecifierList) : Prop :=
  ∀ name ∈ list.typedefName, tokens.Names name

theorem SpecifierList.insert?_typedefName {list next : SpecifierList} {word : Keyword}
    (inserted : list.insert? word = some next) : next.typedefName = list.typedefName := by
  unfold insert? at inserted
  split at inserted
  · cases inserted
    rfl
  split at inserted
  · cases inserted
    rfl
  · obtain ⟨words, -, rfl⟩ := Option.map_eq_some_iff.mp inserted
    rfl

theorem specifierRound_cites (cite : rules.Cite tokens) {list : SpecifierList}
    (cites : list.Cites tokens) :
    Cites tokens (fun next => ∀ list ∈ next, SpecifierList.Cites tokens list)
      (specifierRound rules list) := by
  have goesOn {next : SpecifierList} (same : next.typedefName = list.typedefName) :
      ∀ list ∈ some next, SpecifierList.Cites tokens list := by
    intro found member
    cases member
    rwa [SpecifierList.Cites, same]
  have ends : ∀ list ∈ none, SpecifierList.Cites tokens list := fun list none => nomatch none
  refine .bind .peek fun kind there => ?_
  split
  · split
    · dsimp only
      split
      · exact .refuse
      · exact .past .advance fun _ => .pure (goesOn rfl)
    · split
      · dsimp only
        split
        · exact .refuse
        · exact (taggedSpecifier_cites cite).past fun _ => .pure (goesOn rfl)
      · split
        · next inserted =>
            exact .past .advance fun _ =>
              .pure (goesOn (SpecifierList.insert?_typedefName inserted))
        · exact .pure ends
  · refine .past (.look isTypedef_observes) fun typedef => ?_
    split
    · refine .past .advance fun _ => .pure fun found member name taken => ?_
      cases member
      cases taken
      exact there
    · exact .pure ends
  · exact .pure ends

theorem specifiedType_cites {list : SpecifierList} {span : Span} (cites : list.Cites tokens) :
    Steady tokens (specifiedType list span) := by
  unfold specifiedType
  split
  · exact .pure trivial
  · next name _ named =>
      refine .addType ⟨fun text none => (nomatch none), fun text same => ?_⟩
      exact cites text (named.trans same)
  · split
    · exact .past .peek fun _ => .fail
    · split
      · exact .addType (.untexted rfl rfl)
      · exact .fail

theorem specifiers_cites (cite : rules.Cite tokens) : Steady tokens (specifiers rules) := by
  have start : SpecifierList.Cites tokens {} := fun name none => nomatch none
  refine .past .here fun _ => ?_
  refine .bind (.iterate (fun _ cites => specifierRound_cites cite cites) start)
    fun list cites => ?_
  exact .past .spanFrom fun span => (specifiedType_cites cites).past fun type => .pure trivial

/-! ## Parameters and suffixes -/

theorem qualifierRound_cites {q : Qualifiers} : Steady tokens (qualifierRound q) := by
  refine .past .peek fun kind => ?_
  split
  · split
    · exact .past .advance fun _ => .pure trivial
    · exact .pure trivial
  · exact .pure trivial

theorem qualifiers_cites : Steady tokens qualifiers :=
  .iterateAny (fun _ => qualifierRound_cites) _

theorem pointers_cites {base : TypeId} : Steady tokens (pointers base) := by
  refine .iterateAny (fun type => .past .here fun start => .past .accept fun star => ?_) base
  split
  · refine qualifiers_cites.past fun found => .past .spanFrom fun span => ?_
    exact .mapAny (.addType (.untexted rfl rfl))
  · exact .pure trivial

theorem parameter_cites (cite : rules.Cite tokens) : Steady tokens (parameter rules) := by
  refine .past .here fun start => cite.specifiers.past fun specifiers => ?_
  refine (cite.declarator specifiers.type true).bind fun declarator cites => ?_
  exact .past .spanFrom fun _ => .addDecl (cites.decl rfl)

theorem parameterRound_cites (cite : rules.Cite tokens) {list : ParameterList} :
    Steady tokens (parameterRound rules list) := by
  unfold parameterRound
  split
  · exact .pure trivial
  · refine .past .accept fun ellipsis => ?_
    split
    · exact .pure trivial
    · exact (parameter_cites cite).past fun next => .past .accept fun more => .pure trivial

theorem parameters_cites (cite : rules.Cite tokens) : Steady tokens (parameters rules) := by
  refine .past .accept fun closes => ?_
  split
  · exact .pure trivial
  · refine .past .at? fun void => .past (.look peekNext_observes) fun next => ?_
    split
    · exact .past .advance fun _ => .past .advance fun _ => .pure trivial
    · refine .past (.iterateAny (fun _ => parameterRound_cites cite) _) fun list => ?_
      exact .past .expect fun _ => .pure trivial

theorem arrayLength?_cites (cite : rules.Cite tokens) : Steady tokens (arrayLength? rules) := by
  refine .past .at? fun closes => ?_
  split
  · exact .pure trivial
  · exact .mapAny cite.assignment

theorem arraySuffix_cites (cite : rules.Cite tokens) {start : Location} :
    Steady tokens (arraySuffix rules start) := by
  refine qualifiers_cites.past fun _ => .past .accept fun _ => ?_
  refine (arrayLength?_cites cite).past fun length => ?_
  exact .past .expect fun _ => .past .spanFrom fun span => .pure trivial

theorem functionSuffix_cites (cite : rules.Cite tokens) {start : Location} :
    Steady tokens (functionSuffix rules start) :=
  (parameters_cites cite).past fun _ => .past .spanFrom fun _ => .pure trivial

theorem suffix?_cites (cite : rules.Cite tokens) : Steady tokens (suffix? rules) := by
  refine .past .here fun start => .past .accept fun bracket => ?_
  split
  · exact .mapAny (arraySuffix_cites cite)
  · refine .past .accept fun paren => ?_
    split
    · exact .mapAny (functionSuffix_cites cite)
    · exact .pure trivial

theorem Suffix.over_cites (suffix : Suffix) (base : TypeId) :
    (suffix.over base).Cites tokens := by
  cases suffix <;> exact .untexted rfl rfl

theorem suffixes_cites (cite : rules.Cite tokens) {base : TypeId} :
    Steady tokens (suffixes rules base) :=
  .past (.many (suffix?_cites cite)) fun _ =>
    .foldrM (fun suffix type => .addType (suffix.over_cites type)) _ _

/-! ## Declarators -/

theorem atNestedDeclarator_cites : Steady tokens atNestedDeclarator := by
  refine .past .at? fun opens => ?_
  split
  · refine .past (.look peekNext_observes) fun next => ?_
    split
    · exact .pure trivial
    · exact .pure trivial
    · exact .past (.look isTypedef_observes) fun _ => .pure trivial
    · exact .pure trivial
  · exact .pure trivial

theorem skipRound_cites {depth : Nat × Bool} : Steady tokens (skipRound depth) := by
  obtain ⟨depth, ended⟩ := depth
  cases ended with
  | true => exact .pure trivial
  | false =>
      refine .past .peek fun kind => ?_
      split
      · exact .fail
      · exact .past .advance fun _ => .pure trivial
      · dsimp only
        split
        · exact .refuse
        · exact .past .advance fun _ => .pure trivial
      · exact .past .advance fun _ => .pure trivial

theorem skipParenthesized_cites : Steady tokens skipParenthesized :=
  .past (.iterateAny (fun _ => skipRound_cites) _) fun _ => .pure trivial

theorem nestedDeclarator_cites (cite : rules.Cite tokens) {type : TypeId} {abstractOk : Bool} :
    Cites tokens (Declarator.Cites tokens) (nestedDeclarator rules type abstractOk) := by
  refine .past (.look position_observes) fun place => .past skipParenthesized_cites fun _ => ?_
  refine (suffixes_cites cite).past fun outer => .past (.look position_observes) fun resume => ?_
  refine .past .moveTo fun _ => (cite.declarator outer abstractOk).bind fun declarator cites => ?_
  exact .past .expect fun _ => .past .moveTo fun _ => .pure cites

theorem plainDeclarator_cites (cite : rules.Cite tokens) {type : TypeId} {abstractOk : Bool} :
    Cites tokens (Declarator.Cites tokens) (plainDeclarator rules type abstractOk) := by
  refine .bind .identifier? fun name named => ?_
  dsimp only
  split
  · exact .past .peek fun _ => .refuse
  · exact (suffixes_cites cite).past fun _ => .pure named

theorem declarator_cites (cite : rules.Cite tokens) {base : TypeId} {abstractOk : Bool} :
    Cites tokens (Declarator.Cites tokens) (declarator rules base abstractOk) := by
  refine pointers_cites.past fun type => .past atNestedDeclarator_cites fun nested => ?_
  split
  · exact nestedDeclarator_cites cite
  · exact plainDeclarator_cites cite

theorem typeName_cites (cite : rules.Cite tokens) : Steady tokens (typeName rules) := by
  refine (specifiers_cites cite).past fun specifiers => ?_
  dsimp only
  split
  · exact .refuse
  · refine (declarator_cites cite).past fun declarator => ?_
    split
    · exact .fail
    · exact .pure trivial

end SyntaxGraph.Grammar
