import SyntaxGraph.Grammar.Declarator
import SyntaxGraph.Proofs.Locality.Expression

/-!
# Specifiers and declarators are read locally

A list of specifiers ends where no specifier follows, and a declarator where no suffix
follows.  A nested declarator is left at its closing parenthesis before the reader goes on
behind the suffixes, so its inside is in front of the cut.
-/

set_option autoImplicit false

namespace SyntaxGraph.Grammar

open Token (Kind Keyword Punctuator)

variable {cut : Cut} {rules others : Rules}

/-! ## Members -/

theorem bitField_local {type : TypeId} {width : ExprId} :
    Local cut (bitField type width) (bitField type width) := by
  refine .bind .typeNode fun base => ?_
  split
  · exact .add
  · exact .fail

theorem memberDeclarator_local (near : rules.AllLocal others cut) {type : TypeId} :
    Local cut (memberDeclarator rules type) (memberDeclarator others type) := by
  refine .bind .at? fun unnamed => ?_
  split
  · exact .pure
  · exact near.declarator type false

theorem memberType_local (near : rules.AllLocal others cut) {type : TypeId} :
    Local cut (memberType rules type) (memberType others type) := by
  refine .bind .accept fun sized => ?_
  split
  · exact near.conditional.bind fun width => bitField_local
  · exact .pure

theorem member_local (near : rules.AllLocal others cut) {start : Location}
    {specifiers : Specifiers} :
    Local cut (member rules start specifiers) (member others start specifiers) := by
  refine (memberDeclarator_local near).bind fun declarator => ?_
  refine (memberType_local near).bind fun type => ?_
  exact .bind .spanFrom fun _ => .add

theorem memberGroup?_local (near : rules.AllLocal others cut) :
    Local cut (memberGroup? rules) (memberGroup? others) := by
  refine .bind .peek fun kind => ?_
  split
  · exact .pure
  · exact .fail
  · refine .bind .here fun start => near.specifiers.bind fun specifiers => ?_
    refine .bind .accept fun alone => ?_
    split
    · exact .bind .spanFrom fun _ => .bind .add fun _ => .pure
    · refine .bind (.separated (member_local near)) fun group => ?_
      exact .bind .expect fun _ => .pure

theorem members_local (near : rules.AllLocal others cut) :
    Local cut (members rules) (members others) :=
  .bind (.many (memberGroup?_local near)) fun _ => .bind .expect fun _ => .pure

theorem enumeratorValue?_local (near : rules.AllLocal others cut) :
    Local cut (enumeratorValue? rules) (enumeratorValue? others) := by
  refine .bind .accept fun equals => ?_
  split
  · refine .bind .here fun start => near.conditional.bind fun value => ?_
    exact .bind .spanFrom fun span => .map .add
  · exact .pure

theorem enumerator_local (near : rules.AllLocal others cut) {int : TypeId} :
    Local cut (enumerator rules int) (enumerator others int) := by
  refine .bind .here fun start => .bind .identifier fun name => ?_
  refine (enumeratorValue?_local near).bind fun init => .bind .bindName fun _ => ?_
  exact .bind .spanFrom fun _ => .add

theorem enumerators_local (near : rules.AllLocal others cut) :
    Local cut (enumerators rules) (enumerators others) := by
  refine .bind .here fun start => .bind .add fun int => ?_
  exact .bind (.listed (enumerator_local near)) fun found => .bind .expect fun _ => .pure

/-! ## Tags -/

theorem checkTagKind_local {id : TypeId} {kind : TypeKind} {tag : String} :
    Local cut (checkTagKind id kind tag) (checkTagKind id kind tag) := by
  refine .bind .typeNode fun node => ?_
  dsimp only
  split
  · exact .fail
  · exact .pure

theorem declareTagged_local {kind : TypeKind} {tag : Option String} {start : Location} :
    Local cut (declareTagged kind tag start) (declareTagged kind tag start) := by
  refine .bind .spanFrom fun span => .bind .add fun id => ?_
  cases tag with
  | none => exact .pure
  | some tag => exact .bind .modifyScopes fun _ => .pure

theorem taggedReference_local {kind : TypeKind} {tag : Option String} {start : Location} :
    Local cut (taggedReference kind tag start) (taggedReference kind tag start) := by
  unfold taggedReference
  split
  · exact .fail
  · refine .bind .at? fun declares => .bind .scopes fun scopes => ?_
    split
    · exact .bind checkTagKind_local fun _ => .pure
    · exact declareTagged_local

theorem taggedOwner_local {kind : TypeKind} {tag : Option String} {start : Location} :
    Local cut (taggedOwner kind tag start) (taggedOwner kind tag start) := by
  refine .bind .scopes fun scopes => ?_
  split
  · refine .bind checkTagKind_local fun _ => .bind .typeNode fun type => ?_
    split
    · exact .pure
    · exact .fail
  · exact declareTagged_local

theorem tagBody_local (near : rules.AllLocal others cut) {kind : TypeKind} :
    Local cut (tagBody rules kind) (tagBody others kind) := by
  unfold tagBody
  split
  · exact enumerators_local near
  · exact members_local near

theorem taggedSpecifier_local (near : rules.AllLocal others cut) {kind : TypeKind} :
    Local cut (taggedSpecifier rules kind) (taggedSpecifier others kind) := by
  refine .bind .here fun start => .bind .advance fun _ => .bind .identifier? fun tag => ?_
  refine .bind .at? fun opens => ?_
  split
  · refine taggedOwner_local.bind fun id => .bind .advance fun _ => ?_
    refine (tagBody_local near).bind fun decls => .bind .completeType fun _ => .pure
  · exact taggedReference_local

/-! ## The list of specifiers -/

theorem specifierRound_local (near : rules.AllLocal others cut) {list : SpecifierList} :
    Local cut (specifierRound rules list) (specifierRound others list) := by
  refine .bind .peek fun kind => ?_
  split
  · split
    · dsimp only
      split
      · exact .refuse
      · exact .bind .advance fun _ => .pure
    · split
      · dsimp only
        split
        · exact .refuse
        · exact (taggedSpecifier_local near).bind fun _ => .pure
      · split
        · exact .bind .advance fun _ => .pure
        · exact .pure
  · refine .bind .isTypedef fun typedef => ?_
    split
    · exact .bind .advance fun _ => .pure
    · exact .pure
  · exact .pure

theorem specifiedType_local {list : SpecifierList} {span : Span} :
    Local cut (specifiedType list span) (specifiedType list span) := by
  unfold specifiedType
  split
  · exact .pure
  · exact .add
  · split
    · exact .bind .peek fun _ => .fail
    · split
      · exact .add
      · exact .fail

theorem specifiers_local (near : rules.AllLocal others cut) :
    Local cut (specifiers rules) (specifiers others) := by
  refine .bind .here fun start => ?_
  refine .bind (.iterate (fun _ => specifierRound_local near) _) fun list => ?_
  exact .bind .spanFrom fun span => specifiedType_local.bind fun type => .pure

/-! ## Parameters and suffixes -/

theorem qualifierRound_local {q : Qualifiers} :
    Local cut (qualifierRound q) (qualifierRound q) := by
  refine .bind .peek fun kind => ?_
  split
  · split
    · exact .bind .advance fun _ => .pure
    · exact .pure
  · exact .pure

theorem qualifiers_local :
    Local cut qualifiers qualifiers := .iterate (fun _ => qualifierRound_local) _

theorem pointers_local {base : TypeId} : Local cut (pointers base) (pointers base) := by
  refine .iterate (fun type => .bind .here fun start => .bind .accept fun star => ?_) base
  split
  · refine qualifiers_local.bind fun found => .bind .spanFrom fun span => ?_
    exact .map .add
  · exact .pure

theorem parameter_local (near : rules.AllLocal others cut) :
    Local cut (parameter rules) (parameter others) := by
  refine .bind .here fun start => near.specifiers.bind fun specifiers => ?_
  refine (near.declarator specifiers.type true).bind fun declarator => ?_
  exact .bind .spanFrom fun _ => .add

theorem parameterRound_local (near : rules.AllLocal others cut) {list : ParameterList} :
    Local cut (parameterRound rules list) (parameterRound others list) := by
  unfold parameterRound
  split
  · exact .pure
  · refine .bind .accept fun ellipsis => ?_
    split
    · exact .pure
    · exact (parameter_local near).bind fun next => .bind .accept fun more => .pure

theorem parameters_local (near : rules.AllLocal others cut) :
    Local cut (parameters rules) (parameters others) := by
  refine .bind .accept fun closes => ?_
  split
  · exact .pure
  · refine .at?From fun kind => .peekNext ?_ fun next => .of_local ?_
    · intro closes one other
      have apart : kind ≠ .keyword .voidKw := by
        rintro rfl
        cases closes
      simp [apart]
    split
    · exact .bind .advance fun _ => .bind .advance fun _ => .pure
    · refine .bind (.iterate (fun _ => parameterRound_local near) _) fun list => ?_
      exact .bind .expect fun _ => .pure

theorem arrayLength?_local (near : rules.AllLocal others cut) :
    Local cut (arrayLength? rules) (arrayLength? others) := by
  refine .bind .at? fun closes => ?_
  split
  · exact .pure
  · exact .map near.assignment

theorem arraySuffix_local (near : rules.AllLocal others cut) {start : Location} :
    Local cut (arraySuffix rules start) (arraySuffix others start) := by
  refine qualifiers_local.bind fun _ => .bind .accept fun _ => ?_
  refine (arrayLength?_local near).bind fun length => ?_
  exact .bind .expect fun _ => .bind .spanFrom fun span => .pure

theorem functionSuffix_local (near : rules.AllLocal others cut) {start : Location} :
    Local cut (functionSuffix rules start) (functionSuffix others start) :=
  (parameters_local near).bind fun _ => .bind .spanFrom fun _ => .pure

theorem suffix?_local (near : rules.AllLocal others cut) :
    Local cut (suffix? rules) (suffix? others) := by
  refine .bind .here fun start => .bind .accept fun bracket => ?_
  split
  · exact .map (arraySuffix_local near)
  · refine .bind .accept fun paren => ?_
    split
    · exact .map (functionSuffix_local near)
    · exact .pure

theorem suffixes_local (near : rules.AllLocal others cut) {base : TypeId} :
    Local cut (suffixes rules base) (suffixes others base) :=
  .bind (.many (suffix?_local near)) fun _ => .foldrM (fun _ _ => .add) _ _

/-! ## Declarators -/

theorem atNestedDeclarator_local : Local cut atNestedDeclarator atNestedDeclarator := by
  refine .at?From fun kind => ?_
  split
  · next opens =>
    refine .peekNext (fun closes => ?_) fun next => .of_local ?_
    · rw [of_decide_eq_true opens] at closes
      cases closes
    split
    · exact .pure
    · exact .pure
    · exact .bind .isTypedef fun _ => .pure
    · exact .pure
  · exact .of_local .pure

theorem skipRound_local {depth : Nat × Bool} : Local cut (skipRound depth) (skipRound depth) := by
  obtain ⟨depth, ended⟩ := depth
  cases ended with
  | true => exact .pure
  | false =>
      refine .bind .peek fun kind => ?_
      split
      · exact .fail
      · exact .bind .advance fun _ => .pure
      · dsimp only
        split
        · exact .refuse
        · exact .bind .advance fun _ => .pure
      · exact .bind .advance fun _ => .pure

theorem skipParenthesized_local : Local cut skipParenthesized skipParenthesized :=
  .bind (.iterate (fun _ => skipRound_local) _) fun _ => .pure

theorem nestedDeclarator_local (near : rules.AllLocal others cut) {type : TypeId}
    {abstractOk : Bool} :
    Local cut (nestedDeclarator rules type abstractOk)
      (nestedDeclarator others type abstractOk) := by
  refine .bind .position fun place => .bind skipParenthesized_local fun _ => ?_
  exact (suffixes_local near).bind fun outer => .visit (near.declarator outer abstractOk) nofun

theorem plainDeclarator_local (near : rules.AllLocal others cut) {type : TypeId}
    {abstractOk : Bool} :
    Local cut (plainDeclarator rules type abstractOk) (plainDeclarator others type abstractOk) := by
  refine .bind .identifier? fun name => ?_
  dsimp only
  split
  · exact .bind .peek fun _ => .refuse
  · exact (suffixes_local near).bind fun _ => .pure

theorem declarator_local (near : rules.AllLocal others cut) {base : TypeId} {abstractOk : Bool} :
    Local cut (declarator rules base abstractOk) (declarator others base abstractOk) := by
  refine pointers_local.bind fun type => .bind atNestedDeclarator_local fun nested => ?_
  split
  · exact nestedDeclarator_local near
  · exact plainDeclarator_local near

theorem typeName_local (near : rules.AllLocal others cut) :
    Local cut (typeName rules) (typeName others) := by
  refine (specifiers_local near).bind fun specifiers => ?_
  dsimp only
  split
  · exact .refuse
  · refine (declarator_local near).bind fun declarator => ?_
    split
    · exact .fail
    · exact .pure

end SyntaxGraph.Grammar

