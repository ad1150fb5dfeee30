import SyntaxGraph.Grammar.Declarator
import SyntaxGraph.Proofs.Agreement.Expression

/-!
# Types are read by the kinds of their tokens

What is asked of a type that has been read, its kind and whether it has members, does not
depend on its place.  The suffixes of a declarator hold spans, but they make the same types
once places are erased.
-/

set_option autoImplicit false

namespace SyntaxGraph.Grammar

open Token (Kind Keyword Punctuator)

variable {rules : Rules} {start other : Location}

/-! ## Members -/

theorem bitField_blind {type : TypeId} {width : ExprId} : Blind (bitField type width) := by
  refine .bind .typeNode fun base copy equal => ?_
  have sized : ({ base with width := some width, decls := [] } : TypeNode).erased =
      ({ copy with width := some width, decls := [] } : TypeNode).erased :=
    congrArg (fun type : TypeNode => { type with width := some width, decls := [] }) equal
  have kinds : base.kind = copy.kind := TypeNode.kind_eq equal
  have integers : base.kind.isInteger = copy.kind.isInteger := congrArg _ kinds
  rw [integers]
  split
  · exact .addType sized
  · rw [kinds]
    exact .fail

theorem memberDeclarator_blind (blind : rules.AllBlind) {type : TypeId} :
    Blind (memberDeclarator rules type) := by
  refine .same .at? fun unnamed => ?_
  split
  · exact .pure rfl
  · exact blind.declarator type false

theorem memberType_blind (blind : rules.AllBlind) {type : TypeId} :
    Blind (memberType rules type) := by
  refine .same .accept fun sized => ?_
  split
  · exact blind.conditional.same fun width => bitField_blind
  · exact .pure rfl

theorem member_agree (blind : rules.AllBlind) {specifiers : Specifiers} :
    Agree Eq (member rules start specifiers) (member rules other specifiers) := by
  refine (memberDeclarator_blind blind).same fun declarator => ?_
  refine (memberType_blind blind).same fun type => ?_
  exact .anyhow .spanFrom fun _ _ => .addDecl rfl

theorem memberGroup?_blind (blind : rules.AllBlind) : Blind (memberGroup? rules) := by
  refine .same .peek fun kind => ?_
  split
  · exact .pure rfl
  · exact .fail
  · refine .anyhow .here fun start other => blind.specifiers.same fun specifiers => ?_
    refine .same .accept fun alone => ?_
    split
    · exact .anyhow .spanFrom fun _ _ => .same (.addDecl rfl) fun _ => .pure rfl
    · refine .same (.separated (member_agree blind)) fun group => ?_
      exact .same .expect fun _ => .pure rfl

theorem members_blind (blind : rules.AllBlind) : Blind (members rules) :=
  .same (.manySame (memberGroup?_blind blind)) fun _ => .same .expect fun _ => .pure rfl

theorem enumeratorValue?_blind (blind : rules.AllBlind) : Blind (enumeratorValue? rules) := by
  refine .same .accept fun equals => ?_
  split
  · refine .anyhow .here fun start other => blind.conditional.same fun value => ?_
    exact .anyhow .spanFrom fun _ _ => .mapSame (.addInit rfl)
  · exact .pure rfl

theorem enumerator_blind (blind : rules.AllBlind) {int : TypeId} :
    Blind (enumerator rules int) := by
  refine .anyhow .here fun start other => .same .identifier fun name => ?_
  refine (enumeratorValue?_blind blind).same fun init => .same .bindName fun _ => ?_
  exact .anyhow .spanFrom fun _ _ => .addDecl rfl

theorem enumerators_blind (blind : rules.AllBlind) : Blind (enumerators rules) := by
  refine .anyhow .here fun start other => .same (.addType rfl) fun int => ?_
  refine .same (.listed (enumerator_blind blind)) fun found => ?_
  exact .same .expect fun _ => .pure rfl

/-! ## Tags -/

theorem checkTagKind_blind {id : TypeId} {kind : TypeKind} {tag : String} :
    Blind (checkTagKind id kind tag) := by
  refine .bind .typeNode fun node copy equal => ?_
  dsimp only
  rw [TypeNode.kind_eq equal]
  split
  · exact .fail
  · exact .pure rfl

theorem declareTagged_agree {kind : TypeKind} {tag : Option String} :
    Agree Eq (declareTagged kind tag start) (declareTagged kind tag other) := by
  refine .anyhow .spanFrom fun _ _ => .same (.addType rfl) fun id => ?_
  cases tag with
  | some tag => exact .same .bindTag fun _ => .pure rfl
  | none => exact .pure rfl

theorem taggedReference_agree {kind : TypeKind} {tag : Option String} :
    Agree Eq (taggedReference kind tag start) (taggedReference kind tag other) := by
  unfold taggedReference
  split
  · exact .fail
  · refine .same .at? fun declares => .same .scopes fun scopes => ?_
    split
    · exact checkTagKind_blind.same fun _ => .pure rfl
    · exact declareTagged_agree

theorem taggedOwner_agree {kind : TypeKind} {tag : Option String} :
    Agree Eq (taggedOwner kind tag start) (taggedOwner kind tag other) := by
  refine .same .scopes fun scopes => ?_
  split
  · refine checkTagKind_blind.same fun _ => .bind .typeNode fun node copy equal => ?_
    rw [TypeNode.decls_eq equal]
    split
    · exact .pure rfl
    · exact .fail
  · exact declareTagged_agree

theorem tagBody_blind (blind : rules.AllBlind) {kind : TypeKind} : Blind (tagBody rules kind) := by
  unfold tagBody
  split
  · exact enumerators_blind blind
  · exact members_blind blind

theorem taggedSpecifier_blind (blind : rules.AllBlind) {kind : TypeKind} :
    Blind (taggedSpecifier rules kind) := by
  refine .anyhow .here fun start other => .same .advance fun _ => .same .identifier? fun tag => ?_
  refine .same .at? fun opens => ?_
  split
  · refine taggedOwner_agree.same fun id => .same .advance fun _ => ?_
    exact (tagBody_blind blind).same fun decls => .same .completeType fun _ => .pure rfl
  · exact taggedReference_agree

/-! ## The list of specifiers -/

theorem specifierRound_blind (blind : rules.AllBlind) (list : SpecifierList) :
    Blind (specifierRound rules list) := by
  refine .same .peek fun kind => ?_
  split
  · split
    · dsimp only
      split
      · exact .refuse
      · exact .same .advance fun _ => .pure rfl
    · split
      · dsimp only
        split
        · exact .refuse
        · exact (taggedSpecifier_blind blind).same fun type => .pure rfl
      · split
        · exact .same .advance fun _ => .pure rfl
        · exact .pure rfl
  · refine .same .isTypedef fun typedef => ?_
    split
    · exact .same .advance fun _ => .pure rfl
    · exact .pure rfl
  · exact .pure rfl

theorem specifiedType_agree {list : SpecifierList} {span copy : Span} :
    Agree Eq (specifiedType list span) (specifiedType list copy) := by
  unfold specifiedType
  split
  · exact .pure rfl
  · exact .addType rfl
  · split
    · exact .same .peek fun _ => .fail
    · split
      · exact .addType rfl
      · exact .fail

theorem specifiers_blind (blind : rules.AllBlind) : Blind (specifiers rules) := by
  refine .anyhow .here fun start other => ?_
  refine .same (.iterateSame (specifierRound_blind blind) _) fun list => ?_
  exact .anyhow .spanFrom fun _ _ => specifiedType_agree.same fun type => .pure rfl

/-! ## Parameters and suffixes -/

theorem qualifierRound_blind (q : Qualifiers) : Blind (qualifierRound q) := by
  refine .same .peek fun kind => ?_
  split
  · split
    · exact .same .advance fun _ => .pure rfl
    · exact .pure rfl
  · exact .pure rfl

theorem qualifiers_blind : Blind qualifiers := .iterateSame qualifierRound_blind _

theorem pointers_blind {base : TypeId} : Blind (pointers base) := by
  refine .iterateSame (fun type => .anyhow .here fun start other => ?_) base
  refine .same .accept fun star => ?_
  split
  · refine qualifiers_blind.same fun found => .anyhow .spanFrom fun _ _ => ?_
    exact .mapSame (.addType rfl)
  · exact .pure rfl

theorem parameter_blind (blind : rules.AllBlind) : Blind (parameter rules) := by
  refine .anyhow .here fun start other => blind.specifiers.same fun specifiers => ?_
  refine (blind.declarator specifiers.type true).same fun declarator => ?_
  exact .anyhow .spanFrom fun _ _ => .addDecl rfl

theorem parameterRound_blind (blind : rules.AllBlind) (list : ParameterList) :
    Blind (parameterRound rules list) := by
  unfold parameterRound
  split
  · exact .pure rfl
  · refine .same .accept fun ellipsis => ?_
    split
    · exact .pure rfl
    · exact (parameter_blind blind).same fun next => .same .accept fun more => .pure rfl

theorem parameters_blind (blind : rules.AllBlind) : Blind (parameters rules) := by
  refine .same .accept fun closes => ?_
  split
  · exact .pure rfl
  · refine .same .at? fun void => .same .peekNext fun next => ?_
    split
    · exact .same .advance fun _ => .same .advance fun _ => .pure rfl
    · refine .same (.iterateSame (parameterRound_blind blind) _) fun list => ?_
      exact .same .expect fun _ => .pure rfl

/-- Suffixes that make the same types when places are erased. -/
def Suffix.Alike (suffix copy : Suffix) : Prop :=
  ∀ base, (suffix.over base).erased = (copy.over base).erased

theorem arrayLength?_blind (blind : rules.AllBlind) : Blind (arrayLength? rules) := by
  refine .same .at? fun closes => ?_
  split
  · exact .pure rfl
  · exact .mapSame blind.assignment

theorem arraySuffix_agree (blind : rules.AllBlind) :
    Agree Suffix.Alike (arraySuffix rules start) (arraySuffix rules other) := by
  refine qualifiers_blind.same fun _ => .same .accept fun _ => ?_
  refine (arrayLength?_blind blind).same fun length => .same .expect fun _ => ?_
  exact .anyhow .spanFrom fun _ _ => .pure fun base => rfl

theorem functionSuffix_agree (blind : rules.AllBlind) :
    Agree Suffix.Alike (functionSuffix rules start) (functionSuffix rules other) := by
  refine (parameters_blind blind).same fun (found, variadic) => ?_
  exact .anyhow .spanFrom fun _ _ => .pure fun base => rfl

theorem suffix?_agree (blind : rules.AllBlind) :
    Agree (Option.Rel Suffix.Alike) (suffix? rules) (suffix? rules) := by
  refine .anyhow .here fun start other => .same .accept fun bracket => ?_
  split
  · exact .map ((arraySuffix_agree blind).weaken fun _ _ => .some)
  · refine .same .accept fun paren => ?_
    split
    · exact .map ((functionSuffix_agree blind).weaken fun _ _ => .some)
    · exact .pure .none

theorem overAll_agree {found copies : List Suffix} (all : List.Forall₂ Suffix.Alike found copies)
    {base : TypeId} :
    Agree Eq (found.foldrM (fun suffix type => Parse.addType (suffix.over type)) base)
      (copies.foldrM (fun suffix type => Parse.addType (suffix.over type)) base) := by
  induction all with
  | nil => exact .pure rfl
  | cons same _ ih =>
      rw [List.foldrM_cons, List.foldrM_cons]
      exact ih.same fun type => .addType (same type)

theorem suffixes_blind (blind : rules.AllBlind) {base : TypeId} : Blind (suffixes rules base) :=
  .bind (.many (suffix?_agree blind)) fun _ _ all => overAll_agree all

/-! ## Declarators -/

theorem atNestedDeclarator_blind : Blind atNestedDeclarator := by
  refine .same .at? fun opens => ?_
  split
  · refine .same .peekNext fun next => ?_
    split
    · exact .pure rfl
    · exact .pure rfl
    · exact .same .isTypedef fun typedef => .pure rfl
    · exact .pure rfl
  · exact .pure rfl

theorem skipRound_blind (depth : Nat × Bool) : Blind (skipRound depth) := by
  obtain ⟨depth, ended⟩ := depth
  cases ended with
  | true => exact .pure rfl
  | false =>
      refine .same .peek fun kind => ?_
      split
      · exact .fail
      · exact .same .advance fun _ => .pure rfl
      · dsimp only
        split
        · exact .refuse
        · exact .same .advance fun _ => .pure rfl
      · exact .same .advance fun _ => .pure rfl

theorem skipParenthesized_blind : Blind skipParenthesized :=
  .same (.iterateSame skipRound_blind _) fun _ => .pure rfl

theorem nestedDeclarator_blind (blind : rules.AllBlind) {type : TypeId} {abstractOk : Bool} :
    Blind (nestedDeclarator rules type abstractOk) := by
  refine .same .position fun place => skipParenthesized_blind.same fun _ => ?_
  refine (suffixes_blind blind).same fun outer => .same .position fun resume => ?_
  refine .same .moveTo fun _ => (blind.declarator outer abstractOk).same fun declarator => ?_
  exact .same .expect fun _ => .same .moveTo fun _ => .pure rfl

theorem plainDeclarator_blind (blind : rules.AllBlind) {type : TypeId} {abstractOk : Bool} :
    Blind (plainDeclarator rules type abstractOk) := by
  refine .same .identifier? fun name => ?_
  dsimp only
  split
  · exact .same .peek fun _ => .refuse
  · exact (suffixes_blind blind).same fun outer => .pure rfl

theorem declarator_blind (blind : rules.AllBlind) {base : TypeId} {abstractOk : Bool} :
    Blind (declarator rules base abstractOk) := by
  refine pointers_blind.same fun type => atNestedDeclarator_blind.same fun nested => ?_
  split
  · exact nestedDeclarator_blind blind
  · exact plainDeclarator_blind blind

theorem typeName_blind (blind : rules.AllBlind) : Blind (typeName rules) := by
  refine (specifiers_blind blind).same fun specifiers => ?_
  dsimp only
  split
  · exact .refuse
  · refine (declarator_blind blind).same fun declarator => ?_
    split
    · exact .fail
    · exact .pure rfl

end SyntaxGraph.Grammar
