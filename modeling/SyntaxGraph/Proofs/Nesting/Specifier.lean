import SyntaxGraph.Grammar.Specifier
import SyntaxGraph.Proofs.Nesting.Expression

/-!
# Specifiers are balanced

Bodies of structures and enumerations are lists between braces, which are not counted;
parentheses occur in them only within the rules one level of nesting further in.
-/

set_option autoImplicit false

namespace SyntaxGraph.Grammar

open Token (Kind Keyword Punctuator)

variable {tokens : Tokens} {rules : Rules}

/-! ## Members -/

theorem bitField_neutral {type : TypeId} {width : ExprId} :
    Neutral tokens (bitField type width) := by
  refine .look typeNode_observes fun base => ?_
  split
  · exact .addType
  · exact .fail

theorem memberDeclarator_neutral (neutral : rules.AllNeutral tokens) {type : TypeId} :
    Neutral tokens (memberDeclarator rules type) :=
  .ifAt .pure (neutral.declarator type false)

theorem memberType_neutral (neutral : rules.AllNeutral tokens) {type : TypeId} :
    Neutral tokens (memberType rules type) :=
  .ifAccept rfl (neutral.conditional.bind fun _ => bitField_neutral) .pure

theorem member_neutral (neutral : rules.AllNeutral tokens) {start : Location}
    {specifiers : Specifiers} : Neutral tokens (member rules start specifiers) := by
  refine (memberDeclarator_neutral neutral).bind fun declarator => ?_
  refine (memberType_neutral neutral).bind fun type => ?_
  exact .look spanFrom_observes fun _ => .addDecl

theorem memberGroup?_neutral (neutral : rules.AllNeutral tokens) :
    Neutral tokens (memberGroup? rules) := by
  refine .peek fun kind => ?_
  split
  · exact .pure
  · exact .fail
  · refine .stay (.look here_observes fun start => neutral.specifiers.bind fun specifiers => ?_)
    refine .ifAccept rfl (.look spanFrom_observes fun _ => .bind .addDecl fun _ => .pure) ?_
    refine .bind (.separated (member_neutral neutral)) fun group => ?_
    exact .bind (.expect rfl) fun _ => .pure

theorem members_neutral (neutral : rules.AllNeutral tokens) :
    Neutral tokens (members rules) :=
  .bind (.many (memberGroup?_neutral neutral)) fun _ => .bind (.expect rfl) fun _ => .pure

theorem enumeratorValue?_neutral (neutral : rules.AllNeutral tokens) :
    Neutral tokens (enumeratorValue? rules) := by
  refine .ifAccept rfl (.look here_observes fun start => ?_) .pure
  refine neutral.conditional.bind fun value => .look spanFrom_observes fun span => ?_
  exact .map .addInit

theorem enumerator_neutral (neutral : rules.AllNeutral tokens) {int : TypeId} :
    Neutral tokens (enumerator rules int) := by
  refine .look here_observes fun start => .bind .identifier fun name => ?_
  refine (enumeratorValue?_neutral neutral).bind fun init => .bind .bindName fun _ => ?_
  exact .look spanFrom_observes fun _ => .addDecl

theorem enumerators_neutral (neutral : rules.AllNeutral tokens) :
    Neutral tokens (enumerators rules) := by
  refine .look here_observes fun start => .bind .addType fun int => ?_
  refine .bind (.listed (enumerator_neutral neutral)) fun found => ?_
  exact .bind (.expect rfl) fun _ => .pure

/-! ## Tags -/

theorem checkTagKind_observes {id : TypeId} {kind : TypeKind} {tag : String} :
    Observes (checkTagKind id kind tag) := by
  refine typeNode_observes.bind fun node => ?_
  dsimp only
  split
  · exact fail_observes
  · exact pure_observes

theorem declareTagged_stays {kind : TypeKind} {tag : Option String} {start : Location} :
    Stays tokens (declareTagged kind tag start) := by
  refine .bind (.of_observes spanFrom_observes) fun span => ?_
  refine .bind (.add fun _ => List.prefix_rfl) fun id => ?_
  split
  · exact .bind .modifyScopes fun _ => .of_observes pure_observes
  · exact .of_observes pure_observes

theorem taggedReference_neutral {kind : TypeKind} {tag : Option String} {start : Location} :
    Neutral tokens (taggedReference kind tag start) := by
  unfold taggedReference
  split
  · exact .fail
  · refine .look (peek_observes.bind fun _ => pure_observes) fun declares => ?_
    refine .look scopes_observes fun scopes => ?_
    split
    · exact .look checkTagKind_observes fun _ => .pure
    · exact .of_stays declareTagged_stays

theorem taggedOwner_stays {kind : TypeKind} {tag : Option String} {start : Location} :
    Stays tokens (taggedOwner kind tag start) := by
  refine .bind (.of_observes scopes_observes) fun scopes => ?_
  split
  · refine .of_observes (checkTagKind_observes.bind fun _ => typeNode_observes.bind fun node => ?_)
    split
    · exact pure_observes
    · exact fail_observes
  · exact declareTagged_stays

theorem tagBody_neutral (neutral : rules.AllNeutral tokens) {kind : TypeKind} :
    Neutral tokens (tagBody rules kind) := by
  unfold tagBody
  split
  · exact enumerators_neutral neutral
  · exact members_neutral neutral

/-- A tagged type begins with a keyword, which is consumed without being checked again. -/
theorem taggedSpecifier_nests (neutral : rules.AllNeutral tokens) {word : Keyword}
    {kind : TypeKind} : Nests tokens [.keyword word] 0 0 (taggedSpecifier rules kind) := by
  refine .look here_observes fun start => .advance rfl (.bind .identifier? fun tag => ?_)
  refine .ifAt (.keep taggedOwner_stays fun id => ?_) taggedReference_neutral
  refine .advance rfl ((tagBody_neutral neutral).bind fun decls => ?_)
  exact .bind .completeType fun _ => .pure

/-! ## The list of specifiers -/

theorem specifierRound_neutral (neutral : rules.AllNeutral tokens) {list : SpecifierList} :
    Neutral tokens (specifierRound rules list) := by
  refine .peek fun kind => ?_
  split
  · split
    · dsimp only
      split
      · exact .refuse
      · exact .advance rfl .pure
    · split
      · dsimp only
        split
        · exact .refuse
        · exact (taggedSpecifier_nests neutral).bind fun type => .pure
      · split
        · exact .advance rfl .pure
        · exact .pure
  · refine .look isTypedef_observes fun typedef => ?_
    split
    · exact .advance rfl .pure
    · exact .pure
  · exact .pure

theorem specifiedType_neutral {list : SpecifierList} {span : Span} :
    Neutral tokens (specifiedType list span) := by
  unfold specifiedType
  split
  · exact .pure
  · exact .addType
  · split
    · exact .look peek_observes fun _ => .fail
    · split
      · exact .addType
      · exact .fail

theorem specifiers_neutral (neutral : rules.AllNeutral tokens) :
    Neutral tokens (specifiers rules) := by
  refine .look here_observes fun start => ?_
  refine .bind (.iterate (fun _ => specifierRound_neutral neutral) _) fun list => ?_
  refine .look spanFrom_observes fun span => specifiedType_neutral.bind fun type => ?_
  exact .pure

end SyntaxGraph.Grammar
