import SyntaxGraph.Grammar.Declarator
import SyntaxGraph.Proofs.Course.Declarator
import SyntaxGraph.Proofs.Custody.Expression
import SyntaxGraph.Proofs.Grammar.Specifier

/-!
# Types and the nodes they hold

Types may be shared, but what they own is given to each of them once: the members to the
type that a body completes, the width to the copy that makes a bit-field, parameters and
lengths to the type that a suffix makes.  Specifiers make a type that the first declarator
builds on; it is lent to the declarators behind that one.
-/

set_option autoImplicit false

namespace SyntaxGraph.Grammar

open Token (Kind Keyword Punctuator)

variable {rules : Rules}

/-! ## Members -/

/-- A bit-field is the type of a member at once: no other type may be narrowed again. -/
theorem bitField_declares {type : TypeId} {width : ExprId} {name : String} {start : Location} :
    Passes [] (parts type ++ parts width)
      (do
        let type ← bitField type width
        Parse.addDecl { name, type, span := ← Parse.spanFrom start }) parts := by
  intro tokens s value s' others held kept run
  obtain ⟨narrow, middle, narrows, declares⟩ := bind_ok run
  obtain ⟨base, _, looks, adds⟩ := bind_ok narrows
  obtain ⟨found, rfl⟩ := typeNode_ok looks
  have plain : base.isPlain = true := by
    have known := kept.plain type (by simp)
    rw [Arenas.Plain, found] at known
    exact Option.some.inj known
  split at adds
  · next integer =>
    obtain ⟨rfl, rfl⟩ := add_ok adds
    obtain ⟨span, _, spans, declares⟩ := bind_ok declares
    obtain rfl := spanFrom_observes _ _ _ _ spans
    obtain ⟨rfl, rfl⟩ := add_ok declares
    have narrowed := (Arenas.addType_narrows found plain integer width).frame held _ kept.keeps
    refine ⟨(Arenas.addDecl_carries _ _).frame held _ narrowed, fun id member => ?_⟩
    refine (kept.plain id ?_).addType _
    simp at member ⊢
    tauto
  · cases adds

theorem memberDeclarator_passes (make : rules.AllMake) {type : TypeId} :
    Passes [] (parts type) (memberDeclarator rules type) parts := by
  refine .past .at? fun unnamed => ?_
  split
  · exact .pure fun _ => rfl
  · exact make.declarator type false

theorem memberType_declares (make : rules.AllMake) {type : TypeId} {name : String}
    {start : Location} :
    Passes [] (parts type)
      (do
        let type ← memberType rules type
        Parse.addDecl { name, type, span := ← Parse.spanFrom start }) parts := by
  rw [memberType, bind_assoc]
  refine .past .accept fun sized => ?_
  split
  · rw [bind_assoc]
    refine .andThen make.conditional fun width => .sort bitField_declares fun node => ?_
    simp [List.count_cons, Nat.add_comm]
  · rw [pure_bind]
    exact .past .spanFrom fun span => .addDecl fun _ => rfl

theorem member_passes (make : rules.AllMake) {start : Location} {specifiers : Specifiers} :
    Passes [] (parts specifiers) (member rules start specifiers) parts :=
  .bind (memberDeclarator_passes make) fun _ => memberType_declares make

theorem memberGroup?_makes (make : rules.AllMake) : Makes (memberGroup? rules) := by
  refine .past .peek fun kind => ?_
  split
  · exact .pure fun _ => rfl
  · exact .fail
  · refine .past .here fun start => .bind make.specifiers fun specifiers => ?_
    refine .past .accept fun alone => ?_
    split
    · refine .past .spanFrom fun span => .bind (.addDecl fun _ => rfl) fun anonymous => ?_
      exact .pure fun node => by simp
    · have group : Passes [] (parts specifiers)
          (Parse.separated (member rules start specifiers)) parts :=
        .lend (.separatedAfter (member_passes make).alone (member_passes make).borrow)
      refine .bind group fun group => .past .expect fun _ => ?_
      exact .pure fun node => by simp

theorem members_makes (make : rules.AllMake) : Makes (members rules) := by
  refine .bind (.many (memberGroup?_makes make)) fun groups => .past .expect fun _ => ?_
  exact .pure fun node => by rw [parts_flatten]

theorem enumeratorValue?_makes (make : rules.AllMake) : Makes (enumeratorValue? rules) := by
  refine .past .accept fun equals => ?_
  split
  · refine .past .here fun start => .bind make.conditional fun value => ?_
    exact .past .spanFrom fun span => .map (.addInit fun _ => rfl)
  · exact .pure fun _ => rfl

theorem enumerator_passes (make : rules.AllMake) {int : TypeId} :
    Passes [] (parts int) (enumerator rules int) parts := by
  refine .past .here fun start => .past .identifier fun name => ?_
  refine .andThen (enumeratorValue?_makes make) fun init => .past .bindName fun _ => ?_
  exact .past .spanFrom fun span => .addDecl fun node => by simp [Nat.add_comm, List.count_cons]

theorem enumerators_makes (make : rules.AllMake) : Makes (enumerators rules) := by
  refine .past .here fun start => .addLeaf rfl rfl fun int => ?_
  refine .bind (.listed (enumerator_passes make).borrow) fun found => .past .expect fun _ => ?_
  exact .pure fun _ => rfl

/-! ## Tags -/

theorem checkTagKind_spares {id : TypeId} {kind : TypeKind} {tag : String} :
    Spares (checkTagKind id kind tag) := by
  refine .past (.looking typeNode_observes) fun node => ?_
  dsimp only
  split
  · exact .fail
  · exact .pure fun _ => rfl

theorem declareTagged_makes {kind : TypeKind} {tag : Option String} {start : Location} :
    Makes (declareTagged kind tag start) := by
  refine .past .spanFrom fun span => .bind (.addType (by simp [TypeNode.isPlain, TypeNode.tagged])
    fun _ => rfl) fun id => ?_
  cases tag with
  | some tag => exact .bind .bindTag fun _ => .pure fun _ => rfl
  | none => exact .pure fun _ => rfl

/-- Whoever refers to a tag may hold the type that it is bound to. -/
theorem taggedReference_makes {kind : TypeKind} {tag : Option String} {start : Location} :
    Makes (taggedReference kind tag start) := by
  unfold taggedReference
  split
  · exact .fail
  · next tag =>
    refine .past .at? fun declares tokens s value s' others held kept run => ?_
    obtain ⟨scopes, middle, looks, refers⟩ := bind_ok run
    obtain ⟨rfl, rfl⟩ := scopes_ok looks
    cases found : if declares then middle.scopes.innerTag? tag else middle.scopes.findTag? tag with
    | none =>
        rw [found] at refers
        exact declareTagged_makes tokens middle value s' others held kept refers
    | some id =>
        rw [found] at refers
        have bound : .type id ∈ references middle.scopes := by
          cases declares with
          | true => exact Scopes.innerTag?_references found
          | false => exact Scopes.findTag?_references found
        have answers : Passes [] (parts id) (do checkTagKind id kind tag; return id) parts :=
          .past checkTagKind_spares fun _ => .pure fun _ => rfl
        exact answers tokens middle value s' others held (kept.hold (by simp [bound])) refers

theorem taggedOwner_makes {kind : TypeKind} {tag : Option String} {start : Location} :
    Makes (taggedOwner kind tag start) := by
  intro tokens s id s' others held kept run
  rcases taggedOwner_ok run with ⟨bound, rfl, -⟩ | declares
  · obtain ⟨tag, -, found⟩ := Option.bind_eq_some_iff.mp bound
    exact kept.hold (by simp [Scopes.innerTag?_references found])
  · exact declareTagged_makes tokens s id s' others held kept declares

theorem tagBody_makes (make : rules.AllMake) {kind : TypeKind} : Makes (tagBody rules kind) := by
  unfold tagBody
  split
  · exact enumerators_makes make
  · exact members_makes make

theorem taggedSpecifier_makes (make : rules.AllMake) {kind : TypeKind} :
    Makes (taggedSpecifier rules kind) := by
  refine .past .here fun start => .past .advance fun _ => .past .identifier? fun tag => ?_
  refine .past .at? fun opens => ?_
  split
  · refine .bind taggedOwner_makes fun id => .past .advance fun _ => ?_
    refine .andThen (tagBody_makes make) fun decls => ?_
    refine .bind (.sort .completeType fun node => ?_) fun _ => .pure fun _ => rfl
    simp [List.count_cons]
  · exact taggedReference_makes

/-! ## The list of specifiers -/

instance : Owning SpecifierList := ⟨fun list => parts list.tagged⟩

@[simp] theorem parts_specifierList (list : SpecifierList) : parts list = parts list.tagged := rfl

theorem specifierRound_passes (make : rules.AllMake) (list : SpecifierList) :
    Passes [] (parts list) (specifierRound rules list) fun next => parts (next.getD list) := by
  refine .past .peek fun kind => ?_
  split
  · split
    · dsimp only
      split
      · exact .refuse
      · exact .past .advance fun _ => .pure fun _ => rfl
    · split
      · dsimp only
        split
        · exact .refuse
        · next unnamed =>
          have untagged : parts list = [] := by
            have none : list.tagged = none := by
              simp [SpecifierList.isNamed] at unnamed
              exact unnamed.1.1
            rw [parts_specifierList, none, parts_none]
          rw [untagged]
          exact .bind (taggedSpecifier_makes make) fun type => .pure fun _ => rfl
      · split
        · next inserted =>
          refine .past .advance fun _ => .pure fun _ => ?_
          rw [Option.getD_some, parts_specifierList, parts_specifierList,
            SpecifierList.insert?_tagged inserted]
        · exact .pure fun _ => rfl
  · refine .past (.looking isTypedef_observes) fun typedef => ?_
    split
    · exact .past .advance fun _ => .pure fun _ => rfl
    · exact .pure fun _ => rfl
  · exact .pure fun _ => rfl

theorem specifiedType_passes {list : SpecifierList} {span : Span} :
    Passes [] (parts list) (specifiedType list span) parts := by
  unfold specifiedType
  split
  · next tagged =>
    exact .pure fun _ => by rw [parts_specifierList, tagged, parts_some]
  · next untagged named =>
    exact .addType rfl fun _ => by rw [parts_specifierList, untagged]; rfl
  · next untagged unnamed =>
    split
    · exact .past .peek fun _ => .fail
    · split
      · refine .addType ?_ fun _ => ?_
        · simp [TypeNode.isPlain, TypeNode.basic, TypeNode.qualified]
        · rw [parts_specifierList, untagged]
          rfl
      · exact .fail

theorem specifiers_makes (make : rules.AllMake) : Makes (specifiers rules) := by
  refine .past .here fun start => ?_
  refine .bind (.iterate (specifierRound_passes make) {}) fun list => ?_
  refine .past .spanFrom fun span => .bind specifiedType_passes fun type => ?_
  exact .pure fun _ => rfl

/-! ## Parameters and suffixes -/

theorem qualifierRound_spares {q : Qualifiers} : Spares (qualifierRound q) := by
  refine .past .peek fun kind => ?_
  split
  · split
    · exact .past .advance fun _ => .pure fun _ => rfl
    · exact .pure fun _ => rfl
  · exact .pure fun _ => rfl

theorem qualifiers_spares : Spares qualifiers :=
  .iterate_spares (fun _ => qualifierRound_spares) _

theorem pointers_passes {base : TypeId} : Passes [] (parts base) (pointers base) parts := by
  refine .iterate (fun type => .past .here fun start => .past .accept fun star => ?_) base
  split
  · refine .past qualifiers_spares fun found => .past .spanFrom fun span => ?_
    exact .map (.addType rfl fun _ => rfl)
  · exact .pure fun _ => rfl

theorem parameter_makes (make : rules.AllMake) : Makes (parameter rules) := by
  refine .past .here fun start => .bind make.specifiers fun specifiers => ?_
  refine .bind (make.declarator specifiers.type true) fun declarator => ?_
  exact .past .spanFrom fun span => .addDecl fun _ => rfl

instance : Owning ParameterList := ⟨fun list => parts list.found⟩

@[simp] theorem parts_parameterList (list : ParameterList) : parts list = parts list.found := rfl

theorem parameterRound_passes (make : rules.AllMake) (list : ParameterList) :
    Passes [] (parts list) (parameterRound rules list) fun next => parts (next.getD list) := by
  unfold parameterRound
  split
  · exact .pure fun _ => rfl
  · refine .past .accept fun ellipsis => ?_
    split
    · exact .pure fun _ => rfl
    · refine .andThen (parameter_makes make) fun next => .past .accept fun more => ?_
      exact .pure fun _ => rfl

theorem parameters_makes (make : rules.AllMake) : Makes (parameters rules) := by
  refine .past .accept fun closes => ?_
  split
  · exact .pure fun _ => rfl
  · refine .past .at? fun void => .past (.looking peekNext_observes) fun next => ?_
    split
    · exact .past .advance fun _ => .past .advance fun _ => .pure fun _ => rfl
    · refine .bind (.iterate (parameterRound_passes make) {}) fun list => ?_
      exact .past .expect fun _ => .pure fun node => by simp

@[simp] def Suffix.parts : Suffix → List NodeRef
  | .array length _ => SyntaxGraph.parts length
  | .function parameters _ _ => SyntaxGraph.parts parameters

instance : Owning Suffix := ⟨Suffix.parts⟩

@[simp] theorem parts_suffix (suffix : Suffix) : parts suffix = suffix.parts := rfl

theorem holds_over (suffix : Suffix) (base : TypeId) :
    (suffix.over base).holds = parts base ++ parts suffix := by
  cases suffix <;> simp [Suffix.over, TypeNode.array, TypeNode.function]

theorem isPlain_over (suffix : Suffix) (base : TypeId) : (suffix.over base).isPlain = true := by
  cases suffix <;> rfl

theorem arrayLength?_makes (make : rules.AllMake) : Makes (arrayLength? rules) := by
  refine .past .at? fun closes => ?_
  split
  · exact .pure fun _ => rfl
  · exact .map make.assignment

theorem arraySuffix_makes (make : rules.AllMake) {start : Location} :
    Makes (arraySuffix rules start) := by
  refine .past qualifiers_spares fun _ => .past .accept fun _ => ?_
  refine .bind (arrayLength?_makes make) fun length => .past .expect fun _ => ?_
  exact .past .spanFrom fun span => .pure fun _ => rfl

theorem functionSuffix_makes (make : rules.AllMake) {start : Location} :
    Makes (functionSuffix rules start) := by
  refine .bind (parameters_makes make) fun (found, variadic) => .past .spanFrom fun span => ?_
  exact .pure fun node => by simp

theorem suffix?_makes (make : rules.AllMake) : Makes (suffix? rules) := by
  refine .past .here fun start => .past .accept fun bracket => ?_
  split
  · exact .map (arraySuffix_makes make)
  · refine .past .accept fun paren => ?_
    split
    · exact .map (functionSuffix_makes make)
    · exact .pure fun _ => rfl

/-- Each suffix becomes a type that owns what the suffix holds. -/
theorem overAll_passes (found : List Suffix) {base : TypeId} :
    Passes [] (parts found ++ parts base)
      (found.foldrM (fun suffix type => Parse.addType (suffix.over type)) base) parts := by
  induction found with
  | nil => exact .pure fun _ => rfl
  | cons suffix found ih =>
      rw [List.foldrM_cons]
      refine .bind ((ih.frame (parts suffix)).sort fun node => ?_) fun type => ?_
      · simp only [parts_cons, List.count_append]
        omega
      · exact .addType (isPlain_over suffix type) fun node => by rw [holds_over]

theorem suffixes_passes (make : rules.AllMake) {base : TypeId} :
    Passes [] (parts base) (suffixes rules base) parts :=
  .andThen (.many (suffix?_makes make)) fun found => overAll_passes found

/-! ## Declarators -/

theorem atNestedDeclarator_spares : Spares atNestedDeclarator := by
  refine .past .at? fun opens => ?_
  split
  · refine .past (.looking peekNext_observes) fun next => ?_
    split
    · exact .pure fun _ => rfl
    · exact .pure fun _ => rfl
    · exact .past (.looking isTypedef_observes) fun typedef => .pure fun _ => rfl
    · exact .pure fun _ => rfl
  · exact .pure fun _ => rfl

theorem skipRound_spares (depth : Nat × Bool) : Spares (skipRound depth) := by
  obtain ⟨depth, ended⟩ := depth
  cases ended with
  | true => exact .pure fun _ => rfl
  | false =>
      refine .past .peek fun kind => ?_
      split
      · exact .fail
      · exact .past .advance fun _ => .pure fun _ => rfl
      · dsimp only
        split
        · exact .refuse
        · exact .past .advance fun _ => .pure fun _ => rfl
      · exact .past .advance fun _ => .pure fun _ => rfl

theorem skipParenthesized_spares : Spares skipParenthesized :=
  .past (.iterate_spares skipRound_spares _) fun _ => .pure fun _ => rfl

/-- What is skipped is read once, when the reading has come back for it. -/
theorem nestedDeclarator_passes (make : rules.AllMake) {type : TypeId} {abstractOk : Bool} :
    Passes [] (parts type) (nestedDeclarator rules type abstractOk) parts := by
  refine .past (.looking position_observes) fun place => ?_
  refine .past skipParenthesized_spares fun _ => .bind (suffixes_passes make) fun outer => ?_
  refine .past (.looking position_observes) fun resume => .past .moveTo fun _ => ?_
  refine .bind (make.declarator outer abstractOk) fun declarator => .past .expect fun _ => ?_
  exact .past .moveTo fun _ => .pure fun _ => rfl

theorem plainDeclarator_passes (make : rules.AllMake) {type : TypeId} {abstractOk : Bool} :
    Passes [] (parts type) (plainDeclarator rules type abstractOk) parts := by
  refine .past .identifier? fun name => ?_
  dsimp only
  split
  · exact .past .peek fun _ => .refuse
  · exact .bind (suffixes_passes make) fun outer => .pure fun _ => rfl

theorem declarator_passes (make : rules.AllMake) {base : TypeId} {abstractOk : Bool} :
    Passes [] (parts base) (declarator rules base abstractOk) parts := by
  refine .bind pointers_passes fun type => .past atNestedDeclarator_spares fun nested => ?_
  split
  · exact nestedDeclarator_passes make
  · exact plainDeclarator_passes make

theorem typeName_makes (make : rules.AllMake) : Makes (typeName rules) := by
  refine .bind (specifiers_makes make) fun specifiers => ?_
  dsimp only
  split
  · exact .refuse
  · refine .bind (declarator_passes make) fun declarator => ?_
    split
    · exact .fail
    · exact .pure fun _ => rfl

end SyntaxGraph.Grammar
