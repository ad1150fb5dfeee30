import SyntaxGraph.Proofs.Course.Declarator
import SyntaxGraph.Proofs.Custody.Declarator
import SyntaxGraph.Proofs.Spans.Expression

/-!
# Where members, parameters and suffixes lie

The declarations of one list of specifiers all begin where the specifiers begin.  The types
that suffixes make cover the suffixes, with the parameters and lengths in them.  A nested
declarator is read out of order, but what is read for it is laid out in the same way.
-/

set_option autoImplicit false

namespace SyntaxGraph.Grammar

open Token (Kind Keyword Punctuator)

variable {rules : Rules} {sheet : Sheet} {given : Prop} {i first : Nat}

/-- A type whose parts are not laid out. -/
theorem Sheet.typeLaid_of_kind {type : TypeNode} (function : type.kind ≠ .function)
    (array : type.kind ≠ .array) : sheet.TypeLaid type :=
  fun shaped => (shaped.elim function array).elim

/-- A declaration that begins at an earlier token. -/
theorem spannedDecl_lays {decl : Span → Decl} {start : Location}
    (fresh : ∀ span, (decl span).plain.unbound = decl span)
    (placed : ∀ span, (decl span).span = span)
    (starts : given → start = sheet.tokens.start first ∧ first < i)
    (inside : given → ∀ span, sheet.Inside (parts (decl span)) first i) :
    Lays sheet given i (Parse.spanFrom start >>= fun span => Parse.addDecl (decl span))
      fun j id => sheet.Lies (.decl id) first j := by
  refine .spanFrom first starts fun span => .ended (.addDecl (fresh span) ?_ ?_)
  · rw [placed]
    exact And.right
  · exact fun known => inside known.1 span

/-! ## Members -/

theorem bitField_lays {type : TypeId} {width : ExprId} :
    Lays sheet given i (bitField type width) fun _ _ => True := by
  refine .look typeNode_observes.still fun base => ?_
  split
  · next integer =>
    refine (Lays.addType fun _ => Sheet.typeLaid_of_kind ?_ ?_).answer fun _ _ _ _ _ => trivial
    all_goals
      rintro same
      obtain same : base.kind = _ := same
      rw [same] at integer
      cases integer
  · exact .fail

theorem memberDeclarator_lays (lay : rules.AllLay sheet) {type : TypeId} :
    Lays sheet given i (memberDeclarator rules type) fun _ _ => True := by
  refine .at? fun unnamed _ => ?_
  split
  · exact .pure fun _ => trivial
  · exact lay.declarator given i type false

theorem memberType_lays (lay : rules.AllLay sheet) {type : TypeId} :
    Lays sheet given i (memberType rules type) fun _ _ => True :=
  .accept (by simp) (.past (lay.conditional given _) fun width j _ => bitField_lays)
    (.pure fun _ => trivial)

theorem member_lays (lay : rules.AllLay sheet) {start : Location} {specifiers : Specifiers}
    (starts : given → start = sheet.tokens.start first ∧ first < i) :
    Lays sheet given i (member rules start specifiers)
      fun j id => sheet.Lies (.decl id) first j := by
  refine .past (memberDeclarator_lays lay) fun declarator j le => ?_
  refine .past (memberType_lays lay) fun type k further => ?_
  refine spannedDecl_lays (fun _ => rfl) (fun _ => rfl) (fun known => ?_)
    fun _ _ => Sheet.inside_nil
  exact ⟨(starts known).1, (starts known).2.trans_le (le.trans further)⟩

theorem memberGroup?_lays (lay : rules.AllLay sheet) :
    Lays sheet given i (memberGroup? rules) fun j next => next.elim (j = i) fun _ => True := by
  refine .peek fun kind there => ?_
  split
  · exact .pure fun _ => rfl
  · exact .fail
  · refine .here (.bind (lay.specifiers given i) fun specifiers j le => ?_)
    refine .accept (by simp) ?_ ?_
    · refine .spanFrom i (fun known => ⟨rfl, known.2.trans (Nat.lt_succ_self j)⟩) fun span => ?_
      refine .past (.addDecl rfl And.right fun _ => Sheet.inside_nil) fun anonymous k _ => ?_
      exact .pure fun _ => trivial
    · refine .past (.separated (fun _ j id => sheet.Lies (.decl id) i j) fun k further =>
        member_lays lay fun known => ⟨rfl, known.2.trans_le further⟩) fun group k further => ?_
      exact .expect (by simp) (.pure fun _ => trivial)

theorem members_lays (lay : rules.AllLay sheet) :
    Lays sheet given i (members rules) fun _ _ => True := by
  refine .past (.many (fun _ _ _ => True) fun k _ => memberGroup?_lays lay) ?_
  exact fun groups j le => .expect (by simp) (.pure fun _ => trivial)

theorem enumeratorValue?_lays (lay : rules.AllLay sheet) :
    Lays sheet given i (enumeratorValue? rules) fun j init => sheet.Inside (parts init) i j := by
  refine .accept (by simp) ?_ (.pure fun _ => Sheet.inside_nil)
  refine .here (.bind (lay.conditional given _) fun value j le => ?_)
  refine .spanFrom (i + 1) (fun known => ⟨rfl, known.2.some⟩) fun span => .map ?_
  refine .inward (.ended (.addInit rfl And.right ?_ fun known => known.1.2.inside)) (Nat.le_succ i)
  simp [Sheet.AllDesignate]

theorem enumerator_lays (lay : rules.AllLay sheet) {int : TypeId} :
    Lays sheet given i (enumerator rules int) fun j id => sheet.Inside (parts id) i j := by
  refine .here (.identifier fun name => ?_)
  refine .bind (enumeratorValue?_lays lay) fun init j le => .bindName ?_
  refine (spannedDecl_lays (fun _ => rfl) (fun _ => rfl) (fun _ => ⟨rfl, le⟩)
    fun known _ => ?_).answer fun k id _ _ lies => lies.inside
  have inside := known.2.mono (Nat.le_succ i) (Nat.le_refl j)
  exact Sheet.inside_append.mpr ⟨inside, Sheet.inside_nil⟩

theorem enumerators_lays (lay : rules.AllLay sheet) :
    Lays sheet given i (enumerators rules) fun _ _ => True := by
  have int : sheet.TypeLaid (.basic .int (.point (sheet.tokens.start i))) :=
    Sheet.typeLaid_of_kind (by simp [TypeNode.basic]) (by simp [TypeNode.basic])
  refine .here (.past (.addType fun _ => int) fun int j le => ?_)
  refine .past (.listedInside fun k _ => enumerator_lays lay) fun found k further => ?_
  exact .expect (by simp) (.pure fun _ => trivial)

/-! ## Tags -/

theorem checkTagKind_still {id : TypeId} {kind : TypeKind} {tag : String} :
    Still (checkTagKind id kind tag) := by
  intro tokens s value s' run
  obtain ⟨-, rfl⟩ := checkTagKind_ok run
  exact ⟨rfl, rfl⟩

theorem declareTagged_lays {kind : TypeKind} (tagged : kind.isTagged = true)
    {tag : Option String} {start : Location} :
    Lays sheet given i (declareTagged kind tag start) fun _ _ => True := by
  have laid {span : Span} : sheet.TypeLaid (.tagged kind tag [] span) := by
    refine Sheet.typeLaid_of_kind ?_ ?_ <;>
      · rintro rfl
        cases tagged
  refine .anySpan fun span => .past (.addType fun _ => laid) fun id j le => ?_
  cases tag with
  | none => exact .pure fun _ => trivial
  | some tag => exact .look modifyScopes_still fun _ => .pure fun _ => trivial

theorem taggedReference_lays {kind : TypeKind} (tagged : kind.isTagged = true)
    {tag : Option String} {start : Location} :
    Lays sheet given i (taggedReference kind tag start) fun _ _ => True := by
  unfold taggedReference
  split
  · exact .fail
  · refine .at? fun declares _ => .look scopes_observes.still fun scopes => ?_
    split
    · exact .look checkTagKind_still fun _ => .pure fun _ => trivial
    · exact declareTagged_lays tagged

theorem taggedOwner_lays {kind : TypeKind} (tagged : kind.isTagged = true)
    {tag : Option String} {start : Location} :
    Lays sheet given i (taggedOwner kind tag start) fun _ _ => True := by
  refine .look scopes_observes.still fun scopes => ?_
  split
  · refine .look checkTagKind_still fun _ => .look typeNode_observes.still fun type => ?_
    split
    · exact .pure fun _ => trivial
    · exact .fail
  · exact declareTagged_lays tagged

theorem tagBody_lays (lay : rules.AllLay sheet) {kind : TypeKind} :
    Lays sheet given i (tagBody rules kind) fun _ _ => True := by
  unfold tagBody
  split
  · exact enumerators_lays lay
  · exact members_lays lay

/-- A tagged type is filled in; no node is added. -/
theorem completeType_moves {tokens : Tokens} {id : TypeId} {decls : List DeclId} {value : Unit}
    {s s' : State} (tagged : ∀ type, s.arenas.type? id = some type → type.kind.isTagged = true)
    (run : Parse.completeType id decls tokens s = .ok value s') :
    s'.position = s.position ∧ s.arenas.ExtendsTo s'.arenas ∧
      sheet.LaidSince s.arenas s'.arenas := by
  obtain ⟨type, middle, looked, changes⟩ := bind_ok run
  obtain ⟨-, rfl⟩ := typeNode_ok looked
  cases changes
  refine ⟨rfl, middle.arenas.completeType_extends tagged decls, fun node missing owned => ?_⟩
  rw [Arenas.completeType_owns, missing] at owned
  cases owned

/-- The type that a body defines is a tagged one, and remains so while the body is read. -/
theorem taggedBody_lays (lay : rules.AllLay sheet) {kind : TypeKind}
    (tagged : kind.isTagged = true) {tag : Option String} {start : Location} :
    Lays sheet given i
      (do
        let id ← taggedOwner kind tag start
        Parse.advance
        let decls ← tagBody rules kind
        Parse.completeType id decls
        return id) fun _ _ => True := by
  rintro s value s' rfl inside run
  obtain ⟨id, owned, owns, rest⟩ := bind_ok run
  obtain ⟨_, opened, opens, rest⟩ := bind_ok rest
  obtain ⟨decls, closed, reads, rest⟩ := bind_ok rest
  obtain ⟨_, done, completes, rest⟩ := bind_ok rest
  obtain ⟨rfl, rfl⟩ := pure_ok rest
  obtain ⟨type, found, typed, -⟩ := taggedOwner_bare tagged owns
  have owner : Lays sheet given s.position (taggedOwner kind tag start) fun _ _ => True :=
    taggedOwner_lays tagged
  obtain ⟨one, layOne⟩ := owner s _ owned rfl inside owns
  have brace : Lays sheet given owned.position Parse.advance fun _ _ => True :=
    Lays.advance_moves
  obtain ⟨two, layTwo⟩ := brace owned _ opened rfl one.inside opens
  have body : Lays sheet given opened.position (tagBody rules kind) fun _ _ => True :=
    tagBody_lays lay
  obtain ⟨three, layThree⟩ := body opened _ closed rfl two.inside reads
  have remains : ∀ later, closed.arenas.type? value = some later → later.kind.isTagged = true := by
    intro later there
    obtain ⟨same, again, kinds⟩ := (two.grows.trans three.grows).typeKind found
    obtain rfl := Option.some.inj (again.symm.trans there)
    rw [kinds]
    exact typed
  obtain ⟨position, grows, laid⟩ := completeType_moves remains completes
  have last : Moves sheet closed s' := .stay three.inside position grows
  refine ⟨one.trans (two.trans (three.trans last)), fun extension ordered known => ?_⟩
  have beforeLast := last.grows.trans extension
  have behindBrace := three.grows.trans beforeLast
  have first := (layOne (two.grows.trans behindBrace) ordered known).1
  have second := (layTwo behindBrace ordered known).1
  exact ⟨first.trans (second.trans ((layThree beforeLast ordered known).1.trans laid)), trivial⟩

/-- At least the keyword is read. -/
theorem taggedSpecifier_lays (lay : rules.AllLay sheet) {kind : TypeKind} {word : Keyword}
    (tagged : kind.isTagged = true) (there : sheet.tokens.kind i = .keyword word) :
    Lays sheet given i (taggedSpecifier rules kind) fun j _ => i < j := by
  refine .here (.advance there (by simp) ?_)
  have behind : Lays sheet given (i + 1)
      (do
        let tag ← Parse.identifier?
        if ← Parse.at? (.punctuator .braceOpen) then
          let id ← taggedOwner kind tag (sheet.tokens.start i)
          Parse.advance
          let decls ← tagBody rules kind
          Parse.completeType id decls
          return id
        else taggedReference kind tag (sheet.tokens.start i)) fun _ _ => True := by
    refine .past .identifier?_moves fun tag j le => .at? fun opens _ => ?_
    split
    · exact taggedBody_lays lay tagged
    · exact taggedReference_lays tagged
  exact behind.answer fun j id _ further _ => further

/-! ## The list of specifiers -/

theorem specifierRound_lays (lay : rules.AllLay sheet) {list : SpecifierList} :
    Lays sheet given i (specifierRound rules list)
      fun j next => next.elim (j = i) fun _ => i < j := by
  refine .peek fun kind there => ?_
  split
  · split
    · dsimp only
      split
      · exact .refuse
      · exact .advance there (by simp) (.pure fun _ => Nat.lt_succ_self i)
    · split
      · next named =>
        dsimp only
        split
        · exact .refuse
        · exact .bind (taggedSpecifier_lays lay (tagKind?_isTagged named) there)
            fun type j le => .pure And.right
      · split
        · exact .advance there (by simp) (.pure fun _ => Nat.lt_succ_self i)
        · exact .pure fun _ => rfl
  · refine .look isTypedef_observes.still fun typedef => ?_
    split
    · exact .advance there (by simp) (.pure fun _ => Nat.lt_succ_self i)
    · exact .pure fun _ => rfl
  · exact .pure fun _ => rfl

/-- The type of specifiers of which there is one at least. -/
theorem specifiedType_lays {list : SpecifierList} {span : Span} :
    Lays sheet given i (specifiedType list span) fun _ _ => list ≠ {} := by
  unfold specifiedType
  split
  · next tagged =>
    refine .pure ?_
    rintro _ rfl
    cases tagged
  · next named =>
    refine (Lays.addType fun _ => Sheet.typeLaid_of_kind ?_ ?_).answer fun _ _ _ _ _ => ?_
    · simp [TypeNode.typedefName, TypeNode.qualified]
    · simp [TypeNode.typedefName, TypeNode.qualified]
    · rintro rfl
      cases named
  · split
    · exact .peek fun _ _ => .fail
    · next some =>
      split
      · next kind named =>
        have basic := TypeWords.kind?_isBasic named
        refine (Lays.addType fun _ => Sheet.typeLaid_of_kind ?_ ?_).answer fun _ _ _ _ _ => ?_
        · rintro rfl
          cases basic
        · rintro rfl
          cases basic
        · rintro rfl
          exact some rfl
      · exact .fail

theorem specifiers_lays (lay : rules.AllLay sheet) :
    Lays sheet given i (specifiers rules) fun j _ => i < j := by
  have round (list : SpecifierList) (k : Nat) (le : i ≤ k) :
      Lays sheet (given ∧ (i < k ∨ list = {})) k (specifierRound rules list)
        fun j next => i < j ∨ next.getD list = {} := by
    refine (specifierRound_lays lay).answer fun j next known further ends => ?_
    cases next with
    | none =>
        obtain rfl : j = k := ends
        exact known.2
    | some _ => exact .inl (le.trans_lt ends)
  refine .here (.bind (.iterate (fun _ => .inr rfl) round) fun list j le => ?_)
  refine .anySpan fun span => .bind specifiedType_lays fun type k further => .pure ?_
  exact fun known => (known.1.2.resolve_right known.2).trans_le further

/-! ## Parameters and suffixes -/

theorem qualifiers_lays : Lays sheet given i qualifiers fun _ _ => True := by
  refine .iterateAny fun q k _ => .peek fun kind there => ?_
  split
  · split
    · exact .advance there (by simp) (.pure fun _ => trivial)
    · exact .pure fun _ => trivial
  · exact .pure fun _ => trivial

theorem pointers_lays {base : TypeId} : Lays sheet given i (pointers base) fun _ _ => True := by
  refine .iterateAny fun type k _ => .here (.accept (by simp) ?_ (.pure fun _ => trivial))
  refine .past qualifiers_lays fun found j le => .anySpan fun span => .map ?_
  refine (Lays.addType fun _ => Sheet.typeLaid_of_kind ?_ ?_).answer fun _ _ _ _ _ => trivial
  · simp [TypeNode.pointer, TypeNode.qualified]
  · simp [TypeNode.pointer, TypeNode.qualified]

theorem parameter_lays (lay : rules.AllLay sheet) :
    Lays sheet given i (parameter rules) fun j id => sheet.Inside (parts id) i j := by
  refine .here (.bind (lay.specifiers given i) fun specifiers j le => ?_)
  refine .past (lay.declarator _ j specifiers.type true) fun declarator k further => ?_
  exact (spannedDecl_lays (fun _ => rfl) (fun _ => rfl)
    (fun known => ⟨rfl, known.2.trans_le further⟩) fun _ _ => Sheet.inside_nil).answer
      fun _ _ _ _ lies => lies.inside

theorem parameterRound_lays (lay : rules.AllLay sheet) {list : ParameterList}
    (inside : given → sheet.Inside (parts list) first i) (le : first ≤ i) :
    Lays sheet given i (parameterRound rules list)
      fun j next => sheet.Inside (parts (next.getD list)) first j := by
  unfold parameterRound
  split
  · exact .pure inside
  · refine .accept (by simp) (.pure fun known => ?_) ?_
    · exact (inside known).mono (Nat.le_refl first) (Nat.le_succ i)
    · refine .bind (parameter_lays lay) fun next j further => ?_
      refine .past (.accept_moves (by simp)) fun more k behind => .pure fun known => ?_
      refine Sheet.inside_append.mpr ⟨known.2.mono le behind, ?_⟩
      exact (inside known.1).mono (Nat.le_refl first) (further.trans behind)

theorem parameters_lays (lay : rules.AllLay sheet) :
    Lays sheet given i (parameters rules) fun j found => sheet.Inside (parts found.1) i j := by
  refine .accept (by simp) (.pure fun _ => Sheet.inside_nil) ?_
  refine .at? fun void _ => .look peekNext_observes.still fun next => ?_
  split
  · refine .past .advance_moves fun _ j _ => .past .advance_moves fun _ k _ => ?_
    exact .pure fun _ => Sheet.inside_nil
  · have start (_ : given) : sheet.Inside (parts ({} : ParameterList)) i i := Sheet.inside_nil
    refine .bind (.iterate start fun list k le => parameterRound_lays lay And.right le)
      fun list j le => ?_
    refine .expect (by simp) (.pure fun known => ?_)
    exact (known.2.subset (parts_reverse_subset _)).mono (Nat.le_refl i) (Nat.le_succ j)

def Suffix.span : Suffix → Span
  | .array _ span => span
  | .function _ _ span => span

/-- The suffix covers the tokens, its parameters or its length some of them. -/
def Sheet.SuffixLies (sheet : Sheet) (suffix : Suffix) (i j : Nat) : Prop :=
  sheet.tokens.Covers suffix.span i j ∧ sheet.Inside (parts suffix) i j

theorem Suffix.typeLaid_over {suffix : Suffix} {j : Nat} (lies : sheet.SuffixLies suffix i j)
    (base : TypeId) : sheet.TypeLaid (suffix.over base) := by
  intro _
  obtain ⟨covers, inside⟩ := lies
  cases suffix with
  | array length span => exact ⟨i, j, covers, inside⟩
  | function found variadic span =>
      exact ⟨i, j, covers, Sheet.inside_append.mpr ⟨inside, Sheet.inside_nil⟩⟩

theorem arrayLength?_lays (lay : rules.AllLay sheet) :
    Lays sheet given i (arrayLength? rules) fun j length => sheet.Inside (parts length) i j := by
  refine .at? fun closes _ => ?_
  split
  · exact .pure fun _ => Sheet.inside_nil
  · exact .map ((lay.assignment given i).answer fun _ _ _ _ => Sheet.Lies.inside)

theorem arraySuffix_lays (lay : rules.AllLay sheet) {start : Location}
    (starts : given → start = sheet.tokens.start first ∧ first < i) :
    Lays sheet given i (arraySuffix rules start)
      fun j suffix => sheet.SuffixLies suffix first j := by
  refine .past qualifiers_lays fun _ j le => ?_
  refine .past (.accept_moves (by simp)) fun _ k further => ?_
  refine .bind (arrayLength?_lays lay) fun length l behind => .expect (by simp) ?_
  refine .spanFrom first (fun known => ?_) fun span => .pure fun known => ⟨known.2, ?_⟩
  · exact ⟨(starts known.1).1, by have := (starts known.1).2; omega⟩
  · have before := (starts known.1.1).2
    exact known.1.2.mono (by omega) (Nat.le_succ l)

theorem functionSuffix_lays (lay : rules.AllLay sheet) {start : Location}
    (starts : given → start = sheet.tokens.start first ∧ first < i) :
    Lays sheet given i (functionSuffix rules start)
      fun j suffix => sheet.SuffixLies suffix first j := by
  refine .bind (parameters_lays lay) fun (found, variadic) j le => ?_
  refine .spanFrom first (fun known => ?_) fun span => .pure fun known => ⟨known.2, ?_⟩
  · exact ⟨(starts known.1).1, (starts known.1).2.trans_le le⟩
  · exact known.1.2.mono (starts known.1.1).2.le (Nat.le_refl j)

theorem suffix?_lays (lay : rules.AllLay sheet) :
    Lays sheet given i (suffix? rules)
      fun j next => next.elim (j = i) fun suffix => sheet.SuffixLies suffix i j := by
  refine .here (.accept (by simp) ?_ (.accept (by simp) ?_ ?_))
  · exact .map (arraySuffix_lays lay fun _ => ⟨rfl, Nat.lt_succ_self i⟩)
  · exact .map (functionSuffix_lays lay fun _ => ⟨rfl, Nat.lt_succ_self i⟩)
  · exact .pure fun _ => rfl

theorem foldSuffixes_lays {base : TypeId} {found : List Suffix} {low high : Nat}
    (lies : given → Found (fun k j suffix => sheet.SuffixLies suffix k j) low high found) :
    Lays sheet given i
      (found.foldrM (fun suffix type => Parse.addType (suffix.over type)) base)
      fun _ _ => True := by
  induction found with
  | nil => exact .pure fun _ => trivial
  | cons suffix found ih =>
      rw [List.foldrM_cons]
      refine .past (ih fun known => (List.forall_mem_cons.mp (lies known)).2) fun type j le => ?_
      refine (Lays.addType fun known => ?_).answer fun _ _ _ _ _ => trivial
      obtain ⟨first, last, -, -, here⟩ := (List.forall_mem_cons.mp (lies known)).1
      exact Suffix.typeLaid_over here type

theorem suffixes_lays (lay : rules.AllLay sheet) {base : TypeId} :
    Lays sheet given i (suffixes rules base) fun _ _ => True :=
  .bind (.many _ fun _ _ => suffix?_lays lay) fun _ _ _ =>
    foldSuffixes_lays fun known => known.2.found

/-! ## Declarators -/

theorem atNestedDeclarator_still : Still atNestedDeclarator := by
  refine Observes.still (.bind ?_ fun opens => ?_)
  · exact peek_observes.bind fun _ => pure_observes
  · split
    · refine peekNext_observes.bind fun next => ?_
      split
      · exact pure_observes
      · exact pure_observes
      · exact isTypedef_observes.bind fun _ => pure_observes
      · exact pure_observes
    · exact pure_observes

theorem skipRound_lays {progress : Nat × Bool} :
    Lays sheet given i (skipRound progress) fun _ _ => True := by
  unfold skipRound
  split
  · exact .pure fun _ => trivial
  · refine .peek fun kind there => ?_
    split
    · exact .fail
    · exact .advance there (by simp) (.pure fun _ => trivial)
    · dsimp only
      split
      · exact .refuse
      · exact .advance there (by simp) (.pure fun _ => trivial)
    · exact .past .advance_moves fun _ _ _ => .pure fun _ => trivial

theorem skipParenthesized_lays : Lays sheet given i skipParenthesized fun _ _ => True :=
  .past (.iterateAny fun _ _ _ => skipRound_lays) fun _ _ _ => .pure fun _ => trivial

/-- The inside is read last, and the reading goes on behind what has been read first. -/
theorem nestedDeclarator_lays (lay : rules.AllLay sheet) {type : TypeId} {abstractOk : Bool} :
    Lays sheet given i (nestedDeclarator rules type abstractOk) fun _ _ => True := by
  rintro s declarator s' rfl inside run
  obtain ⟨place, _, looked, rest⟩ := bind_ok run
  cases looked
  obtain ⟨_, skipped, skips, rest⟩ := bind_ok rest
  obtain ⟨outer, behind, reads, rest⟩ := bind_ok rest
  obtain ⟨resume, _, looked, rest⟩ := bind_ok rest
  cases looked
  obtain ⟨_, inner, enters, rest⟩ := bind_ok rest
  obtain ⟨opens, rfl⟩ := moveTo_ok enters
  obtain ⟨found, closing, finds, rest⟩ := bind_ok rest
  obtain ⟨_, closed, closes, rest⟩ := bind_ok rest
  obtain ⟨-, rfl, -⟩ := expect_ok (by simp) closes
  obtain ⟨_, resumed, leaves, rest⟩ := bind_ok rest
  obtain ⟨-, rfl⟩ := moveTo_ok leaves
  obtain ⟨rfl, rfl⟩ := pure_ok rest
  have skip : Lays sheet given s.position skipParenthesized fun _ _ => True :=
    skipParenthesized_lays
  obtain ⟨one, layOne⟩ := skip s _ skipped rfl inside skips
  have outside : Lays sheet given skipped.position (suffixes rules type) fun _ _ => True :=
    suffixes_lays lay
  obtain ⟨two, layTwo⟩ := outside skipped outer behind rfl one.inside reads
  obtain ⟨three, layThree⟩ := lay.declarator given _ outer abstractOk _ declarator closing rfl
    opens finds
  refine ⟨⟨(one.grows.trans two.grows).trans three.grows, one.le.trans two.le, two.inside⟩, ?_⟩
  intro extension ordered known
  have skippedLaid := (layOne (two.grows.trans (three.grows.trans extension)) ordered known).1
  have outerLaid := (layTwo (three.grows.trans extension) ordered known).1
  exact ⟨skippedLaid.trans (outerLaid.trans (layThree extension ordered known).1), trivial⟩

theorem plainDeclarator_lays (lay : rules.AllLay sheet) {type : TypeId} {abstractOk : Bool} :
    Lays sheet given i (plainDeclarator rules type abstractOk) fun _ _ => True := by
  refine .past .identifier?_moves fun name j le => ?_
  dsimp only
  split
  · exact .peek fun _ _ => .refuse
  · exact .past (suffixes_lays lay) fun _ _ _ => .pure fun _ => trivial

theorem declarator_lays (lay : rules.AllLay sheet) {base : TypeId} {abstractOk : Bool} :
    Lays sheet given i (declarator rules base abstractOk) fun _ _ => True := by
  refine .past pointers_lays fun type j le => .look atNestedDeclarator_still fun nested => ?_
  split
  · exact nestedDeclarator_lays lay
  · exact plainDeclarator_lays lay

theorem typeName_lays (lay : rules.AllLay sheet) :
    Lays sheet given i (typeName rules) fun _ _ => True := by
  refine .past (specifiers_lays lay) fun specifiers j le => ?_
  dsimp only
  split
  · exact .refuse
  · refine .past (declarator_lays lay) fun declarator k further => ?_
    split
    · exact .fail
    · exact .pure fun _ => trivial

end SyntaxGraph.Grammar
