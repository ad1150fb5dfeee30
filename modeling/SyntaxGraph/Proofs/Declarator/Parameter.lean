import SyntaxGraph.Grammar.TranslationUnit
import SyntaxGraph.Proofs.Declarator.Chain

/-!
# Parameters are read back from their tokens

The parameters of a function are of basic types, so their specifiers are words alone.  That
their declarators are read back is assumed here.
-/

set_option autoImplicit false

namespace SyntaxGraph.Grammar

open Token (Kind Keyword Punctuator)
open Chain (listed commaSeparated parameterKinds)

variable {β : Type} {tokens : Tokens} {rules : Rules} {s : State} {kind : Kind}
  {rest : List Kind} {depth : Nat}

/-! ## Words -/

/-- A loop that adds the words in front of it to what it has, one by one. -/
theorem words_parse {step : β → Parse (Option β)} {insert? : β → Keyword → Option β}
    {words : List Keyword} {value final : β} (folds : words.foldlM insert? value = some final)
    (ahead : tokens.ahead s.position = words.map Kind.keyword ++ kind :: rest)
    (takes : ∀ middle value word next behind, word ∈ words → behind ≠ [] →
      insert? value word = some next →
      tokens.ahead middle.position = .keyword word :: behind →
      step value tokens middle = .ok (some next) { middle with position := middle.position + 1 })
    (stops : ∀ middle, tokens.ahead middle.position = kind :: rest →
      step final tokens middle = .ok none middle) :
    Parses tokens s (Parse.iterate step value) (kind :: rest) fun found _ => found = final := by
  induction words generalizing value s with
  | nil =>
      cases folds
      exact .stop ⟨none, s, stops s ahead, ⟨ahead, rfl, .refl _⟩, rfl, rfl⟩
  | cons word words ih =>
      rw [List.foldlM_cons] at folds
      obtain ⟨next, inserted, folds⟩ := Option.bind_eq_some_iff.mp folds
      obtain ⟨-, -, moved⟩ := Tokens.of_ahead_cons ahead
      have taken := takes s value word next _ (List.mem_cons_self ..) (by simp) inserted ahead
      have one : Parses tokens s (step value) (words.map Kind.keyword ++ kind :: rest)
          fun answer _ => ∃ found, answer = some found ∧ found = next :=
        ⟨_, _, taken, ⟨moved, rfl, .refl _⟩, next, rfl, rfl⟩
      refine .round ahead (by simp) one fun found middle reached same => ?_
      subst same
      exact ih folds reached.ahead fun middle value word next behind member =>
        takes middle value word next behind (List.mem_cons_of_mem _ member)

theorem qualifiers_parse {q : Qualifiers}
    (ahead : tokens.ahead s.position = q.words.map Kind.keyword ++ kind :: rest)
    (other : ∀ word, kind ≠ .keyword word) :
    Parses tokens s qualifiers (kind :: rest) fun found _ => found = q := by
  have folds : q.words.foldlM qualifiedBy? .none = some q := by
    obtain ⟨isConst, isVolatile⟩ := q
    cases isConst <;> cases isVolatile <;> rfl
  refine words_parse folds ahead (fun middle value word next behind _ more inserted ahead => ?_)
    fun middle ahead => ?_
  · rw [qualifierRound, bind_of_ok (peek_run ahead)]
    dsimp only
    rw [inserted]
    change (Parse.advance >>= _ : Parse (Option Qualifiers)) tokens middle = _
    rw [bind_of_ok (advance_run ahead (by simp) more)]
    rfl
  · rw [qualifierRound, bind_of_ok (peek_run ahead)]
    cases kind with
    | keyword word => exact absurd rfl (other word)
    | _ => rfl

/-! ## Specifiers of a basic type -/

theorem words_plain {type : TypeKind} {q : Qualifiers} {word : Keyword}
    (member : word ∈ q.words ++ type.words) : storage? word = none ∧ tagKind? word = none := by
  have qualifies : ∀ word ∈ q.words, storage? word = none ∧ tagKind? word = none := by
    obtain ⟨isConst, isVolatile⟩ := q
    cases isConst <;> cases isVolatile <;> decide
  have names : ∀ word ∈ type.words, storage? word = none ∧ tagKind? word = none := by
    cases type <;> decide
  rcases List.mem_append.mp member with first | second
  · exact qualifies word first
  · exact names word second

/-- The words of a basic type name it. -/
theorem words_fold {type : TypeKind} (basic : type.isBasic = true) (q : Qualifiers) :
    ∃ words, (q.words ++ type.words).foldlM SpecifierList.insert? {} =
      some { qualifiers := q, words } ∧ words.isEmpty = false ∧ words.kind? = some type := by
  obtain ⟨isConst, isVolatile⟩ := q
  cases type <;> first
    | (cases basic; done)
    | (cases isConst <;> cases isVolatile <;> exact ⟨_, rfl, rfl, rfl⟩)

theorem specifierRound_takes {list next : SpecifierList} {word : Keyword} {behind : List Kind}
    (plain : storage? word = none ∧ tagKind? word = none) (more : behind ≠ [])
    (inserted : list.insert? word = some next)
    (ahead : tokens.ahead s.position = .keyword word :: behind) :
    specifierRound rules list tokens s =
      .ok (some next) { s with position := s.position + 1 } := by
  rw [specifierRound, bind_of_ok (peek_run ahead)]
  dsimp only
  rw [plain.1]
  dsimp only
  rw [plain.2]
  dsimp only
  rw [inserted]
  change (Parse.advance >>= _ : Parse (Option SpecifierList)) tokens s = _
  rw [bind_of_ok (advance_run ahead (by simp) more)]
  rfl

/-- Behind a word, a name is no type. -/
theorem specifierRound_stops {list : SpecifierList} (some : list.words.isEmpty = false)
    (other : ∀ word, kind ≠ .keyword word) (ahead : tokens.ahead s.position = kind :: rest) :
    specifierRound rules list tokens s = .ok none s := by
  rw [specifierRound, bind_of_ok (peek_run ahead)]
  cases kind with
  | keyword word => exact absurd rfl (other word)
  | identifier name =>
      change (if !list.isNamed && list.words.isEmpty && s.scopes.isTypedef name then _ else _ :
        Parse (Option SpecifierList)) tokens s = _
      rw [some, Bool.and_false, Bool.false_and, if_neg Bool.false_ne_true]
      rfl
  | _ => rfl

theorem specifiers_parse {type : TypeKind} (basic : type.isBasic = true) {q : Qualifiers}
    (ahead : tokens.ahead s.position =
      (q.words ++ type.words).map Kind.keyword ++ kind :: rest)
    (other : ∀ word, kind ≠ .keyword word) :
    Parses tokens s (specifiers rules) (kind :: rest) fun found s' =>
      found.storage = .none ∧ ∃ span, s'.arenas.type? found.type =
        some ((TypeNode.basic type span).qualified q) := by
  obtain ⟨words, folds, some, named⟩ := words_fold basic q
  have inside : s.position < tokens.size := by
    obtain ⟨first, more, cons⟩ := List.exists_cons_of_ne_nil
      (List.append_ne_nil_of_right_ne_nil ((q.words ++ type.words).map Kind.keyword)
        (List.cons_ne_nil kind rest))
    rw [cons] at ahead
    exact inside_of_ahead ahead
  have list := @words_parse _ tokens s kind rest (specifierRound rules) _ _ _ _ folds ahead
    (fun middle value word next behind member more inserted ahead =>
      specifierRound_takes (words_plain member) more inserted ahead)
    fun middle ahead => specifierRound_stops some other ahead
  refine .here inside fun start => .bind list fun found middle reached same => ?_
  subst same
  refine .span (inside_of_ahead reached.ahead) fun span => ?_
  have node : Parses tokens middle (specifiedType { qualifiers := q, words } span) (kind :: rest)
      fun id s' => ∃ span, s'.arenas.type? id =
        .some ((TypeNode.basic type span).qualified q) := by
    have unfolded : specifiedType { qualifiers := q, words } span =
        Parse.addType ((TypeNode.basic type span).qualified q) := by
      unfold specifiedType
      dsimp only
      rw [some, if_neg Bool.false_ne_true, named]
    rw [unfolded]
    exact .addType reached.ahead fun id s' _ node => ⟨span, node⟩
  exact .bind node fun id s' further found => .pure further.ahead ⟨rfl, found⟩

/-! ## Declarators of parameters -/

/-- The marks that a declarator is followed by in declarations and in lists. -/
def declaratorEnds : List Punctuator := [.semicolon, .comma, .parenClose, .eq]

/-- The tokens of a declarator come next, and a mark that ends it; the bound on the nesting is
enough for them, and a name that has to be there is. -/
structure Declaring (tokens : Tokens) (depth : Nat) (s : State) (name : Option String)
    (abstractOk : Bool) (text : List Kind) (mark : Punctuator) (rest : List Kind) : Prop where
  ends : mark ∈ declaratorEnds
  named : abstractOk = false → name ≠ none
  fits : text.length ≤ depth
  ahead : tokens.ahead s.position = text ++ .punctuator mark :: rest

/-- Reading takes the tokens as a declarator that builds the chain. -/
def IsDeclared (tokens : Tokens) (name : Option String) (text : List Kind) (chain : Chain) :
    Prop :=
  ∀ depth s type abstractOk mark rest,
    Declaring tokens depth s name abstractOk text mark rest →
    Parses tokens s (declarator (Rules.nested depth) type abstractOk) (.punctuator mark :: rest)
      fun found s' => found.name = name ∧ s'.arenas.Derives found.type type chain

/-- A parameter of a basic type whose declarator is read. -/
structure IsParameter (tokens : Tokens) (parameter : Parameter Chain) : Prop where
  basic : parameter.kind.isBasic = true
  declared : IsDeclared tokens parameter.name (parameter.chain.kinds parameter.name)
    parameter.chain

theorem next_of_opens {text : List Kind} (opens : Chain.Opens text) (mark : Punctuator)
    (rest : List Kind) :
    ∃ first more, text ++ .punctuator mark :: rest = first :: more ∧
      ∀ word, first ≠ .keyword word := by
  cases text with
  | nil => exact ⟨_, _, rfl, by simp⟩
  | cons first more =>
      refine ⟨first, _, rfl, ?_⟩
      rintro word rfl
      exact absurd (opens (.keyword word) rfl) (by simp [Chain.begins])

theorem IsParameter.begins {parameter : Parameter Chain} (is : IsParameter tokens parameter) :
    ∃ word more, parameterKinds parameter = .keyword word :: more := by
  obtain ⟨type, q, name, chain⟩ := parameter
  have some : type.words ≠ [] := by
    have basic := is.basic
    cases type <;> first | (cases basic; done) | exact List.cons_ne_nil _ _
  obtain ⟨word, words, cons⟩ :=
    List.exists_cons_of_ne_nil (List.append_ne_nil_of_right_ne_nil q.words some)
  refine ⟨word, words.map Kind.keyword ++ chain.kinds name, ?_⟩
  change (q.words ++ type.words).map Kind.keyword ++ chain.kinds name = _
  rw [cons]
  rfl

theorem parameter_parse {parameter : Parameter Chain} {mark : Punctuator}
    (is : IsParameter tokens parameter) (ends : mark ∈ declaratorEnds)
    (fits : (parameterKinds parameter).length ≤ depth)
    (ahead : tokens.ahead s.position = parameterKinds parameter ++ .punctuator mark :: rest) :
    Parses tokens s (Grammar.parameter (Rules.nested (depth + 1))) (.punctuator mark :: rest)
      fun id s' => s'.arenas.Declares [id] [parameter] := by
  obtain ⟨word, more, begins⟩ := is.begins
  have inside : s.position < tokens.size := by
    rw [begins] at ahead
    exact inside_of_ahead ahead
  obtain ⟨basic, declared⟩ := is
  obtain ⟨type, q, name, chain⟩ := parameter
  have written : parameterKinds ⟨type, q, name, chain⟩ =
      (q.words ++ type.words).map Kind.keyword ++ chain.kinds name := rfl
  rw [written, List.length_append] at fits
  rw [written, List.append_assoc] at ahead
  obtain ⟨first, behind, next, other⟩ := next_of_opens (chain.kinds_opens name) mark rest
  rw [next] at ahead
  refine .here inside fun start => ?_
  refine .bind (specifiers_parse basic ahead other) fun specifiers middle reached => ?_
  rintro ⟨plain, basicSpan, node⟩
  have declaring : Declaring tokens depth middle name true (chain.kinds name) mark rest := by
    refine ⟨ends, by simp, by omega, ?_⟩
    rw [reached.ahead, next]
  refine .bind (declared depth middle specifiers.type true mark rest declaring)
    fun found last further => ?_
  rintro ⟨rfl, derives⟩
  refine .span (inside_of_ahead further.ahead) fun span => .addDecl further.ahead ?_
  intro id s' added declares
  rw [plain] at declares
  exact .cons declares ((further.grows.trans added.grows).type? node)
    (derives.mono added.grows) .nil

/-! ## Lists of parameters -/

theorem parameterRound_parse {parameter : Parameter Chain} {mark : Punctuator}
    {found : List DeclId} (is : IsParameter tokens parameter) (ends : mark ∈ declaratorEnds)
    (fits : (parameterKinds parameter).length ≤ depth)
    (ahead : tokens.ahead s.position = parameterKinds parameter ++ .punctuator mark :: rest)
    {between : List Kind} {after : Option ParameterList → State → Prop}
    (further : ∀ id middle, Reaches tokens s (.punctuator mark :: rest) middle →
      middle.arenas.Declares [id] [parameter] →
      Parses tokens middle (do
        return some { found := id :: found, more := ← Parse.acceptMark .comma })
          between after) :
    Parses tokens s (parameterRound (Rules.nested (depth + 1)) { found }) between after := by
  obtain ⟨word, more, begins⟩ := is.begins
  have first : tokens.ahead s.position = .keyword word :: (more ++ .punctuator mark :: rest) := by
    rw [ahead, begins]
    rfl
  refine .decline first (by simp) ?_
  exact .bind (parameter_parse is ends fits ahead) further

theorem parameterList_parse {parameters : List (Parameter Chain)} {variadic : Bool}
    {found : List DeclId} (some : listed parameters variadic ≠ [])
    (each : ∀ parameter ∈ parameters, IsParameter tokens parameter)
    (fits : (commaSeparated (listed parameters variadic)).length ≤ depth)
    (ahead : tokens.ahead s.position =
      commaSeparated (listed parameters variadic) ++ .punctuator .parenClose :: rest) :
    Parses tokens s (Parse.iterate (parameterRound (Rules.nested (depth + 1))) { found })
      (.punctuator .parenClose :: rest) fun list s' => list.variadic = variadic ∧
        ∃ decls, list.found = decls.reverse ++ found ∧ s'.arenas.Declares decls parameters := by
  induction parameters generalizing s found with
  | nil =>
      cases variadic with
      | false => exact absurd rfl some
      | true =>
          have ahead : tokens.ahead s.position =
            .punctuator .ellipsis :: .punctuator .parenClose :: rest := ahead
          have one : Parses tokens s (parameterRound (Rules.nested (depth + 1)) { found })
              (.punctuator .parenClose :: rest) fun answer _ => ∃ list, answer = .some list ∧
                list = { found, more := false, variadic := true } :=
            .accept ahead (by simp) (by simp) fun moved => .pure moved ⟨_, rfl, rfl⟩
          refine .round ahead (by simp) one fun list middle reached same => ?_
          subst same
          exact .stop (.pure reached.ahead ⟨rfl, rfl, [], rfl, .nil⟩)
  | cons parameter parameters ih =>
      have is := each parameter (List.mem_cons_self ..)
      by_cases last : listed parameters variadic = []
      · obtain ⟨rfl, rfl⟩ := Chain.listed_eq_nil last
        have written : commaSeparated (listed [parameter] false) = parameterKinds parameter :=
          Chain.commaSeparated_one _
        rw [written] at fits ahead
        have one : Parses tokens s (parameterRound (Rules.nested (depth + 1)) { found })
            (.punctuator .parenClose :: rest) fun answer s' => ∃ list, answer = .some list ∧
              ∃ id, list = { found := id :: found, more := false } ∧
                s'.arenas.Declares [id] [parameter] := by
          refine parameterRound_parse is (by decide) fits ahead
            fun id middle reached declares => ?_
          exact .decline reached.ahead (by simp) (.pure reached.ahead
            ⟨_, rfl, id, rfl, declares⟩)
        refine .round ahead ?_ one fun list middle reached => ?_
        · obtain ⟨word, behind, begins⟩ := is.begins
          simp only [begins, List.length_append, List.length_cons]
          omega
        · rintro ⟨id, rfl, declares⟩
          exact .stop (.pure reached.ahead ⟨rfl, rfl, [id], rfl, declares⟩)
      · have written : commaSeparated (listed (parameter :: parameters) variadic) =
            parameterKinds parameter ++
              .punctuator .comma :: commaSeparated (listed parameters variadic) :=
          Chain.commaSeparated_cons last _
        rw [written, List.length_append, List.length_cons] at fits
        rw [written, List.append_assoc] at ahead
        have one : Parses tokens s (parameterRound (Rules.nested (depth + 1)) { found })
            (commaSeparated (listed parameters variadic) ++ .punctuator .parenClose :: rest)
            fun answer s' => ∃ list, answer = .some list ∧
              ∃ id, list = { found := id :: found } ∧ s'.arenas.Declares [id] [parameter] := by
          refine parameterRound_parse is (by decide) (by omega) ahead
            fun id middle reached declares => ?_
          exact .accept reached.ahead (by simp) (by simp) fun moved => .pure moved
            ⟨_, rfl, id, rfl, declares⟩
        refine .round ahead ?_ one fun list middle reached => ?_
        · simp only [List.length_append, List.length_cons]
          omega
        · rintro ⟨id, rfl, declares⟩
          refine (ih last (fun other member => each other (List.mem_cons_of_mem _ member))
            (by omega) reached.ahead).weaken fun list s' further => ?_
          rintro ⟨rfl, decls, same, others⟩
          refine ⟨rfl, id :: decls, ?_, (declares.mono further.grows).behind others⟩
          rw [same, List.reverse_cons, List.append_assoc]
          rfl

theorem listed_begins {parameters : List (Parameter Chain)} {variadic : Bool}
    (each : ∀ parameter ∈ parameters, IsParameter tokens parameter)
    (some : listed parameters variadic ≠ []) :
    ∃ first more, commaSeparated (listed parameters variadic) = first :: more ∧
      (first = .punctuator .ellipsis ∨ ∃ word, first = .keyword word) := by
  cases parameters with
  | nil =>
      cases variadic with
      | false => exact absurd rfl some
      | true => exact ⟨_, _, rfl, .inl rfl⟩
  | cons parameter parameters =>
      obtain ⟨word, more, begins⟩ := (each parameter (List.mem_cons_self ..)).begins
      by_cases last : listed parameters variadic = []
      · refine ⟨_, more, ?_, .inr ⟨word, rfl⟩⟩
        rw [listed, last, Chain.commaSeparated_one, begins]
      · refine ⟨_, more ++ .punctuator .comma :: commaSeparated (listed parameters variadic), ?_,
          .inr ⟨word, rfl⟩⟩
        rw [listed, Chain.commaSeparated_cons last, begins, List.cons_append]

/-- Only the specifiers of a plain `void` begin with that word, and it is all of them. -/
theorem parameterKinds_void {parameter : Parameter Chain} {second : Kind} {more tail : List Kind}
    (basic : parameter.kind.isBasic = true)
    (equal : parameterKinds parameter ++ tail = .keyword .voidKw :: second :: more) :
    parameter.kind = .void ∧ parameter.qualifiers = .none ∧
      parameter.chain.kinds parameter.name ++ tail = second :: more := by
  obtain ⟨type, ⟨isConst, isVolatile⟩, name, chain⟩ := parameter
  cases isConst
  case true => cases equal
  cases isVolatile
  case true => cases equal
  cases type
  case void => exact ⟨rfl, rfl, List.tail_eq_of_cons_eq equal⟩
  all_goals first | (cases basic; done) | cases equal

/-- No declarator begins with a closing parenthesis. -/
theorem kinds_eq_nil_of_close {chain : Chain} {name : Option String} {tail more : List Kind}
    (equal : chain.kinds name ++ tail = .punctuator .parenClose :: more) :
    chain.kinds name = [] ∧ tail = .punctuator .parenClose :: more := by
  have opens := chain.kinds_opens name
  cases declared : chain.kinds name with
  | nil =>
      rw [declared] at equal
      exact ⟨rfl, equal⟩
  | cons =>
      rw [declared] at equal opens
      cases equal
      exact absurd (opens _ rfl) (by simp [Chain.begins])

/-- A list that is spelled out does not look like a lone `void`, which would be no parameter. -/
theorem spelled_not_void {parameters : List (Parameter Chain)} {variadic : Bool}
    {second : Kind} {more : List Kind} (spelled : Chain.spellsOut parameters variadic)
    (each : ∀ parameter ∈ parameters, IsParameter tokens parameter)
    (some : listed parameters variadic ≠ [])
    (equal : commaSeparated (listed parameters variadic) ++ .punctuator .parenClose :: rest =
      .keyword .voidKw :: second :: more) : second ≠ .punctuator .parenClose := by
  cases parameters with
  | nil => cases variadic <;> first | exact absurd rfl some | cases equal
  | cons parameter parameters =>
      have basic := (each parameter (List.mem_cons_self ..)).basic
      rintro rfl
      by_cases last : listed parameters variadic = []
      · have written : commaSeparated (listed (parameter :: parameters) variadic) =
            parameterKinds parameter := by
          rw [listed, last, Chain.commaSeparated_one]
        rw [written] at equal
        obtain ⟨void, plain, behind⟩ := parameterKinds_void basic equal
        obtain ⟨base, unnamed⟩ := Chain.kinds_eq_nil (kinds_eq_nil_of_close behind).1
        obtain ⟨rfl, rfl⟩ := Chain.listed_eq_nil last
        refine absurd ?_ (spelled rfl)
        obtain ⟨type, q, name, chain⟩ := parameter
        cases void
        cases plain
        cases base
        cases unnamed
        rfl
      · have written : commaSeparated (listed (parameter :: parameters) variadic) =
            parameterKinds parameter ++
              .punctuator .comma :: commaSeparated (listed parameters variadic) :=
          Chain.commaSeparated_cons last _
        rw [written, List.append_assoc] at equal
        obtain ⟨-, -, behind⟩ := parameterKinds_void basic equal
        cases (kinds_eq_nil_of_close behind).2

/-- The parameters of a function, with the parenthesis that closes them. -/
theorem parameters_parse {parameters : List (Parameter Chain)} {variadic : Bool}
    (spelled : Chain.spellsOut parameters variadic)
    (each : ∀ parameter ∈ parameters, IsParameter tokens parameter)
    (fits : (commaSeparated (listed parameters variadic)).length ≤ depth)
    (ahead : tokens.ahead s.position =
      commaSeparated (listed parameters variadic) ++ .punctuator .parenClose :: kind :: rest) :
    Parses tokens s (Grammar.parameters (Rules.nested (depth + 1))) (kind :: rest)
      fun found s' => s'.arenas.Declares found.1 parameters ∧ found.2 = variadic := by
  by_cases none : listed parameters variadic = []
  · obtain ⟨rfl, rfl⟩ := Chain.listed_eq_nil none
    have ahead : tokens.ahead s.position = .punctuator .parenClose :: kind :: rest := ahead
    exact .accept ahead (by simp) (by simp) fun moved => .pure moved ⟨.nil, rfl⟩
  · obtain ⟨first, more, begins, other⟩ := listed_begins each none
    obtain ⟨second, others, behind⟩ := List.exists_cons_of_ne_nil
      (List.append_ne_nil_of_right_ne_nil more
        (List.cons_ne_nil (Kind.punctuator .parenClose) (kind :: rest)))
    have written : commaSeparated (listed parameters variadic) ++
        .punctuator .parenClose :: kind :: rest = first :: second :: others := by
      rw [begins, List.cons_append, behind]
    have two := ahead.trans written
    have open_ : first ≠ .punctuator .parenClose := by
      rcases other with rfl | ⟨word, rfl⟩ <;> simp
    refine .decline two open_ (.of_run (at?_run two _) (.of_run (peekNext_run two) ?_))
    have several : ¬(decide (first = .keyword .voidKw) &&
        decide (second = .punctuator .parenClose)) = true := by
      rw [Bool.and_eq_true, decide_eq_true_iff, decide_eq_true_iff]
      rintro ⟨rfl, closes⟩
      exact spelled_not_void spelled each none written closes
    rw [if_neg several]
    refine .bind (parameterList_parse none each fits ahead) fun list middle reached => ?_
    rintro ⟨same, decls, found, declares⟩
    refine .expect reached.ahead (by simp) (by simp) fun moved => .pure moved ?_
    rw [List.append_nil] at found
    refine ⟨?_, same⟩
    change middle.arenas.Declares list.found.reverse parameters
    rw [found, List.reverse_reverse]
    exact declares

end SyntaxGraph.Grammar
