import SyntaxGraph.Proofs.Declarator.Parameter
import SyntaxGraph.Proofs.Specifiers.Sources

/-!
# The order of specifiers

Storage classes, `inline`, qualifiers and type words are specifiers by themselves, and it
does not matter in which order they stand.  An account of such words is refused where two of
them are storage classes; otherwise it holds the storage class, the qualifiers and type words
that occur, and the number of times that `long` does.  So the outcome of reading them is a
function of what occurs among them, and the kind of the type is one of the type words alone.
-/

set_option autoImplicit false

namespace SyntaxGraph.Grammar

open Token (Kind Keyword Punctuator)

/-- The keywords that are specifiers by themselves: storage classes, `inline`, qualifiers and
type words. -/
def standsAlone (word : Keyword) : Bool :=
  decide (word ∈ [.autoKw, .registerKw, .staticKw, .externKw, .typedefKw, .inlineKw, .constKw,
    .volatileKw, .restrictKw]) || (Specifier.word word).isTypeWord

/-- Whether a token goes on with the specifiers that begin with these words: a name does if it
is one of a type and no type word is there. -/
def continues (scopes : Scopes) (words : List Keyword) : Kind → Bool
  | .keyword word => standsAlone word || (tagKind? word).isSome
  | .identifier name =>
    !(words.any fun word => (Specifier.word word).isTypeWord) && scopes.isTypedef name
  | _ => false

/-- The words come next, each a specifier by itself, and behind them a token that is no
specifier. -/
structure Specifying (tokens : Tokens) (s : State) (words : List Keyword) (kind : Kind) :
    Prop where
  alone : ∀ word ∈ words, standsAlone word = true
  ends : continues s.scopes words kind = false
  ahead : ∃ rest, tokens.ahead s.position = words.map Kind.keyword ++ kind :: rest

/-- Which type words occur, and how often `long` does. -/
def TypeWords.among (words : List Keyword) : TypeWords where
  void := decide (.voidKw ∈ words)
  bool := decide (.boolKw ∈ words)
  char := decide (.charKw ∈ words)
  short := decide (.shortKw ∈ words)
  int := decide (.intKw ∈ words)
  long := words.count .longKw
  float := decide (.floatKw ∈ words)
  double := decide (.doubleKw ∈ words)
  signed := decide (.signedKw ∈ words)
  unsigned := decide (.unsignedKw ∈ words)

/-- The account of words among which there is no second storage class. -/
def SpecifierList.ofWords (words : List Keyword) : SpecifierList where
  storage := (words.filterMap storage?).head?.getD .none
  isInline := decide (.inlineKw ∈ words)
  qualifiers := ⟨decide (.constKw ∈ words), decide (.volatileKw ∈ words)⟩
  words := .among words

variable {tokens : Tokens} {rules : Rules} {s : State} {list final next : SpecifierList}
  {words others : List Keyword} {word : Keyword} {kind : Kind} {rest : List Kind}

/-! ## The account of the words -/

theorem storage?_ne_none {storage : Storage} (found : storage? word = some storage) :
    storage ≠ .none := by
  rintro rfl
  cases word <;> cases found

namespace SpecifierList

theorem ofWords_storage : (ofWords words).storage = .none ↔ words.filterMap storage? = [] := by
  cases storages : words.filterMap storage? with
  | nil => simp [ofWords, storages]
  | cons storage others =>
      have member : storage ∈ words.filterMap storage? := by simp [storages]
      obtain ⟨word, -, found⟩ := List.mem_filterMap.mp member
      simpa [ofWords, storages] using storage?_ne_none found

/-- One more word is taken unless it is a second storage class. -/
theorem take?_ofWords (alone : standsAlone word = true)
    (single : (words.filterMap storage?).length ≤ 1) :
    (ofWords words).take? (.word word) =
      if 1 < ((words ++ [word]).filterMap storage?).length then none
      else some (ofWords (words ++ [word])) := by
  have storages : (words ++ [word]).filterMap storage? =
      words.filterMap storage? ++ (storage? word).toList := by
    rw [List.filterMap_append]
    cases storage : storage? word <;> simp [storage]
  rw [storages, List.length_append]
  cases storage : storage? word with
  | some found =>
      by_cases first : words.filterMap storage? = []
      · rw [take?, storage]
        dsimp only
        rw [if_pos (ofWords_storage.mpr first), first, if_neg (by simp)]
        cases word <;> cases storage <;> simp [storage?, ofWords, TypeWords.among, first]
      · have some := List.length_pos_of_ne_nil first
        rw [take?, storage]
        dsimp only
        rw [if_neg (mt ofWords_storage.mp first), if_pos (by simpa using some)]
  | none =>
      rw [take?, storage, if_neg (by simpa using single)]
      dsimp only
      cases word <;> first
        | (cases storage; done)
        | (simp [standsAlone, Specifier.isTypeWord] at alone; done)
        | simp [insert?, qualifiedBy?, TypeWords.insert?, ofWords, TypeWords.among, storage?]

/-- The account of words that stand alone. -/
theorem account_words (alone : ∀ word ∈ words, standsAlone word = true) :
    (words.map Specifier.word).foldlM take? {} =
      if 1 < (words.filterMap storage?).length then none else some (ofWords words) := by
  induction words using List.reverseRecOn with
  | nil => rfl
  | append_singleton words word ih =>
      have earlier := ih fun other member => alone other (List.mem_append_left [word] member)
      have here := alone word (List.mem_append_right words List.mem_cons_self)
      rw [List.map_append, List.foldlM_append, earlier]
      by_cases many : 1 < (words.filterMap storage?).length
      · have still : 1 < ((words ++ [word]).filterMap storage?).length := by
          rw [List.filterMap_append, List.length_append]
          omega
        rw [if_pos many, if_pos still]
        rfl
      · rw [if_neg many, ← take?_ofWords here (Nat.le_of_not_lt many)]
        exact bind_pure ((ofWords words).take? (.word word))

theorem ofWords_perm (perm : words.Perm others)
    (single : (words.filterMap storage?).length ≤ 1) : ofWords words = ofWords others := by
  have storages : words.filterMap storage? = others.filterMap storage? := by
    have same := perm.filterMap storage?
    cases found : words.filterMap storage? with
    | nil =>
        rw [found] at same
        exact same.nil_eq
    | cons storage more =>
        rw [found] at same single
        obtain rfl : more = [] := List.length_eq_zero_iff.mp (by simpa using single)
        exact List.singleton_perm.mp same
  have counts : words.count .longKw = others.count .longKw := perm.count_eq .longKw
  simp only [ofWords, TypeWords.among, storages, perm.mem_iff, counts]

end SpecifierList

/-! ## Counting in a byte -/

/-- A counter of eight bits that counts `long`. -/
def Specifier.countLong (count : UInt8) (item : Specifier) : UInt8 :=
  if item = .word .longKw then count + 1 else count

/-- How often `long` stands there, as a counter of eight bits has it. -/
def Specifier.longByte (items : List Specifier) : UInt8 := items.foldl Specifier.countLong 0

namespace SpecifierList

variable {items : List Specifier}

theorem ofNat_long_take? (list : SpecifierList) (item : Specifier) (next : SpecifierList)
    (taken : list.take? item = some next) :
    UInt8.ofNat next.words.long = Specifier.countLong (UInt8.ofNat list.words.long) item := by
  rw [words_take? list item next taken, Specifier.countLong]
  cases item with
  | word keyword => cases keyword <;> simp [Specifier.addTo, TypeWords.insert?, UInt8.ofNat_add]
  | name _ | tagged _ _ => simp [Specifier.addTo]

/-- A counter of eight bits has what the account has, as long as there is no overflow. -/
theorem long_of_take? (taken : items.foldlM take? {} = some final)
    (few : final.words.long < 256) :
    final.words.long = (Specifier.longByte items).toNat := by
  have counted : UInt8.ofNat final.words.long = Specifier.longByte items :=
    fold_of_take? ofNat_long_take? taken
  rw [← counted, UInt8.toNat_ofNat_of_lt' few]

/-- Fewer than 256 of the words are counted the same in a byte. -/
theorem among_long (alone : ∀ word ∈ words, standsAlone word = true)
    (single : (words.filterMap storage?).length ≤ 1) (few : words.count .longKw < 256) :
    (TypeWords.among words).long = (Specifier.longByte (words.map .word)).toNat := by
  have taken := account_words alone
  rw [if_neg (Nat.not_lt.mpr single)] at taken
  exact long_of_take? taken few

end SpecifierList

/-! ## Reading the words -/

theorem standsAlone_untagged (alone : standsAlone word = true) : tagKind? word = none := by
  revert alone
  cases word <;> decide

/-- A word that the account takes is consumed. -/
theorem specifierRound_taken (alone : standsAlone word = true) (more : rest ≠ [])
    (taken : list.take? (.word word) = some next)
    (ahead : tokens.ahead s.position = .keyword word :: rest) :
    specifierRound rules list tokens s =
      .ok (some next) { s with position := s.position + 1 } := by
  cases storage : storage? word with
  | none =>
      rw [SpecifierList.take?, storage] at taken
      exact specifierRound_takes ⟨storage, standsAlone_untagged alone⟩ more taken ahead
  | some found =>
      rw [SpecifierList.take?, storage] at taken
      obtain ⟨free, same⟩ := Option.ite_none_right_eq_some.mp taken
      cases same
      rw [specifierRound, bind_of_ok (peek_run ahead)]
      dsimp only
      rw [storage]
      dsimp only
      rw [if_neg (not_not.mpr free), bind_of_ok (advance_run ahead (by simp) more)]
      rfl

/-- A word that the account refuses is a second storage class. -/
theorem specifierRound_refused (alone : standsAlone word = true)
    (refused : list.take? (.word word) = none)
    (ahead : tokens.ahead s.position = .keyword word :: rest) :
    specifierRound rules list tokens s = .error .multipleStorageClasses s := by
  cases storage : storage? word with
  | none =>
      rw [SpecifierList.take?, storage] at refused
      revert refused alone
      cases word <;> simp [standsAlone, Specifier.isTypeWord, SpecifierList.insert?, qualifiedBy?,
        TypeWords.insert?] <;> cases storage
  | some found =>
      rw [SpecifierList.take?, storage] at refused
      have second : list.storage ≠ .none := by
        intro free
        simp [free] at refused
      rw [specifierRound, bind_of_ok (peek_run ahead)]
      dsimp only
      rw [storage]
      dsimp only
      rw [if_pos second]
      rfl

theorem ignored_of_not_standsAlone (other : standsAlone word = false) (list : SpecifierList) :
    storage? word = none ∧ list.insert? word = none := by
  revert other
  cases word <;> simp [standsAlone, Specifier.isTypeWord, storage?, SpecifierList.insert?,
    qualifiedBy?, TypeWords.insert?]

/-- Behind the words the specifiers end. -/
theorem specifierRound_ends
    (taken : (words.map Specifier.word).foldlM SpecifierList.take? {} = some final)
    (ends : continues s.scopes words kind = false)
    (ahead : tokens.ahead s.position = kind :: rest) :
    specifierRound rules final tokens s = .ok none s := by
  have unnamed : final.isNamed = false := by
    rw [SpecifierList.isNamed_of_take? taken]
    simp [Specifier.namesType]
  have worded : (!final.words.isEmpty) =
      words.any fun word => (Specifier.word word).isTypeWord := by
    rw [SpecifierList.words_isEmpty_of_take? taken, List.any_map]
    rfl
  rw [specifierRound, bind_of_ok (peek_run ahead)]
  cases kind with
  | keyword word =>
      obtain ⟨other, untagged⟩ := Bool.or_eq_false_iff.mp ends
      obtain ⟨plain, ignored⟩ := ignored_of_not_standsAlone other final
      rw [Option.isSome_eq_false_iff, Option.isNone_iff_eq_none] at untagged
      dsimp only
      rw [plain]
      dsimp only
      rw [untagged]
      dsimp only
      rw [ignored]
      rfl
  | identifier name =>
      change (if !final.isNamed && final.words.isEmpty && s.scopes.isTypedef name then _ else _ :
        Parse (Option SpecifierList)) tokens s = _
      rw [continues, ← worded, Bool.not_not] at ends
      rw [unnamed, Bool.not_false, Bool.true_and, ends, if_neg Bool.false_ne_true]
      rfl
  | _ => rfl

/-- A round that takes one token leaves to the rounds behind it what is left. -/
theorem iterate_token {β : Type} {step : β → Parse (Option β)} {value more : β}
    (round : step value tokens s = .ok (some more) { s with position := s.position + 1 })
    (inside : s.position < tokens.size) :
    Parse.iterate step value tokens s =
      Parse.iterate step more tokens { s with position := s.position + 1 } := by
  have left : tokens.size - s.position = tokens.size - (s.position + 1) + 1 := by omega
  change (step value >>= _) tokens s = _
  rw [bind_of_ok round]
  change (if s.position < s.position + 1 then
    Parse.rounds step (tokens.size - s.position) more else Parse.fail (.fault .idle) : Parse β)
      tokens _ = _
  rw [if_pos (Nat.lt_succ_self _), left]
  rfl

theorem iterate_fails {β : Type} {step : β → Parse (Option β)} {value : β} {cause : Cause}
    (round : step value tokens s = .error cause s) :
    Parse.iterate step value tokens s = .error cause s := by
  change (step value >>= _) tokens s = _
  rw [bind_apply, round]

/-- The rounds take the words into the account one by one, up to one that it refuses. -/
theorem iterate_words (alone : ∀ word ∈ words, standsAlone word = true)
    (ahead : tokens.ahead s.position = words.map Kind.keyword ++ kind :: rest)
    (stops : ∀ final t, (words.map Specifier.word).foldlM SpecifierList.take? list = some final →
      t.scopes = s.scopes → tokens.ahead t.position = kind :: rest →
      specifierRound rules final tokens t = .ok none t) :
    match (words.map Specifier.word).foldlM SpecifierList.take? list with
    | some final => Parse.iterate (specifierRound rules) list tokens s =
        .ok final { s with position := s.position + words.length }
    | none => ∃ t, Parse.iterate (specifierRound rules) list tokens s =
        .error .multipleStorageClasses t := by
  induction words generalizing list s with
  | nil => exact iterate_stop (stops list s rfl rfl ahead)
  | cons word words ih =>
      obtain ⟨here, others⟩ := List.forall_mem_cons.mp alone
      obtain ⟨inside, -, behind⟩ := Tokens.of_ahead_cons ahead
      rw [List.map_cons, List.foldlM_cons] at stops ⊢
      cases taken : list.take? (.word word) with
      | none => exact ⟨s, iterate_fails (specifierRound_refused here taken ahead)⟩
      | some next =>
          rw [taken] at stops
          have round : specifierRound rules list tokens s =
              .ok (some next) { s with position := s.position + 1 } :=
            specifierRound_taken here (by simp) taken ahead
          have later := ih (s := { s with position := s.position + 1 }) others behind stops
          have count : s.position + (word :: words).length = s.position + 1 + words.length := by
            rw [List.length_cons]
            omega
          rw [iterate_token round inside, count]
          exact later

/-! ## The outcome -/

/-- What words that stand alone say together, in front of a token that is no specifier. -/
def verdict (words : List Keyword) (kind : Kind) : Except Cause TypeKind :=
  if 1 < (words.filterMap storage?).length then .error .multipleStorageClasses
  else if (TypeWords.among words).isEmpty then .error (.expectedTypeSpecifier kind)
  else match (TypeWords.among words).kind? with
    | some type => .ok type
    | none => .error .invalidTypeWords

/-- The storage class, whether `inline` is there, and the qualifiers and the kind of the type. -/
def Specifiers.says? (value : Specifiers) (arenas : Arenas) :
    Option (Storage × Bool × Qualifiers × TypeKind) :=
  (arenas.type? value.type).map fun node =>
    (value.storage, value.isInline, node.qualifiers, node.kind)

theorem Specifiers.kind_of_says? {value : Specifiers} {storage : Storage} {isInline : Bool}
    {qualifiers : Qualifiers} {type : TypeKind}
    (told : value.says? s.arenas = some (storage, isInline, qualifiers, type)) :
    s.typeKind? value.type = some type := by
  obtain ⟨node, found, same⟩ := Option.map_eq_some_iff.mp told
  cases same
  rw [State.typeKind?, found]
  rfl

/-- Specifiers that stand alone are read as the verdict says. -/
theorem specifiers_verdict (rules : Rules) (specifying : Specifying tokens s words kind) :
    match verdict words kind with
    | .error cause => ∃ t, specifiers rules tokens s = .error cause t
    | .ok type => ∃ value t, specifiers rules tokens s = .ok value t ∧
        t.position = s.position + words.length ∧
        value.says? t.arenas = some ((SpecifierList.ofWords words).storage,
          (SpecifierList.ofWords words).isInline, (SpecifierList.ofWords words).qualifiers,
          type) := by
  obtain ⟨alone, ends, rest, ahead⟩ := specifying
  have inside : s.position < tokens.size := by
    obtain ⟨first, more, begins⟩ := List.exists_cons_of_ne_nil
      (List.append_ne_nil_of_right_ne_nil (words.map Kind.keyword) (List.cons_ne_nil kind rest))
    exact inside_of_ahead (ahead.trans begins)
  have behind : tokens.ahead (s.position + words.length) = kind :: rest := by
    have split := (Tokens.of_ahead_append ahead).2
    rwa [List.length_map] at split
  have rounds := @iterate_words tokens rules s {} words kind rest alone ahead
    fun final t taken scopes ahead => specifierRound_ends taken (scopes ▸ ends) ahead
  obtain ⟨start, started⟩ := here_run inside
  rw [SpecifierList.account_words alone] at rounds
  unfold verdict
  by_cases many : 1 < (words.filterMap storage?).length
  · rw [if_pos many] at rounds ⊢
    obtain ⟨t, failed⟩ := rounds
    exact ⟨t, by rw [specifiers, bind_of_ok started, bind_apply, failed]⟩
  rw [if_neg many] at rounds ⊢
  obtain ⟨span, spanned⟩ : ∃ span, Parse.spanFrom start tokens
      { s with position := s.position + words.length } =
        .ok span { s with position := s.position + words.length } :=
    spanFrom_run (inside_of_ahead behind)
  have opened : specifiers rules tokens s =
      (do
        let type ← specifiedType (.ofWords words) span
        return ⟨(SpecifierList.ofWords words).storage, (SpecifierList.ofWords words).isInline, type⟩
        : Parse Specifiers) tokens { s with position := s.position + words.length } := by
    rw [specifiers, bind_of_ok started, bind_of_ok rounds, bind_of_ok spanned]
  rw [opened]
  by_cases empty : (TypeWords.among words).isEmpty = true
  · rw [if_pos empty]
    refine ⟨{ s with position := s.position + words.length }, ?_⟩
    have refused : specifiedType (.ofWords words) span =
        (do Parse.fail (.expectedTypeSpecifier (← Parse.peek))) := by
      change (if (TypeWords.among words).isEmpty then _ else _ : Parse TypeId) = _
      rw [if_pos empty]
    rw [refused, bind_assoc, bind_of_ok (peek_run behind)]
    rfl
  rw [if_neg empty]
  have made : specifiedType (.ofWords words) span =
      match (TypeWords.among words).kind? with
      | some kind => Parse.addType
          ((TypeNode.basic kind span).qualified (SpecifierList.ofWords words).qualifiers)
      | none => Parse.fail .invalidTypeWords := by
    change (if (TypeWords.among words).isEmpty then _ else _ : Parse TypeId) = _
    rw [if_neg empty]
    rfl
  rw [made]
  cases named : (TypeWords.among words).kind? with
  | none => exact ⟨_, rfl⟩
  | some type =>
      refine ⟨_, _, rfl, rfl, ?_⟩
      have found := Arenas.type?_addType_self s.arenas
        ((TypeNode.basic type span).qualified (SpecifierList.ofWords words).qualifiers)
      exact congrArg (Option.map _) found

theorem verdict_perm (perm : words.Perm others) : verdict words kind = verdict others kind := by
  have count := (perm.filterMap storage?).length_eq
  by_cases many : 1 < (words.filterMap storage?).length
  · rw [verdict, verdict, if_pos many, if_pos (count ▸ many)]
  · have same := congrArg SpecifierList.words
      (SpecifierList.ofWords_perm perm (Nat.le_of_not_lt many))
    change TypeWords.among words = TypeWords.among others at same
    rw [verdict, verdict, count, same]

/-- The kind is that of the words that occur. -/
theorem verdict_ok {type : TypeKind} (named : verdict words kind = .ok type) :
    (TypeWords.among words).kind? = some type := by
  unfold verdict at named
  split at named
  · cases named
  split at named
  · cases named
  split at named
  · next found =>
      cases named
      exact found
  · cases named

/-- The type words that occur, and the number of times that `long` does, say which. -/
theorem TypeWords.among_congr
    (same : ∀ word, (Specifier.word word).isTypeWord = true → (word ∈ words ↔ word ∈ others))
    (longs : words.count .longKw = others.count .longKw) : among words = among others := by
  simp only [among, longs, same .voidKw rfl, same .boolKw rfl, same .charKw rfl,
    same .shortKw rfl, same .intKw rfl, same .floatKw rfl, same .doubleKw rfl,
    same .signedKw rfl, same .unsignedKw rfl]

/-- Words that stand alone, followed by the same token, are read alike in any order: either
both readings end behind the words and say the same, or both are refused for the same cause.
The kind of the type depends only on the type words that occur and on the number of times
that `long` does. -/
theorem specifiers_order {tokens' : Tokens} {s' : State} (rules : Rules)
    (one : Specifying tokens s words kind) (other : Specifying tokens' s' others kind) :
    (words.Perm others →
      (∃ value t value' t' said, specifiers rules tokens s = .ok value t ∧
        specifiers rules tokens' s' = .ok value' t' ∧
        t.position = s.position + words.length ∧ t'.position = s'.position + others.length ∧
        value.says? t.arenas = some said ∧ value'.says? t'.arenas = some said) ∨
      ∃ cause t t', specifiers rules tokens s = .error cause t ∧
        specifiers rules tokens' s' = .error cause t') ∧
    ((∀ word, (Specifier.word word).isTypeWord = true → (word ∈ words ↔ word ∈ others)) →
      words.count .longKw = others.count .longKw →
      ∀ value t value' t', specifiers rules tokens s = .ok value t →
        specifiers rules tokens' s' = .ok value' t' →
        ∃ type, t.typeKind? value.type = some type ∧ t'.typeKind? value'.type = some type) := by
  have first := specifiers_verdict rules one
  have second := specifiers_verdict rules other
  constructor
  · intro perm
    rw [← verdict_perm perm] at second
    cases outcome : verdict words kind with
    | error cause =>
        rw [outcome] at first second
        obtain ⟨t, failed⟩ := first
        obtain ⟨t', failed'⟩ := second
        exact .inr ⟨cause, t, t', failed, failed'⟩
    | ok type =>
        have single : (words.filterMap storage?).length ≤ 1 := by
          by_contra many
          rw [verdict, if_pos (Nat.lt_of_not_le many)] at outcome
          cases outcome
        rw [outcome] at first second
        rw [← SpecifierList.ofWords_perm perm single] at second
        obtain ⟨value, t, run, place, told⟩ := first
        obtain ⟨value', t', run', place', told'⟩ := second
        exact .inl ⟨value, t, value', t', _, run, run', place, place', told, told'⟩
  · intro same longs value t value' t' run run'
    have among := TypeWords.among_congr same longs
    cases outcome : verdict words kind with
    | error cause =>
        rw [outcome] at first
        obtain ⟨_, failed⟩ := first
        cases failed.symm.trans run
    | ok type =>
        cases outcome' : verdict others kind with
        | error cause =>
            rw [outcome'] at second
            obtain ⟨_, failed⟩ := second
            cases failed.symm.trans run'
        | ok type' =>
            have kinds := verdict_ok outcome
            rw [among, verdict_ok outcome'] at kinds
            cases kinds
            rw [outcome] at first
            rw [outcome'] at second
            obtain ⟨_, _, ran, -, told⟩ := first
            obtain ⟨_, _, ran', -, told'⟩ := second
            cases ran.symm.trans run
            cases ran'.symm.trans run'
            exact ⟨type, Specifiers.kind_of_says? told, Specifiers.kind_of_says? told'⟩

end SyntaxGraph.Grammar

namespace SyntaxGraph.Program

open Grammar
open Token (Reading)

/-- A storage class and a qualifier stand among the words of one type. -/
def mixedWordsTokens : Tokens :=
  (Reading.ofSource "long unsigned const int static long x;").tokens.toArray

/-- The same words, with those of the type behind the others. -/
def sortedWordsTokens : Tokens :=
  (Reading.ofSource "static const unsigned long long int x;").tokens.toArray

theorem specifiers_order_mixedWords :
    ∃ value t value' t', specifiers (Rules.nested 9) mixedWordsTokens {} = .ok value t ∧
      specifiers (Rules.nested 9) sortedWordsTokens {} = .ok value' t' ∧
      value.says? t.arenas = some (.static, false, ⟨true, false⟩, .ulonglong) ∧
      value'.says? t'.arenas = some (.static, false, ⟨true, false⟩, .ulonglong) := by
  have mixed : Specifying mixedWordsTokens {}
      [.longKw, .unsignedKw, .constKw, .intKw, .staticKw, .longKw] (.identifier "x") :=
    ⟨by decide, by decide, [.punctuator .semicolon, .eof], by decide +kernel⟩
  have sorted : Specifying sortedWordsTokens {}
      [.staticKw, .constKw, .unsignedKw, .longKw, .longKw, .intKw] (.identifier "x") :=
    ⟨by decide, by decide, [.punctuator .semicolon, .eof], by decide +kernel⟩
  have ended : seenAtEnd? (fun value t => value.says? t.arenas)
      (specifiers (Rules.nested 9) mixedWordsTokens {}) =
        some (some (.static, false, ⟨true, false⟩, .ulonglong)) := by
    decide +kernel
  obtain ⟨value, t, run, told⟩ := ok_of_seenAtEnd? ended
  obtain ⟨_, _, value', t', said, ran, run', -, -, first, second⟩ | ⟨cause, _, _, failed, -⟩ :=
    (specifiers_order (Rules.nested 9) mixed sorted).1 (by decide)
  · cases run.symm.trans ran
    obtain rfl := Option.some.inj (told.symm.trans first)
    exact ⟨value, t, value', t', run, run', told, second⟩
  · cases run.symm.trans failed

end SyntaxGraph.Program
