import SyntaxGraph.Proofs.Token.Front
import SyntaxGraph.Proofs.Token.Layout

/-!
# Tokens and their scans

Every token of a reading but the end of the file has been scanned at some offset of the
source.  What is known of its characters, of how far it goes and of what stands beside it is
known from this scan: a word takes all characters of words that follow, a numeric constant
all of these and dots, and a literal ends with its quote.  No lexeme ends between two
characters of words.
-/

set_option autoImplicit false

namespace SyntaxGraph.Token

variable {fresh : Bool} {first : Char} {rest : List Char} {lexeme : Lexeme}

/-! ## Ends of extents -/

theorem takeWhile_stops (admits : Char → Bool) (text : List Char) :
    ∀ c ∈ (text.drop (text.takeWhile admits).length).head?, admits c = false := by
  induction text with
  | nil => simp
  | cons d text ih =>
      by_cases admitted : admits d = true
      · simpa only [List.takeWhile_cons, admitted, if_true, List.length_cons,
          List.drop_succ_cons] using ih
      · simp [admitted]

theorem numberExtent_stops (hex : Bool) (last : Char) (text : List Char) :
    ∀ c ∈ (text.drop (numberExtent hex last text)).head?, isWordPart c = false ∧ c ≠ '.' := by
  fun_induction numberExtent hex last text with
  | case1 => simp
  | case2 last c rest exponent goesOn ih => simpa using ih
  | case3 last c rest exponent stops =>
      simp only [Bool.or_eq_true, not_or, decide_eq_true_eq, Bool.not_eq_true] at stops
      simpa using stops.1

/-- The characters of a numeric constant. -/
def isNumberPart (c : Char) : Bool := isWordPart c || c = '.' || c = '+' || c = '-'

theorem numberExtent_admits (hex : Bool) (last : Char) (text : List Char) :
    ∀ c ∈ text.take (numberExtent hex last text), isNumberPart c = true := by
  fun_induction numberExtent hex last text with
  | case1 => simp
  | case2 last c rest exponent goesOn ih =>
      rw [List.take_succ_cons]
      refine List.forall_mem_cons.mpr ⟨?_, ih⟩
      simp only [Bool.or_eq_true, Bool.and_eq_true, decide_eq_true_eq] at goesOn
      unfold isNumberPart
      rcases goesOn with (part | rfl) | ⟨rfl | rfl, -⟩
      · simp [part]
      all_goals rfl
  | case3 => simp

theorem quotedExtent_ends {quote : Quote} {text : List Char} {extent : Nat}
    (found : quotedExtent quote text = some extent) :
    (text.take extent).getLast? = some quote.char := by
  fun_induction quotedExtent quote text generalizing extent with
  | case1 => cases found
  | case2 escaped rest ih =>
      obtain ⟨inner, ended, rfl⟩ := Option.map_eq_some_iff.mp found
      have last := ih ended
      simp [List.getLast?_cons, last]
  | case3 => cases found
  | case4 rest _ unbroken =>
      cases found
      rfl
  | case5 c rest _ unbroken other ih =>
      obtain ⟨inner, ended, rfl⟩ := Option.map_eq_some_iff.mp found
      have last := ih ended
      simp [List.getLast?_cons, last]

/-- Backslashes escape what is behind them, and no newline is left that is not escaped. -/
inductive Escaped : List Char → Prop
  | nil : Escaped []
  | cons {c : Char} {text : List Char} (plain : c ≠ '\n' ∧ c ≠ '\\') (rest : Escaped text) :
      Escaped (c :: text)
  | pair (c : Char) {text : List Char} (rest : Escaped text) : Escaped ('\\' :: c :: text)

theorem quotedExtent_escaped {quote : Quote} {text : List Char} {extent : Nat}
    (found : quotedExtent quote text = some extent) : Escaped (text.take extent) := by
  fun_induction quotedExtent quote text generalizing extent with
  | case1 => cases found
  | case2 escaped rest ih =>
      obtain ⟨inner, ended, rfl⟩ := Option.map_eq_some_iff.mp found
      exact .pair escaped (ih ended)
  | case3 => cases found
  | case4 rest _ unbroken =>
      cases found
      exact .cons (by simpa using unbroken) .nil
  | case5 c rest _ unbroken other ih =>
      obtain ⟨inner, ended, rfl⟩ := Option.map_eq_some_iff.mp found
      exact .cons (by simpa using unbroken) (ih ended)

theorem blockCommentExtent_ends {text : List Char} {extent : Nat}
    (found : blockCommentExtent text = some extent) :
    (text.take extent).getLast? = some '/' := by
  fun_induction blockCommentExtent text generalizing extent with
  | case1 => cases found
  | case2 rest =>
      cases found
      rfl
  | case3 c rest _ ih =>
      obtain ⟨inner, ended, rfl⟩ := Option.map_eq_some_iff.mp found
      have last := ih ended
      simp [List.getLast?_cons, last]

/-! ## How far a token goes -/

/-- How the characters of a token begin and how far it goes. -/
def Category.Reaches (first : Char) (rest : List Char) (more : Nat) : Category → Prop
  | .number => (first.isDigit = true ∨ first = '.') ∧ ∃ hex, more = numberExtent hex first rest
  | .quoted quote => ∃ opening behind extent,
      (opening = [quote.char] ∨ opening = ['L', quote.char]) ∧ first :: rest = opening ++ behind ∧
        quotedExtent quote behind = some extent ∧ more + 1 = opening.length + extent
  | .word => isWordStart first = true ∧ more = (rest.takeWhile isWordPart).length
  | .punctuator mark => Punctuator.longest? (first :: rest) = some mark
  | .blanks | .comment | .directive => True

theorem scanQuoted_reaches {quote : Quote} {opening behind : List Char} {count : Nat}
    (opens : opening = [quote.char] ∨ opening = ['L', quote.char])
    (split : first :: rest = opening ++ behind) (length : opening.length = count + 1)
    (scanned : scanQuoted quote count behind = .ok lexeme) :
    lexeme.category.Reaches first rest lexeme.more := by
  unfold scanQuoted at scanned
  split at scanned
  · next extent found =>
      cases scanned
      exact ⟨opening, behind, extent, opens, split, found, by dsimp only; omega⟩
  · cases scanned

theorem scanWord_reaches (letter : isWordStart first = true)
    (scanned : scanWord first rest = .ok lexeme) :
    lexeme.category.Reaches first rest lexeme.more := by
  unfold scanWord at scanned
  dsimp only at scanned
  split at scanned
  · next c tail =>
      split at scanned
      · next quote found =>
          rw [← Quote.char_of_ofChar? found]
          exact scanQuoted_reaches (.inr rfl) rfl rfl scanned
      · cases scanned
        exact ⟨letter, rfl⟩
  · cases scanned
    exact ⟨letter, rfl⟩

theorem scan_reaches (scanned : scan fresh first rest = .ok lexeme) :
    lexeme.category.Reaches first rest lexeme.more := by
  unfold scan at scanned
  split at scanned
  · cases scanned
    trivial
  split at scanned
  · cases scanned
    trivial
  split at scanned
  · split at scanned
    · cases scanned
      trivial
    · cases scanned
  split at scanned
  · cases scanned
    trivial
  split at scanned
  · next number =>
      cases scanned
      simp only [Bool.or_eq_true, Bool.and_eq_true, decide_eq_true_eq] at number
      exact ⟨number.imp_right And.left, _, rfl⟩
  split at scanned
  · next letter => exact scanWord_reaches letter scanned
  split at scanned
  · next quote found =>
      rw [← Quote.char_of_ofChar? found]
      exact scanQuoted_reaches (.inl rfl) rfl rfl scanned
  · unfold scanPunctuator at scanned
    split at scanned
    · next mark found =>
        cases scanned
        exact found
    · cases scanned

/-! ## What is in the text of a token -/

theorem isWordPart_of_isWordStart {c : Char} (start : isWordStart c = true) :
    isWordPart c = true := by
  unfold isWordStart at start
  unfold isWordPart
  rw [Char.isAlphanum]
  rcases Bool.or_eq_true_iff.mp start with letter | underscore
  · simp [letter]
  · simp [underscore]

theorem word_admits {more : Nat} (reaches : Category.word.Reaches first rest more) :
    ∀ c ∈ first :: rest.take more, isWordPart c = true := by
  obtain ⟨letter, rfl⟩ := reaches
  refine List.forall_mem_cons.mpr ⟨isWordPart_of_isWordStart letter, fun c member => ?_⟩
  rw [← List.prefix_iff_eq_take.mp (List.takeWhile_prefix isWordPart)] at member
  exact List.mem_takeWhile_imp member

theorem number_admits {more : Nat} (reaches : Category.number.Reaches first rest more) :
    ∀ c ∈ first :: rest.take more, isNumberPart c = true := by
  obtain ⟨begins, hex, rfl⟩ := reaches
  refine List.forall_mem_cons.mpr ⟨?_, numberExtent_admits hex first rest⟩
  unfold isNumberPart
  rcases begins with digit | rfl
  · simp [isWordPart_of_isDigit digit]
  · rfl

/-- The text of a literal is what opens it and all up to the quote that ends it. -/
theorem quoted_covered {quote : Quote} {more : Nat}
    (reaches : (Category.quoted quote).Reaches first rest more) :
    ∃ opening behind extent, (opening = [quote.char] ∨ opening = ['L', quote.char]) ∧
      first :: rest.take more = opening ++ behind.take extent ∧
      quotedExtent quote behind = some extent := by
  obtain ⟨opening, behind, extent, opens, split, found, length⟩ := reaches
  refine ⟨opening, behind, extent, opens, ?_, found⟩
  rw [← List.take_succ_cons, split, length, List.take_length_add_append]

theorem quoted_escaped {quote : Quote} {more : Nat}
    (reaches : (Category.quoted quote).Reaches first rest more) :
    Escaped (first :: rest.take more) := by
  obtain ⟨opening, behind, extent, opens, covered, found⟩ := quoted_covered reaches
  have plain : quote.char ≠ '\n' ∧ quote.char ≠ '\\' := by cases quote <;> decide
  have inner := quotedExtent_escaped found
  rw [covered]
  rcases opens with rfl | rfl
  · exact .cons plain inner
  · exact .cons (by decide) (.cons plain inner)

/-- A literal ends with its quote. -/
theorem quoted_getLast? {quote : Quote} {more : Nat}
    (reaches : (Category.quoted quote).Reaches first rest more) :
    (first :: rest.take more).getLast? = some quote.char := by
  obtain ⟨opening, behind, extent, -, covered, found⟩ := quoted_covered reaches
  rw [covered, List.getLast?_append, quotedExtent_ends found]
  rfl

/-! ## Where a lexeme ends -/

/-- No two characters of words stand on the two sides. -/
def Parted (before behind : List Char) : Prop :=
  ∀ c ∈ before.getLast?, ∀ d ∈ behind.head?, isWordPart c = true → isWordPart d = false

theorem Parted.of_last {before behind : List Char}
    (last : ∀ c ∈ before.getLast?, isWordPart c = false) : Parted before behind := by
  intro c ends d _ part
  rw [last c ends] at part
  cases part

theorem Parted.of_head {before behind : List Char}
    (head : ∀ d ∈ behind.head?, isWordPart d = false) : Parted before behind :=
  fun _ _ d begins _ => head d begins

theorem Quote.isWordPart_char (quote : Quote) : isWordPart quote.char = false := by
  cases quote <;> rfl

theorem Punctuator.not_wordPart {mark : Punctuator} {c : Char}
    (member : c ∈ mark.spelling.toList) : isWordPart c = false := by
  have all : mark.spelling.toList.all (fun c => !isWordPart c) = true := by cases mark <;> decide
  simpa using List.all_eq_true.mp all c member

theorem comment_parted (scanned : scan fresh first rest = .ok lexeme)
    (comment : lexeme.category = .comment) :
    Parted (first :: rest.take lexeme.more) (rest.drop lexeme.more) := by
  obtain ⟨-, ⟨tail, -, covered⟩ | ⟨tail, extent, rfl, found, covered⟩⟩ :=
    scan_comment scanned comment
  · refine .of_head fun d begins => ?_
    rw [covered] at begins
    have newline := takeWhile_stops _ rest d begins
    rw [decide_eq_false_iff_not, not_not] at newline
    rw [newline]
    rfl
  · refine .of_last fun c ends => ?_
    rw [covered, List.take_succ_cons, List.getLast?_cons_cons, List.getLast?_cons,
      blockCommentExtent_ends found] at ends
    cases ends
    rfl

theorem directive_parted (rest : List Char) :
    Parted ('#' :: rest.take (directiveExtent rest)) (rest.drop (directiveExtent rest)) := by
  rcases directiveExtent_ends rest with whole | ⟨last, extent, newline, -⟩
  · rw [whole, List.drop_length]
    exact .of_head (by simp)
  · refine .of_last fun c ends => ?_
    rw [extent, take_succ_of_getElem? newline, ← List.cons_append, List.getLast?_concat] at ends
    cases ends
    rfl

/-- No lexeme ends between two characters of words. -/
theorem scan_parted (scanned : scan fresh first rest = .ok lexeme) :
    Parted (first :: rest.take lexeme.more) (rest.drop lexeme.more) := by
  have describes := (scan_fits scanned).2
  have reaches := scan_reaches scanned
  obtain ⟨category, more⟩ := lexeme
  cases category with
  | blanks =>
      refine .of_last fun c ends => isWordPart_of_blank ?_
      exact describes c (List.mem_of_getLast? ends)
  | comment => exact comment_parted scanned rfl
  | directive =>
      obtain ⟨rfl, -, rfl⟩ := describes
      exact directive_parted rest
  | number =>
      obtain ⟨-, hex, rfl⟩ := reaches
      exact .of_head fun d begins => (numberExtent_stops hex first rest d begins).1
  | quoted quote =>
      refine .of_last fun c ends => ?_
      dsimp only at reaches ends
      rw [quoted_getLast? reaches] at ends
      cases ends
      exact quote.isWordPart_char
  | word =>
      obtain ⟨-, rfl⟩ := reaches
      exact .of_head (takeWhile_stops isWordPart rest)
  | punctuator mark =>
      refine .of_last fun c ends => ?_
      have member := List.mem_of_getLast? ends
      have spelled := congrArg String.toList describes
      rw [String.toList_ofList] at spelled
      rw [spelled] at member
      exact Punctuator.not_wordPart member

/-! ## The scan of a token -/

/-- The token has been scanned at an offset, which parts no word. -/
structure Scanned (source : List Char) (token : Token) (offset : Nat) (first : Char)
    (rest : List Char) (lexeme : Lexeme) : Prop where
  here : source.drop offset = first :: rest
  parted : Parted (source.take offset) (first :: rest)
  scanned : ∃ fresh, scan fresh first rest = .ok lexeme
  kind : lexeme.category.kind? (String.ofList (first :: rest.take lexeme.more)) = some token.kind
  start : token.start = placeAt source offset
  finish : token.finish = placeAt source (offset + (lexeme.more + 1))

theorem take_add_of_drop {source text rest : List Char} {offset : Nat}
    (here : source.drop offset = text ++ rest) :
    source.take (offset + text.length) = source.take offset ++ text := by
  rw [List.take_add, here, List.take_left]

theorem Reading.prepend_token {category : Category} {text : List Char} {kind : Kind}
    (found : category.kind? (String.ofList text) = some kind) (start finish : Location)
    (reading : Reading) :
    (reading.prepend category text start finish).tokens =
      ⟨kind, start, finish⟩ :: reading.tokens := by
  unfold prepend
  dsimp only
  rw [found]

theorem Reading.mem_prepend_tokens {reading : Reading} {category : Category} {text : List Char}
    {start finish : Location} {token : Token}
    (member : token ∈ (reading.prepend category text start finish).tokens) :
    (category.kind? (String.ofList text) = some token.kind ∧ token.start = start ∧
      token.finish = finish) ∨ token ∈ reading.tokens := by
  unfold prepend at member
  dsimp only at member
  split at member
  · next kind found =>
      rcases List.mem_cons.mp member with rfl | later
      · exact .inl ⟨found, rfl, rfl⟩
      · exact .inr later
  · split at member <;> exact .inr member

theorem Reading.ofChars_scanned (source : List Char) (place : Location) (fresh : Bool)
    (text : List Char) : ∀ offset, source.drop offset = text → place = placeAt source offset →
      Parted (source.take offset) text → ∀ token ∈ (ofChars place fresh text).tokens,
        token.kind ≠ .eof → ∃ offset first rest lexeme,
          Scanned source token offset first rest lexeme := by
  fun_induction ofChars place fresh text with
  | case1 place fresh =>
      intro offset _ _ _ token member inner
      rw [List.mem_singleton.mp member] at inner
      exact absurd rfl inner
  | case2 place fresh first rest error scanned =>
      intro offset _ _ _ token member
      cases member
  | case3 place fresh first rest lexeme scanned covered next ih =>
      rintro offset here rfl parted token member inner
      have length : covered.length = lexeme.more + 1 :=
        congrArg Nat.succ (List.length_take_of_le (scan_fits scanned).1)
      have split : source.drop offset = covered ++ rest.drop lexeme.more := by
        rw [here, List.cons_append, List.take_append_drop]
      have reached : next = placeAt source (offset + covered.length) := placeAt_past split
      rcases mem_prepend_tokens member with ⟨kind, starts, finishes⟩ | later
      · refine ⟨offset, first, rest, lexeme, here, parted, ⟨fresh, scanned⟩, kind, starts, ?_⟩
        rw [finishes, reached, length]
      · refine ih (offset + covered.length) (drop_of_drop_append split) reached ?_ token later inner
        rw [take_add_of_drop split]
        intro c ends
        rw [List.getLast?_append_of_ne_nil _ (List.cons_ne_nil _ _)] at ends
        exact scan_parted scanned c ends

/-- Every token of a source but the end of the file has been scanned. -/
theorem Reading.ofSource_scanned {source : String} :
    ∀ token ∈ (ofSource source).tokens, token.kind ≠ .eof →
      ∃ offset first rest lexeme, Scanned source.toList token offset first rest lexeme :=
  ofChars_scanned source.toList .origin true source.toList 0 rfl placeAt_zero.symm
    (.of_last (by simp))

namespace Scanned

variable {source : List Char} {token : Token} {offset : Nat}

theorem covered (here : Scanned source token offset first rest lexeme) :
    source.drop offset = (first :: rest.take lexeme.more) ++ rest.drop lexeme.more := by
  rw [here.here, List.cons_append, List.take_append_drop]

theorem length (here : Scanned source token offset first rest lexeme) :
    (first :: rest.take lexeme.more).length = lexeme.more + 1 := by
  obtain ⟨_, scanned⟩ := here.scanned
  exact congrArg Nat.succ (List.length_take_of_le (scan_fits scanned).1)

/-- What has been scanned is the interval of the token. -/
theorem isToken (here : Scanned source token offset first rest lexeme) :
    IsToken source token (.ofText offset (first :: rest.take lexeme.more)) where
  within := Interval.ofText_within here.covered (List.cons_ne_nil _ _)
  start := here.start
  finish := by
    have stop := here.finish
    rwa [← here.length] at stop
  spelled := by
    obtain ⟨_, scanned⟩ := here.scanned
    rw [Interval.ofText_text here.covered]
    exact Category.kind?_spelled (scan_fits scanned).2 here.kind

end Scanned

/-! ## Newlines -/

/-- A name or a numeric constant has no newline, and a literal has none that is not escaped. -/
def Kind.Contained : Kind → Prop
  | .identifier text | .number text => '\n' ∉ text.toList
  | .character text | .string text => Escaped text.toList
  | .keyword _ | .punctuator _ | .eof => True

theorem Scanned.contained {source : List Char} {token : Token} {offset : Nat}
    (here : Scanned source token offset first rest lexeme) : token.kind.Contained := by
  obtain ⟨fresh, scanned⟩ := here.scanned
  have reaches := scan_reaches scanned
  have found := here.kind
  cases category : lexeme.category with
  | blanks | comment | directive =>
      rw [category] at found
      cases found
  | number =>
      rw [category] at found reaches
      rw [← Option.some.inj found, Kind.Contained, String.toList_ofList]
      intro newline
      cases number_admits reaches '\n' newline
  | quoted quote =>
      rw [category] at found reaches
      have escaped := quoted_escaped reaches
      rw [← String.toList_ofList (l := first :: rest.take lexeme.more)] at escaped
      cases quote <;> rw [← Option.some.inj found] <;> exact escaped
  | word =>
      rw [category] at found reaches
      rw [Category.kind?] at found
      split at found
      · rw [← Option.some.inj found]
        trivial
      · rw [← Option.some.inj found, Kind.Contained, String.toList_ofList]
        intro newline
        cases word_admits reaches '\n' newline
  | punctuator mark =>
      rw [category] at found
      rw [← Option.some.inj found]
      trivial

end SyntaxGraph.Token
