import SyntaxGraph.Proofs.Token.Extent

/-!
# What the scanning of a lexeme depends on

A token is scanned from its own characters and from one sight of what stands behind them.
Whoever replaces the text behind a token by one that is empty or begins with a blank gets
the same token, and so does whoever moves it to another place of its line.  A comment is
kept in the same way when what follows is empty or a new line, and a directive when its
last line does not end in a backslash.  Blanks may be read one at a time.
-/

set_option autoImplicit false

namespace SyntaxGraph.Token

variable {fresh : Bool} {first : Char} {rest front behind : List Char} {lexeme : Lexeme}

/-- A text that is empty or begins with a blank. -/
def Seam (text : List Char) : Prop := ∀ c ∈ text.head?, isBlank c = true

theorem Seam.nil : Seam [] := by
  intro c member
  cases member

theorem Seam.cons {c : Char} (blank : isBlank c = true) (text : List Char) : Seam (c :: text) := by
  intro d member
  cases member
  exact blank

theorem isBlank_iff {c : Char} :
    isBlank c = true ↔ c = ' ' ∨ c = '\t' ∨ c = '\r' ∨ c = '\n' ∨ c = '\x0c' := by
  simp [isBlank, or_assoc]

theorem isWordPart_of_blank {c : Char} (blank : isBlank c = true) : isWordPart c = false := by
  rcases isBlank_iff.mp blank with rfl | rfl | rfl | rfl | rfl <;> rfl

/-! ## Extents -/

theorem takeWhile_front {admits : Char → Bool} (starts : front <+: rest)
    (inside : (rest.takeWhile admits).length ≤ front.length)
    (stops : ∀ c ∈ behind.head?, admits c = false) :
    (front ++ behind).takeWhile admits = rest.takeWhile admits := by
  induction front generalizing rest with
  | nil =>
      rw [List.eq_nil_of_length_eq_zero (Nat.le_zero.mp inside)]
      cases behind with
      | nil => rfl
      | cons c behind => exact List.takeWhile_cons_of_neg (by simp [stops c rfl])
  | cons c front ih =>
      obtain ⟨rest, rfl⟩ := starts
      by_cases admitted : admits c = true
      · simp only [List.cons_append, List.takeWhile_cons, admitted, if_true] at inside ⊢
        rw [ih (List.prefix_append front rest) (Nat.le_of_succ_le_succ inside)]
      · simp [admitted]

theorem numberExtent_seam {hex : Bool} {last : Char} (seam : Seam behind) :
    numberExtent hex last behind = 0 := by
  cases behind with
  | nil => rfl
  | cons c behind =>
      have blank := seam c rfl
      rw [numberExtent, if_neg]
      rcases isBlank_iff.mp blank with rfl | rfl | rfl | rfl | rfl <;>
        simp [isWordPart_of_blank blank]

theorem numberExtent_cons (hex : Bool) (last c : Char) : ∃ goesOn : Bool, ∀ text,
    numberExtent hex last (c :: text) = if goesOn then numberExtent hex c text + 1 else 0 :=
  ⟨_, fun _ => rfl⟩

theorem numberExtent_front {hex : Bool} {last : Char} (starts : front <+: rest)
    (inside : numberExtent hex last rest ≤ front.length) (seam : Seam behind) :
    numberExtent hex last (front ++ behind) = numberExtent hex last rest := by
  induction front generalizing last rest with
  | nil =>
      rw [Nat.le_zero.mp inside]
      exact numberExtent_seam seam
  | cons c front ih =>
      obtain ⟨rest, rfl⟩ := starts
      obtain ⟨goesOn, unfolds⟩ := numberExtent_cons hex last c
      rw [List.cons_append, unfolds] at inside
      rw [List.cons_append, List.cons_append, unfolds, unfolds]
      cases goesOn with
      | false => rfl
      | true =>
          have more := ih (List.prefix_append front rest) (Nat.le_of_succ_le_succ inside)
          exact congrArg Nat.succ more

theorem quotedExtent_front {quote : Quote} {extent : Nat}
    (found : quotedExtent quote rest = some extent) (starts : front <+: rest)
    (inside : extent ≤ front.length) (behind : List Char) :
    quotedExtent quote (front ++ behind) = some extent := by
  fun_induction quotedExtent quote rest generalizing extent front with
  | case1 => cases found
  | case2 escaped rest ih =>
      obtain ⟨inner, ended, rfl⟩ := Option.map_eq_some_iff.mp found
      rcases front with _ | ⟨c, _ | ⟨d, front⟩⟩
      · cases inside
      · exact absurd inside (by simp)
      · obtain ⟨same, further⟩ := List.cons_prefix_cons.mp starts
        have begins := (List.cons_prefix_cons.mp further).2
        rw [List.cons_append, List.cons_append, same, quotedExtent,
          ih ended begins (Nat.le_of_add_le_add_right inside)]
        rfl
  | case3 => cases found
  | case4 rest notEscape unbroken =>
      cases found
      cases front with
      | nil => cases inside
      | cons c front =>
          obtain ⟨same, -⟩ := List.cons_prefix_cons.mp starts
          rw [List.cons_append, same, quotedExtent, if_neg unbroken, if_pos rfl]
          intro _ _ backslash
          simp [backslash] at unbroken
  | case5 c rest notEscape unbroken other ih =>
      obtain ⟨inner, ended, rfl⟩ := Option.map_eq_some_iff.mp found
      cases front with
      | nil => cases inside
      | cons d front =>
          obtain ⟨same, begins⟩ := List.cons_prefix_cons.mp starts
          rw [List.cons_append, same, quotedExtent, if_neg unbroken, if_neg other,
            ih ended begins (Nat.le_of_succ_le_succ inside)]
          · rfl
          · intro _ _ backslash
            simp [backslash] at unbroken

theorem blockCommentExtent_pos {text : List Char} {extent : Nat}
    (found : blockCommentExtent text = some extent) : 0 < extent := by
  fun_cases blockCommentExtent text with
  | case1 => cases found
  | case2 rest =>
      cases found
      exact Nat.two_pos
  | case3 c rest =>
      rw [blockCommentExtent] at found
      · obtain ⟨inner, _, rfl⟩ := Option.map_eq_some_iff.mp found
        exact Nat.succ_pos inner
      · assumption

theorem blockCommentExtent_front {extent : Nat}
    (found : blockCommentExtent rest = some extent) (starts : front <+: rest)
    (inside : extent ≤ front.length) (behind : List Char) :
    blockCommentExtent (front ++ behind) = some extent := by
  fun_induction blockCommentExtent rest generalizing extent front with
  | case1 => cases found
  | case2 rest =>
      cases found
      rcases front with _ | ⟨c, _ | ⟨d, front⟩⟩
      · cases inside
      · exact absurd inside (by simp)
      · obtain ⟨star, further⟩ := List.cons_prefix_cons.mp starts
        obtain ⟨slash, -⟩ := List.cons_prefix_cons.mp further
        rw [star, slash]
        rfl
  | case3 c rest notEnd ih =>
      obtain ⟨inner, ended, rfl⟩ := Option.map_eq_some_iff.mp found
      have positive := blockCommentExtent_pos ended
      rcases front with _ | ⟨d, _ | ⟨e, front⟩⟩
      · cases inside
      · exact absurd inside (by simpa using positive.ne')
      · obtain ⟨same, begins⟩ := List.cons_prefix_cons.mp starts
        have goesOn := ih ended begins (Nat.le_of_succ_le_succ inside)
        rw [List.cons_append, same, blockCommentExtent, goesOn]
        · rfl
        · intro _ star slash
          obtain ⟨tail, rfl⟩ := begins
          exact notEnd (front ++ tail) star (by rw [(List.cons.inj slash).1]; rfl)

/-! ## Tokens -/

theorem Punctuator.not_blank {mark : Punctuator} {c : Char} (member : c ∈ mark.spelling.toList) :
    isBlank c = false := by
  have all : mark.spelling.toList.all (fun c => !isBlank c) = true := by cases mark <;> decide
  simpa using List.all_eq_true.mp all c member

/-- A text without blanks that begins another one ends in front of its first blank. -/
theorem prefix_front {text : List Char} (starts : text <+: front ++ behind)
    (dense : ∀ c ∈ text, isBlank c = false) (seam : Seam behind) : text <+: front := by
  rcases List.prefix_or_prefix_of_prefix starts (List.prefix_append front behind) with
    inside | ⟨tail, rfl⟩
  · exact inside
  · cases tail with
    | nil => simp
    | cons c tail =>
        obtain ⟨rest, rfl⟩ := (List.prefix_append_right_inj front).mp starts
        have blank : isBlank c = true := seam c rfl
        simp [dense c (by simp)] at blank

theorem Punctuator.longest?_front {mark : Punctuator}
    (found : longest? (first :: rest) = some mark) (starts : front <+: rest)
    (inside : mark.spelling.length ≤ front.length + 1) (seam : Seam behind) :
    longest? (first :: (front ++ behind)) = some mark := by
  have whole : first :: front <+: first :: rest := List.cons_prefix_cons.mpr ⟨rfl, starts⟩
  obtain ⟨begins, before, after, listed, longer⟩ := List.find?_eq_some_iff_append.mp found
  refine List.find?_eq_some_iff_append.mpr ⟨?_, before, after, listed, fun other member => ?_⟩
  · have short : mark.spelling.toList <+: first :: front :=
      List.prefix_of_prefix_length_le (List.isPrefixOf_iff_prefix.mp begins) whole
        (by rwa [String.length_toList])
    exact List.isPrefixOf_iff_prefix.mpr (short.trans (List.prefix_append _ behind))
  · have absent := longer other member
    simp only [Bool.not_eq_true', Bool.eq_false_iff, ne_eq, List.isPrefixOf_iff_prefix]
      at absent ⊢
    intro present
    have short : other.spelling.toList <+: first :: front :=
      prefix_front present (fun c => Punctuator.not_blank) seam
    exact absent (short.trans whole)

theorem Quote.ofChar?_of_blank {c : Char} (blank : isBlank c = true) : ofChar? c = none := by
  rcases isBlank_iff.mp blank with rfl | rfl | rfl | rfl | rfl <;> rfl

theorem Quote.char_of_ofChar? {c : Char} {quote : Quote} (found : ofChar? c = some quote) :
    quote.char = c := by
  unfold ofChar? at found
  split at found
  · next double =>
      cases found
      exact double.symm
  split at found
  · next single =>
      cases found
      exact single.symm
  · cases found

theorem scanQuoted_front {quote : Quote} {opening : Nat}
    (scanned : scanQuoted quote opening rest = .ok lexeme) (starts : front <+: rest)
    (inside : lexeme.more ≤ opening + front.length) (behind : List Char) :
    scanQuoted quote opening (front ++ behind) = .ok lexeme := by
  unfold scanQuoted at scanned ⊢
  split at scanned
  · next extent found =>
      cases scanned
      rw [quotedExtent_front found starts (Nat.le_of_add_le_add_left inside) behind]
  · cases scanned

theorem scanWord_word (plain : first = 'L' → ∀ c ∈ rest.head?, Quote.ofChar? c = none) :
    scanWord first rest = .ok ⟨.word, (rest.takeWhile isWordPart).length⟩ := by
  unfold scanWord
  dsimp only
  split
  · next c tail => rw [plain rfl c rfl]
  · rfl

theorem scanWord_front (scanned : scanWord first rest = .ok lexeme) (starts : front <+: rest)
    (inside : lexeme.more ≤ front.length) (seam : Seam behind) :
    scanWord first (front ++ behind) = .ok lexeme := by
  by_cases plain : first = 'L' → ∀ c ∈ rest.head?, Quote.ofChar? c = none
  · rw [scanWord_word plain] at scanned
    cases scanned
    have stops : ∀ c ∈ behind.head?, isWordPart c = false :=
      fun c member => isWordPart_of_blank (seam c member)
    rw [scanWord_word, takeWhile_front starts inside stops]
    intro wide c member
    cases front with
    | nil => exact Quote.ofChar?_of_blank (seam c member)
    | cons d front =>
        obtain ⟨rest, rfl⟩ := starts
        exact plain wide c member
  · obtain ⟨rfl, c, member, quoted⟩ : first = 'L' ∧ ∃ c ∈ rest.head?, Quote.ofChar? c ≠ none := by
      simpa only [Classical.not_imp, not_forall, exists_prop] using plain
    obtain ⟨quote, found⟩ := Option.ne_none_iff_exists'.mp quoted
    obtain ⟨tail, rfl⟩ := List.head?_eq_some_iff.mp member
    have literal (behind : List Char) :
        scanWord 'L' (c :: behind) = scanQuoted quote 1 behind := by
      simp only [scanWord, found]
    rw [literal] at scanned
    cases front with
    | nil =>
        -- The opening quote belongs to the literal.
        unfold scanQuoted at scanned
        split at scanned
        · cases scanned
          exact absurd inside (by simp)
        · cases scanned
    | cons d front =>
        obtain ⟨same, begins⟩ := List.cons_prefix_cons.mp starts
        rw [List.cons_append, same, literal]
        exact scanQuoted_front scanned begins (by rwa [Nat.add_comm]) behind

theorem scanNumber_front (starts : front <+: rest)
    (inside : (scanNumber first rest).more ≤ front.length) (seam : Seam behind) :
    scanNumber first (front ++ behind) = scanNumber first rest := by
  cases front with
  | nil =>
      have none (hex : Bool) : numberExtent hex first behind = 0 := numberExtent_seam seam
      have more : (scanNumber first rest).more = 0 := Nat.le_zero.mp inside
      change Lexeme.mk .number _ = ⟨.number, _⟩
      rw [List.nil_append, none, ← more]
      rfl
  | cons c front =>
      obtain ⟨rest, rfl⟩ := starts
      exact congrArg (Lexeme.mk .number)
        (numberExtent_front (List.prefix_append (c :: front) rest) inside seam)

theorem scanPunctuator_front (scanned : scanPunctuator first rest = .ok lexeme)
    (starts : front <+: rest) (inside : lexeme.more ≤ front.length) (seam : Seam behind) :
    scanPunctuator first (front ++ behind) = .ok lexeme := by
  unfold scanPunctuator at scanned ⊢
  split at scanned
  · next mark found =>
      cases scanned
      rw [Punctuator.longest?_front found starts (Nat.le_add_of_sub_le inside) seam]
  · cases scanned

theorem head?_front {c : Char} (starts : front <+: rest) (seam : Seam behind)
    (dense : isBlank c = false) (found : (front ++ behind).head? = some c) :
    rest.head? = some c := by
  cases front with
  | cons d front =>
      obtain ⟨rest, rfl⟩ := starts
      exact found
  | nil =>
      have blank := seam c found
      simp [dense] at blank

theorem Punctuator.not_sign (mark : Punctuator) : mark.spelling.toList.head? ≠ some '#' := by
  cases mark <;> decide

/-- No token begins with a number sign. -/
theorem scan_not_sign {text : String} {kind : Kind} (scanned : scan fresh '#' rest = .ok lexeme)
    (token : lexeme.category.kind? text = some kind) : False := by
  cases fresh with
  | true =>
      cases scanned
      cases token
  | false =>
      change scanPunctuator '#' rest = .ok lexeme at scanned
      unfold scanPunctuator at scanned
      split at scanned
      · next mark found =>
          have positive := mark.spelling_length_pos
          have sign := mark.not_sign
          have begins := Punctuator.longest?_prefix found
          rw [← String.length_toList] at positive
          cases spelled : mark.spelling.toList with
          | nil => simp [spelled] at positive
          | cons c tail =>
              rw [spelled] at begins sign
              exact sign (congrArg some (List.cons_prefix_cons.mp begins).1)
      · cases scanned

theorem isWordPart_of_isDigit {c : Char} (digit : c.isDigit = true) : isWordPart c = true := by
  simp [isWordPart, Char.isAlphanum, digit]

/-- The digit behind a leading dot belongs to the constant. -/
theorem number_front (starts : front <+: rest)
    (inside : (scanNumber first rest).more ≤ front.length)
    (number : (first.isDigit || (first = '.' && rest.head?.any Char.isDigit)) = true) :
    (first.isDigit || (first = '.' && (front ++ behind).head?.any Char.isDigit)) = true := by
  cases front with
  | cons c front =>
      obtain ⟨rest, rfl⟩ := starts
      exact number
  | nil =>
      rcases Bool.or_eq_true_iff.mp number with digit | dotted
      · rw [digit, Bool.true_or]
      · obtain ⟨-, digit⟩ := Bool.and_eq_true_iff.mp dotted
        cases rest with
        | nil => cases digit
        | cons c rest =>
            have part : isWordPart c = true := isWordPart_of_isDigit digit
            simp [scanNumber, numberExtent, part] at inside

/-- A token is kept when the text behind it is replaced by one that is empty or begins with
a blank, wherever it stands on its line. -/
theorem scan_front {text : String} {kind : Kind} (scanned : scan fresh first rest = .ok lexeme)
    (token : lexeme.category.kind? text = some kind) (starts : front <+: rest)
    (inside : lexeme.more ≤ front.length) (seam : Seam behind) (fresh' : Bool) :
    scan fresh' first (front ++ behind) = .ok lexeme := by
  have sign : first ≠ '#' := fun equal => scan_not_sign (equal ▸ scanned) token
  have second {c : Char} (dense : isBlank c = false) (found : (front ++ behind).head? = some c) :
      rest.head? = some c := head?_front starts seam dense found
  unfold scan at scanned
  split at scanned
  · cases scanned
    cases token
  next dense =>
  split at scanned
  · cases scanned
    cases token
  next noLine =>
  split at scanned
  · split at scanned
    · cases scanned
      cases token
    · cases scanned
  next noBlock =>
  have noLine' : ¬ (first = '/' && (front ++ behind).head? = some '/') = true := by
    simp only [Bool.and_eq_true, decide_eq_true_eq] at noLine ⊢
    exact fun opens => noLine ⟨opens.1, second rfl opens.2⟩
  have noBlock' : ¬ (first = '/' && (front ++ behind).head? = some '*') = true := by
    simp only [Bool.and_eq_true, decide_eq_true_eq] at noBlock ⊢
    exact fun opens => noBlock ⟨opens.1, second rfl opens.2⟩
  rw [if_neg (by simp [sign])] at scanned
  rw [scan, if_neg dense, if_neg noLine', if_neg noBlock', if_neg (by simp [sign])]
  split at scanned
  · next number =>
      cases scanned
      rw [if_pos (number_front starts inside number), scanNumber_front starts inside seam]
  next noNumber =>
  have noNumber' :
      ¬ (first.isDigit || (first = '.' && (front ++ behind).head?.any Char.isDigit)) = true := by
    simp only [Bool.or_eq_true, Bool.and_eq_true, decide_eq_true_eq, Option.any_eq_true]
      at noNumber ⊢
    rintro (digit | ⟨dot, c, found, digit⟩)
    · exact noNumber (.inl digit)
    · refine noNumber (.inr ⟨dot, c, second ?_ found, digit⟩)
      rw [Bool.eq_false_iff]
      intro blank
      exact absurd (isWordPart_of_isDigit digit) (by simp [isWordPart_of_blank blank])
  rw [if_neg noNumber']
  split at scanned
  · next letter =>
      rw [if_pos letter]
      exact scanWord_front scanned starts inside seam
  next noLetter =>
  rw [if_neg noLetter]
  split at scanned
  · exact scanQuoted_front scanned starts (by rwa [Nat.zero_add]) behind
  · exact scanPunctuator_front scanned starts inside seam

/-! ## Comments and directives -/

/-- A comment goes on to the end of its line or up to its closing mark. -/
theorem scan_comment (scanned : scan fresh first rest = .ok lexeme)
    (comment : lexeme.category = .comment) :
    first = '/' ∧
      ((∃ tail, rest = '/' :: tail ∧ lexeme.more = (rest.takeWhile (· ≠ '\n')).length) ∨
        ∃ tail extent, rest = '*' :: tail ∧ blockCommentExtent tail = some extent ∧
          lexeme.more = extent + 1) := by
  unfold scan at scanned
  split at scanned
  · cases scanned
    cases comment
  split at scanned
  · next opens =>
      cases scanned
      obtain ⟨slash, second⟩ := Bool.and_eq_true_iff.mp opens
      obtain ⟨tail, rfl⟩ := List.head?_eq_some_iff.mp (of_decide_eq_true second)
      exact ⟨of_decide_eq_true slash, .inl ⟨tail, rfl, rfl⟩⟩
  split at scanned
  · next opens =>
      obtain ⟨slash, second⟩ := Bool.and_eq_true_iff.mp opens
      obtain ⟨tail, rfl⟩ := List.head?_eq_some_iff.mp (of_decide_eq_true second)
      split at scanned
      · next extent found =>
          cases scanned
          exact ⟨of_decide_eq_true slash, .inr ⟨tail, extent, rfl, found, rfl⟩⟩
      · cases scanned
  split at scanned
  · cases scanned
    cases comment
  split at scanned
  · cases scanned
    cases comment
  split at scanned
  · unfold scanWord scanQuoted at scanned
    dsimp only at scanned
    repeat' split at scanned
    all_goals cases scanned
    all_goals cases comment
  unfold scanPunctuator scanQuoted at scanned
  repeat' split at scanned
  all_goals cases scanned
  all_goals cases comment

/-- A comment is kept when a new line is put behind the text. -/
theorem scan_comment_line (scanned : scan fresh first rest = .ok lexeme)
    (comment : lexeme.category = .comment) (fresh' : Bool) (behind : List Char) :
    scan fresh' first (rest ++ '\n' :: behind) = .ok lexeme := by
  obtain ⟨category, more⟩ := lexeme
  obtain rfl : category = .comment := comment
  obtain ⟨rfl, ⟨tail, rfl, covered⟩ | ⟨tail, extent, rfl, found, covered⟩⟩ :=
    scan_comment scanned rfl
  · dsimp only at covered
    have stops : ∀ c ∈ ('\n' :: behind).head?, decide (c ≠ '\n') = false := by simp
    rw [covered, ← takeWhile_front (List.prefix_refl _) (takeWhile_length_le _ _) stops]
    rfl
  · have same := blockCommentExtent_front found (List.prefix_refl tail)
      (blockCommentExtent_le found) ('\n' :: behind)
    dsimp only at covered
    simp [scan, isBlank, same, covered]

theorem getLast?_tail {c : Char} {text : List Char} (whole : (c :: text).getLast? ≠ some '\\') :
    text.getLast? ≠ some '\\' := by
  cases text with
  | nil => simp
  | cons d text => rwa [List.getLast?_cons_cons] at whole

/-- A directive that runs to the end of the text takes a new line behind it with it, unless a
backslash stands before it. -/
theorem directiveExtent_line {text : List Char} (whole : text.getLast? ≠ some '\\')
    (behind : List Char) :
    directiveExtent (text ++ '\n' :: behind) = directiveExtent text ∨
      directiveExtent text = text.length ∧
        directiveExtent (text ++ '\n' :: behind) = text.length + 1 := by
  fun_induction directiveExtent text with
  | case1 => exact .inr ⟨rfl, rfl⟩
  | case2 rest ih =>
      rw [List.cons_append, List.cons_append, directiveExtent]
      rcases ih (getLast?_tail (getLast?_tail whole)) with kept | ⟨all, more⟩
      · exact .inl (by rw [kept])
      · exact .inr ⟨by rw [all]; rfl, by rw [more]; rfl⟩
  | case3 rest => exact .inl rfl
  | case4 c rest single other ih =>
      have unfolds : directiveExtent (c :: (rest ++ '\n' :: behind)) =
          directiveExtent (rest ++ '\n' :: behind) + 1 := by
        rw [directiveExtent, if_neg other]
        intro tail backslash newline
        cases rest with
        | nil => exact whole (by rw [backslash]; rfl)
        | cons d rest => exact single rest backslash (by rw [(List.cons.inj newline).1])
      rw [List.cons_append, unfolds]
      rcases ih (getLast?_tail whole) with kept | ⟨all, more⟩
      · exact .inl (by rw [kept])
      · exact .inr ⟨by rw [all]; rfl, by rw [more]; rfl⟩

/-! ## Blanks -/

namespace Reading

theorem ofChars_of_scan (place : Location) (scanned : scan fresh first rest = .ok lexeme) :
    ofChars place fresh (first :: rest) =
      (ofChars (place.past (first :: rest.take lexeme.more))
        (freshAfter fresh (first :: rest.take lexeme.more)) (rest.drop lexeme.more)).prepend
        lexeme.category (first :: rest.take lexeme.more) place
        (place.past (first :: rest.take lexeme.more)) := by
  rw [ofChars, scanned]

theorem scan_blank (blank : isBlank first = true) :
    scan fresh first rest = .ok ⟨.blanks, (rest.takeWhile isBlank).length⟩ :=
  if_pos blank

/-- Blanks may be read one at a time. -/
theorem ofChars_blank {place : Location} {c : Char} (blank : isBlank c = true)
    (text : List Char) :
    ofChars place fresh (c :: text) = ofChars (place.after c) (c = '\n' || fresh) text := by
  rw [ofChars_of_scan place (scan_blank blank)]
  have start : freshAfter fresh [c] = (c = '\n' || fresh) := by simp [freshAfter, blank]
  cases text with
  | nil => exact congrArg (ofChars (place.after c) · []) start
  | cons d text =>
      by_cases next : isBlank d = true
      · rw [ofChars_of_scan (place.after c) (scan_blank next), ← start]
        simp only [List.takeWhile_cons, next, if_true, List.length_cons]
        rfl
      · rw [← start]
        simp only [List.takeWhile_cons, next]
        rfl

end Reading

end SyntaxGraph.Token
