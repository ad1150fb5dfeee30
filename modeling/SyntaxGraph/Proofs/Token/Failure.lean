import SyntaxGraph.Proofs.Token.Front
import SyntaxGraph.Proofs.Token.Layout

/-!
# Where the reading of a source fails

A lexeme does not change when the text behind it is cut off.  So a source whose reading
fails is read without a failure up to the place that the failure names: what stands in front
of this place gives the tokens and the comments that have been read, and the end of the file
there.  What stands behind it begins with what the failure names: a comment or a literal
that is left open, or a character that begins no token.
-/

set_option autoImplicit false

namespace SyntaxGraph.Token

variable {fresh : Bool} {first : Char} {rest front : List Char} {lexeme : Lexeme}

/-! ## Texts cut off behind a lexeme -/

theorem directiveExtent_front (starts : front <+: rest)
    (inside : directiveExtent rest ≤ front.length) :
    directiveExtent front = directiveExtent rest := by
  fun_induction directiveExtent rest generalizing front with
  | case1 =>
      rw [List.prefix_nil.mp starts]
      rfl
  | case2 rest ih =>
      rcases front with _ | ⟨c, _ | ⟨d, front⟩⟩
      · cases inside
      · exact absurd inside (by simp)
      · obtain ⟨rfl, further⟩ := List.cons_prefix_cons.mp starts
        obtain ⟨rfl, begins⟩ := List.cons_prefix_cons.mp further
        rw [directiveExtent, ih begins (Nat.le_of_add_le_add_right inside)]
  | case3 rest =>
      cases front with
      | nil => cases inside
      | cons c front =>
          obtain ⟨rfl, -⟩ := List.cons_prefix_cons.mp starts
          rfl
  | case4 c rest single other ih =>
      cases front with
      | nil => cases inside
      | cons d front =>
          obtain ⟨rfl, begins⟩ := List.cons_prefix_cons.mp starts
          rw [directiveExtent, if_neg other, ih begins (Nat.le_of_succ_le_succ inside)]
          intro tail backslash newline
          obtain ⟨more, rfl⟩ := begins
          exact single (tail ++ more) backslash (by rw [newline]; rfl)

theorem takeWhile_cut {admits : Char → Bool} (starts : front <+: rest)
    (inside : (rest.takeWhile admits).length ≤ front.length) :
    front.takeWhile admits = rest.takeWhile admits := by
  have stops : ∀ c ∈ ([] : List Char).head?, admits c = false := by simp
  rw [← takeWhile_front starts inside stops, List.append_nil]

theorem scan_comment_cut (scanned : scan fresh first rest = .ok lexeme)
    (comment : lexeme.category = .comment) (starts : front <+: rest)
    (inside : lexeme.more ≤ front.length) : scan fresh first front = .ok lexeme := by
  obtain ⟨category, more⟩ := lexeme
  obtain rfl : category = .comment := comment
  obtain ⟨rfl, ⟨tail, rfl, covered⟩ | ⟨tail, extent, rfl, found, covered⟩⟩ :=
    scan_comment scanned rfl
  · dsimp only at covered inside
    rw [covered] at inside
    cases front with
    | nil => cases inside
    | cons c front =>
        obtain ⟨rfl, -⟩ := List.cons_prefix_cons.mp starts
        rw [covered, ← takeWhile_cut starts inside]
        rfl
  · dsimp only at covered inside
    rw [covered] at inside
    cases front with
    | nil => cases inside
    | cons c front =>
        obtain ⟨rfl, begins⟩ := List.cons_prefix_cons.mp starts
        have same := blockCommentExtent_front found begins (Nat.le_of_succ_le_succ inside) []
        rw [List.append_nil] at same
        simp [scan, isBlank, same, covered]

/-- A lexeme does not change when the text behind it is cut off. -/
theorem scan_cut (scanned : scan fresh first rest = .ok lexeme) (starts : front <+: rest)
    (inside : lexeme.more ≤ front.length) : scan fresh first front = .ok lexeme := by
  cases token : lexeme.category.kind? "" with
  | some kind =>
      have kept := scan_front scanned token starts inside Seam.nil fresh
      rwa [List.append_nil] at kept
  | none =>
      rcases Category.kind?_eq_none token with blanks | comment | directive
      · have blank : isBlank first = true := by
          have describes := (scan_fits scanned).2
          rw [blanks] at describes
          exact describes first List.mem_cons_self
        rw [Reading.scan_blank blank] at scanned ⊢
        cases scanned
        rw [takeWhile_cut starts inside]
      · exact scan_comment_cut scanned comment starts inside
      · have describes := (scan_fits scanned).2
        obtain ⟨category, more⟩ := lexeme
        obtain rfl : category = .directive := directive
        obtain ⟨rfl, rfl, rfl⟩ := describes
        rw [← directiveExtent_front starts inside]
        rfl

/-! ## What cannot be scanned -/

/-- The text begins with what the error names, and this is not a lexeme. -/
inductive LexicalError.Explains : LexicalError → List Char → Prop
  | character (c : Char) (rest : List Char) (other : Punctuator.longest? (c :: rest) = none) :
      Explains (.unexpectedCharacter c) (c :: rest)
  | comment (rest : List Char) (opened : blockCommentExtent rest = none) :
      Explains .unterminatedComment ('/' :: '*' :: rest)
  | literal (quote : Quote) (rest : List Char) (opened : quotedExtent quote rest = none) :
      Explains quote.unterminated (quote.char :: rest)
  | wide (quote : Quote) (rest : List Char) (opened : quotedExtent quote rest = none) :
      Explains quote.unterminated ('L' :: quote.char :: rest)

theorem scanQuoted_error {quote : Quote} {opening : Nat} {error : LexicalError}
    (failed : scanQuoted quote opening rest = .error error) :
    error = quote.unterminated ∧ quotedExtent quote rest = none := by
  unfold scanQuoted at failed
  split at failed
  · cases failed
  · next opened =>
      cases failed
      exact ⟨rfl, opened⟩

theorem scanWord_error {error : LexicalError} (failed : scanWord first rest = .error error) :
    error.Explains (first :: rest) := by
  unfold scanWord at failed
  dsimp only at failed
  split at failed
  · next c tail =>
      split at failed
      · next quote found =>
          obtain ⟨rfl, opened⟩ := scanQuoted_error failed
          rw [← Quote.char_of_ofChar? found]
          exact .wide quote tail opened
      · cases failed
  · cases failed

theorem scan_error {error : LexicalError} (failed : scan fresh first rest = .error error) :
    error.Explains (first :: rest) := by
  unfold scan at failed
  split at failed
  · cases failed
  split at failed
  · cases failed
  split at failed
  · next opens =>
      obtain ⟨slash, second⟩ := Bool.and_eq_true_iff.mp opens
      obtain ⟨tail, rfl⟩ := List.head?_eq_some_iff.mp (of_decide_eq_true second)
      obtain rfl := of_decide_eq_true slash
      split at failed
      · cases failed
      · next opened =>
          cases failed
          exact .comment tail opened
  split at failed
  · cases failed
  split at failed
  · cases failed
  split at failed
  · exact scanWord_error failed
  split at failed
  · next quote found =>
      obtain ⟨rfl, opened⟩ := scanQuoted_error failed
      rw [← Quote.char_of_ofChar? found]
      exact .literal quote rest opened
  · unfold scanPunctuator at failed
    split at failed
    · cases failed
    · next other =>
        cases failed
        exact .character first rest other

/-- No error is about the end of the file. -/
theorem LexicalError.message_ne (error : LexicalError) :
    error.message ≠ "Unexpected end of file" := by
  cases error with
  | unexpectedCharacter c =>
      have begins :
          "Unexpected character: '".toList <+: (unexpectedCharacter c).message.toList := by
        change _ <+: ("Unexpected character: '" ++ toString c ++ "'").toList
        rw [String.toList_append, String.toList_append, List.append_assoc]
        exact List.prefix_append _ _
      intro same
      rw [same] at begins
      exact absurd begins (by decide)
  | _ => decide

theorem LexicalError.Explains.ne_nil {error : LexicalError} {text : List Char}
    (explains : error.Explains text) : text ≠ [] := by
  cases explains <;> exact List.cons_ne_nil _ _

/-! ## Readings that fail -/

namespace Reading

/-- What a reading gives, followed by the end of the file at `place`. -/
def endedAt (reading : Reading) (place : Location) : Reading where
  tokens := reading.tokens ++ [⟨.eof, place, place⟩]
  comments := reading.comments
  failure := none

theorem prepend_endedAt (reading : Reading) (place : Location) (category : Category)
    (text : List Char) (start finish : Location) :
    (reading.endedAt place).prepend category text start finish =
      (reading.prepend category text start finish).endedAt place := by
  unfold prepend
  dsimp only
  split
  · rfl
  · split <;> rfl

/-- A text whose reading fails is read without a failure up to what cannot be scanned. -/
theorem ofChars_failure (place : Location) (fresh : Bool) (text : List Char)
    {failure : LexicalFailure} (failed : (ofChars place fresh text).failure = some failure) :
    ∃ front rest, text = front ++ rest ∧ failure.place = place.past front ∧
      ofChars place fresh front = (ofChars place fresh text).endedAt failure.place ∧
      failure.error.Explains rest := by
  fun_induction ofChars place fresh text with
  | case1 place fresh => cases failed
  | case2 place fresh first rest error scanned =>
      cases failed
      refine ⟨[], first :: rest, rfl, rfl, ?_, scan_error scanned⟩
      rw [ofChars]
      rfl
  | case3 place fresh first rest lexeme scanned covered next ih =>
      rw [prepend_failure] at failed
      obtain ⟨front, behind, split, there, kept, explains⟩ := ih failed
      have length : (rest.take lexeme.more).length = lexeme.more :=
        List.length_take_of_le (scan_fits scanned).1
      have whole : rest = rest.take lexeme.more ++ front ++ behind := by
        rw [List.append_assoc, ← split, List.take_append_drop]
      have cut : scan fresh first (rest.take lexeme.more ++ front) = .ok lexeme := by
        refine scan_cut scanned ⟨behind, whole.symm⟩ ?_
        rw [List.length_append, length]
        exact Nat.le_add_right _ _
      refine ⟨covered ++ front, behind, ?_, ?_, ?_, explains⟩
      · rw [List.append_assoc, ← split, List.cons_append, List.take_append_drop]
      · rw [Location.past_append]
        exact there
      · rw [List.cons_append, ofChars_of_scan place cut, List.take_left' length,
          List.drop_left' length, ← prepend_endedAt, ← kept]

/-- A source whose reading fails: the failure names the place of an offset inside the source,
what stands in front of it is read as the same tokens, the end of the file at this place and
the same comments, and what stands behind it begins with what the error names. -/
theorem ofSource_failure {source : String} {failure : LexicalFailure}
    (failed : (ofSource source).failure = some failure) :
    ∃ offset < source.toList.length, failure.place = placeAt source.toList offset ∧
      ofSource (String.ofList (source.toList.take offset)) =
        (ofSource source).endedAt failure.place ∧
      failure.error.Explains (source.toList.drop offset) ∧
      failure.error.message ≠ "Unexpected end of file" := by
  obtain ⟨front, rest, split, place, kept, explains⟩ := ofChars_failure _ _ _ failed
  have taken : source.toList.take front.length = front := by rw [split, List.take_left]
  have dropped : source.toList.drop front.length = rest := by rw [split, List.drop_left]
  refine ⟨front.length, ?_, ?_, ?_, ?_, failure.error.message_ne⟩
  · have some := List.length_pos_of_ne_nil explains.ne_nil
    rw [split, List.length_append]
    omega
  · have reached : (placeAt source.toList 0).past front =
        placeAt source.toList (0 + front.length) := placeAt_past split
    rw [place, ← Nat.zero_add front.length, ← reached]
    rfl
  · rw [taken, ofSource, String.toList_ofList, kept]
    rfl
  · rw [dropped]
    exact explains

/-- A wide literal that is left open at the end of its line, behind a comment. -/
def openLiteralSource : String := "int /* a */ b =\n  L'c\n;"

theorem ofSource_failure_openLiteralSource :
    (ofSource openLiteralSource).failure = some ⟨.unterminatedCharacter, ⟨2, 3⟩⟩ ∧
      ∃ offset < openLiteralSource.toList.length,
        placeAt openLiteralSource.toList offset = ⟨2, 3⟩ ∧
        (ofSource (String.ofList (openLiteralSource.toList.take offset))).failure = none ∧
        (ofSource (String.ofList (openLiteralSource.toList.take offset))).comments =
          [⟨"/* a */", ⟨1, 5⟩⟩] ∧
        LexicalError.unterminatedCharacter.Explains (openLiteralSource.toList.drop offset) := by
  have failed : (ofSource openLiteralSource).failure =
      some ⟨.unterminatedCharacter, ⟨2, 3⟩⟩ := by
    decide +kernel
  have comments : (ofSource openLiteralSource).comments = [⟨"/* a */", ⟨1, 5⟩⟩] := by
    decide +kernel
  obtain ⟨offset, inside, place, kept, explains, -⟩ := ofSource_failure failed
  refine ⟨failed, offset, inside, place.symm, ?_, ?_, explains⟩
  · rw [kept]
    rfl
  · rw [kept]
    exact comments

end Reading

end SyntaxGraph.Token
