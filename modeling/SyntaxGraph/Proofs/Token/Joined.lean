import SyntaxGraph.Proofs.Token.Lines

/-!
# Texts joined by a new line

Nothing that is read of a text depends on the line where it starts: from a later line on the
same lexemes are read, with all places so many lines further down.  So two texts that a new
line joins are read one after the other: the tokens and comments of the second one follow
those of the first, lowered by the lines of the first.
-/

set_option autoImplicit false

namespace SyntaxGraph

/-! ## Further down -/

/-- The same column some lines further down. -/
def Location.lowered (place : Location) (lines : Nat) : Location :=
  ⟨place.line + lines, place.column⟩

namespace Location

theorem lowered_after (place : Location) (lines : Nat) (c : Char) :
    (place.lowered lines).after c = (place.after c).lowered lines := by
  unfold after
  split
  · exact congrArg (Location.mk · 1) (Nat.add_right_comm place.line lines 1)
  · rfl

theorem lowered_past (place : Location) (lines : Nat) (text : List Char) :
    (place.lowered lines).past text = (place.past text).lowered lines := by
  induction text generalizing place with
  | nil => rfl
  | cons c text ih => rw [past_cons, past_cons, lowered_after, ih]

theorem line_past (place : Location) (text : List Char) :
    (place.past text).line = place.line + text.count '\n' := by
  induction text generalizing place with
  | nil => rfl
  | cons c text ih =>
      rw [past_cons, ih, List.count_cons]
      unfold after
      split
      · next newline => simp [newline, Nat.add_right_comm, Nat.add_assoc]
      · next other => simp [other]

/-- The first column of the line behind a text. -/
theorem after_past_origin (text : List Char) :
    (origin.past text).after '\n' = origin.lowered (text.count '\n' + 1) := by
  have line : (origin.past text).line + 1 = 1 + (text.count '\n' + 1) := by
    rw [line_past]
    exact Nat.add_assoc 1 _ 1
  exact congrArg (Location.mk · 1) line

end Location

def Token.lowered (token : Token) (lines : Nat) : Token :=
  ⟨token.kind, token.start.lowered lines, token.finish.lowered lines⟩

def Comment.lowered (comment : Comment) (lines : Nat) : Comment :=
  ⟨comment.text, comment.start.lowered lines⟩

namespace Token

/-- The same error some lines further down. -/
def LexicalFailure.lowered (failure : LexicalFailure) (lines : Nat) : LexicalFailure :=
  ⟨failure.error, failure.place.lowered lines⟩

namespace Reading

def lowered (reading : Reading) (lines : Nat) : Reading where
  tokens := reading.tokens.map (·.lowered lines)
  comments := reading.comments.map (·.lowered lines)
  failure := reading.failure.map (·.lowered lines)

theorem prepend_lowered (reading : Reading) (lines : Nat) (category : Category)
    (text : List Char) (start finish : Location) :
    (reading.lowered lines).prepend category text (start.lowered lines) (finish.lowered lines) =
      (reading.prepend category text start finish).lowered lines := by
  unfold prepend
  dsimp only
  split
  · rfl
  · split <;> rfl

theorem ofChars_lowered (lines : Nat) (place : Location) (fresh : Bool) (text : List Char) :
    ofChars (place.lowered lines) fresh text = (ofChars place fresh text).lowered lines := by
  fun_induction ofChars place fresh text with
  | case1 place fresh =>
      rw [ofChars]
      rfl
  | case2 place fresh first rest error scanned =>
      rw [ofChars, scanned]
      rfl
  | case3 place fresh first rest lexeme scanned covered next ih =>
      rw [ofChars_of_scan _ scanned, Location.lowered_past]
      exact (congrArg (Reading.prepend _ _ _ _) ih).trans (prepend_lowered _ lines _ _ _ _)

/-! ## Joined -/

/-- A text read without a failure that does not end in a backslash, and another text behind a
new line: they are read like each text alone, with the places of the second one lowered. -/
theorem ofSource_joined {source : String} (whole : (ofSource source).failure = none)
    (bare : source.toList.getLast? ≠ some '\\') (more : String) :
    ((ofSource (source ++ "\n" ++ more)).failure = none ↔ (ofSource more).failure = none) ∧
      (∃ front : List Token, (∀ token ∈ front, token.kind ≠ .eof) ∧
        (∃ place, (ofSource source).tokens = front ++ [⟨.eof, place, place⟩]) ∧
        (ofSource (source ++ "\n" ++ more)).tokens =
          front ++ (ofSource more).tokens.map (·.lowered (source.toList.count '\n' + 1))) ∧
      (ofSource (source ++ "\n" ++ more)).comments = (ofSource source).comments ++
        (ofSource more).comments.map (·.lowered (source.toList.count '\n' + 1)) ∧
      (ofSource (source ++ "\n" ++ more)).failure =
        (ofSource more).failure.map (·.lowered (source.toList.count '\n' + 1)) := by
  have joined : ofSource (source ++ "\n" ++ more) = (ofSource source).followedBy
      ((ofSource more).lowered (source.toList.count '\n' + 1)) := by
    rw [ofSource_line whole bare, Location.after_past_origin, ofChars_lowered]
    rfl
  obtain ⟨front, inner, place, split⟩ := ofSource_ended whole
  rw [joined]
  refine ⟨Option.map_eq_none_iff, ⟨front, inner, ⟨place, split⟩, ?_⟩, rfl, rfl⟩
  rw [followedBy, split, List.dropLast_concat]
  rfl

/-- A directive with a continuation that ends with the text. -/
def directiveSource : String := "int a; // one\n  #define B \\\n 2"

/-- A directive, a wide literal, and a comment that is not closed. -/
def openedSource : String := "#undef B\nL'b' /* two */ \n /*"

theorem ofSource_joined_directiveSource :
    (ofSource directiveSource).failure = none ∧ directiveSource.toList.getLast? ≠ some '\\' ∧
      (ofSource (directiveSource ++ "\n" ++ openedSource)).tokens.map
          (fun token => (token.kind, token.start)) =
        [(.keyword .intKw, ⟨1, 1⟩), (.identifier "a", ⟨1, 5⟩), (.punctuator .semicolon, ⟨1, 6⟩),
          (.character "L'b'", ⟨5, 1⟩)] ∧
      (ofSource (directiveSource ++ "\n" ++ openedSource)).comments =
        [⟨"// one", ⟨1, 8⟩⟩, ⟨"/* two */", ⟨5, 6⟩⟩] ∧
      (ofSource (directiveSource ++ "\n" ++ openedSource)).failure =
        some ⟨.unterminatedComment, ⟨6, 2⟩⟩ := by
  have whole : (ofSource directiveSource).failure = none := by decide +kernel
  have bare : directiveSource.toList.getLast? ≠ some '\\' := by decide +kernel
  obtain ⟨-, ⟨front, -, ⟨place, split⟩, tokens⟩, comments, failure⟩ :=
    ofSource_joined whole bare openedSource
  have first : front = (ofSource directiveSource).tokens.dropLast := by simp [split]
  refine ⟨whole, bare, ?_, ?_, ?_⟩
  · rw [tokens, first]
    decide +kernel
  · rw [comments]
    decide +kernel
  · rw [failure]
    decide +kernel

end Reading

end Token

end SyntaxGraph
