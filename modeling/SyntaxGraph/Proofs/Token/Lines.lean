import SyntaxGraph.Proofs.Token.Front
import SyntaxGraph.Proofs.Token.Layout

/-!
# Texts read line by line

When a text is read without a failure and does not end in a backslash, a new line and a
further text behind it are read as if the text had not been there: its tokens and comments
come first, without the end of the file, and then come those of the further text, read from
the start of the next line.
-/

set_option autoImplicit false

namespace SyntaxGraph.Token.Reading

/-- One reading and then another one, in place of the end of the file of the first. -/
def followedBy (first second : Reading) : Reading where
  tokens := first.tokens.dropLast ++ second.tokens
  comments := first.comments ++ second.comments
  failure := second.failure

theorem finished_followedBy (place : Location) (second : Reading) :
    (finished place).followedBy second = second := rfl

theorem prepend_followedBy {first : Reading} (ended : Ended first.tokens) (category : Category)
    (text : List Char) (start finish : Location) (second : Reading) :
    (first.prepend category text start finish).followedBy second =
      (first.followedBy second).prepend category text start finish := by
  obtain ⟨front, -, place, tokens⟩ := ended
  have some : first.tokens ≠ [] := by simp [tokens]
  unfold prepend
  dsimp only
  split
  · simp [followedBy, List.dropLast_cons_of_ne_nil some]
  · split <;> rfl

theorem getLast?_drop {text : List Char} (bare : text.getLast? ≠ some '\\') (count : Nat) :
    (text.drop count).getLast? ≠ some '\\' := by
  rw [List.getLast?_drop]
  split
  · simp
  · exact bare

/-- A lexeme that a new line behind the text does not change. -/
theorem ofChars_line_step {place : Location} {fresh : Bool} {first : Char} {rest : List Char}
    {lexeme : Lexeme} {more : List Char}
    (scanned : scan fresh first rest = .ok lexeme)
    (kept : scan fresh first (rest ++ '\n' :: more) = .ok lexeme)
    (whole : (ofChars place fresh (first :: rest)).failure = none)
    (later : ∀ place fresh, (ofChars place fresh (rest.drop lexeme.more)).failure = none →
      ofChars place fresh (rest.drop lexeme.more ++ '\n' :: more) =
        (ofChars place fresh (rest.drop lexeme.more)).followedBy
          (ofChars ((place.past (rest.drop lexeme.more)).after '\n') true more)) :
    ofChars place fresh (first :: rest ++ '\n' :: more) =
      (ofChars place fresh (first :: rest)).followedBy
        (ofChars ((place.past (first :: rest)).after '\n') true more) := by
  have inside := (scan_fits scanned).1
  have split : place.past (first :: rest) =
      (place.past (first :: rest.take lexeme.more)).past (rest.drop lexeme.more) := by
    rw [← Location.past_append, List.cons_append, List.take_append_drop]
  rw [ofChars_of_scan place scanned, prepend_failure] at whole
  rw [List.cons_append, ofChars_of_scan place kept, ofChars_of_scan place scanned,
    List.take_append_of_le_length inside, List.drop_append_of_le_length inside,
    prepend_followedBy (ofChars_ended _ _ _ whole), split, later _ _ whole]

/-- The new line behind a directive that runs to the end of the text belongs to it. -/
theorem ofChars_line_directive {place : Location} {rest more : List Char}
    (open_end : directiveExtent rest = rest.length)
    (taken : directiveExtent (rest ++ '\n' :: more) = rest.length + 1) :
    ofChars place true ('#' :: rest ++ '\n' :: more) =
      (ofChars place true ('#' :: rest)).followedBy
        (ofChars ((place.past ('#' :: rest)).after '\n') true more) := by
  have scanned (text : List Char) : scan true '#' text = .ok ⟨.directive, directiveExtent text⟩ :=
    rfl
  have reach : rest ++ '\n' :: more = (rest ++ ['\n']) ++ more := by simp
  have length : rest.length + 1 = (rest ++ ['\n']).length := by simp
  have next : place.past ('#' :: (rest ++ ['\n'])) = (place.past ('#' :: rest)).after '\n' := by
    rw [← List.cons_append, Location.past_append]
    rfl
  have start : freshAfter true ('#' :: (rest ++ ['\n'])) = true := by
    simp [freshAfter]
  rw [List.cons_append, ofChars_of_scan place (scanned _), ofChars_of_scan place (scanned _)]
  dsimp only
  rw [open_end, taken, length, reach, List.take_left, List.drop_left, next, start,
    List.drop_length, List.take_length, ofChars]
  rfl

/-- A text read without a failure, a new line, and whatever follows. -/
theorem ofChars_line (more text : List Char) (place : Location) (fresh : Bool)
    (whole : (ofChars place fresh text).failure = none) (bare : text.getLast? ≠ some '\\') :
    ofChars place fresh (text ++ '\n' :: more) =
      (ofChars place fresh text).followedBy
        (ofChars ((place.past text).after '\n') true more) := by
  induction size : text.length using Nat.strong_induction_on generalizing text place fresh with
  | _ size ih =>
  cases text with
  | nil =>
      have empty : ofChars place fresh [] = finished place := by rw [ofChars]
      rw [List.nil_append, ofChars_blank rfl, empty, finished_followedBy]
      rfl
  | cons first rest =>
      have bare' := getLast?_tail bare
      have later (count : Nat) (place : Location) (fresh : Bool)
          (whole : (ofChars place fresh (rest.drop count)).failure = none) :=
        ih (rest.drop count).length (by rw [← size, List.length_drop, List.length_cons]; omega)
          (rest.drop count) place fresh whole (getLast?_drop bare' count) rfl
      by_cases blank : isBlank first = true
      · rw [ofChars_blank blank] at whole
        rw [List.cons_append, ofChars_blank blank, ofChars_blank blank]
        exact later 0 _ _ whole
      cases scanned : scan fresh first rest with
      | error error =>
          rw [ofChars, scanned] at whole
          cases whole
      | ok lexeme =>
          obtain ⟨inside, describes⟩ := scan_fits scanned
          have step (kept : scan fresh first (rest ++ '\n' :: more) = .ok lexeme) :=
            ofChars_line_step scanned kept whole (later _)
          cases token : lexeme.category.kind? "" with
          | some kind =>
              have seam : Seam ('\n' :: more) := .cons (by decide) more
              exact step (scan_front scanned token (List.prefix_refl rest) inside seam fresh)
          | none =>
              obtain ⟨category, extent⟩ := lexeme
              rcases Category.kind?_eq_none token with rfl | rfl | rfl
              · exact absurd (describes first List.mem_cons_self) blank
              · exact step (scan_comment_line scanned rfl fresh more)
              · obtain ⟨rfl, rfl, rfl⟩ := describes
                rcases directiveExtent_line bare' more with kept | ⟨open_end, taken⟩
                · exact step (by rw [← kept]; rfl)
                · exact ofChars_line_directive open_end taken

/-- Of a source without lexical errors that does not end in a backslash, nothing is read in
another way when a new line and a further source follow it. -/
theorem ofSource_line {source : String} (whole : (ofSource source).failure = none)
    (bare : source.toList.getLast? ≠ some '\\') (more : String) :
    ofSource (source ++ "\n" ++ more) = (ofSource source).followedBy
      (ofChars ((Location.origin.past source.toList).after '\n') true more.toList) := by
  have text : (source ++ "\n" ++ more).toList = source.toList ++ '\n' :: more.toList := by
    simp
  rw [ofSource, text, ofChars_line more.toList source.toList .origin true whole bare]
  rfl

end SyntaxGraph.Token.Reading
