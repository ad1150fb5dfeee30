import SyntaxGraph.Token.Reading

/-!
# The end of a token list

A reading that does not fail has one token for the end of the file, which is the last
one.
-/

set_option autoImplicit false

namespace SyntaxGraph.Token

/-- The last token of the list, and no other one, is the end of the file. -/
def Ended (tokens : List Token) : Prop :=
  ∃ front : List Token, (∀ token ∈ front, token.kind ≠ .eof) ∧
    ∃ place : Location, tokens = front ++ [⟨.eof, place, place⟩]

theorem Category.kind?_ne_eof {category : Category} {text : String} {kind : Kind}
    (found : category.kind? text = some kind) : kind ≠ .eof := by
  rintro rfl
  unfold kind? at found
  split at found <;> try cases found
  split at found <;> cases found

theorem Ended.length_pos {tokens : List Token} (ended : Ended tokens) : 0 < tokens.length := by
  obtain ⟨front, -, place, rfl⟩ := ended
  simp

theorem Ended.cons {tokens : List Token} (ended : Ended tokens) {token : Token}
    (inner : token.kind ≠ .eof) : Ended (token :: tokens) := by
  obtain ⟨front, noEnd, place, rfl⟩ := ended
  exact ⟨token :: front, List.forall_mem_cons.mpr ⟨inner, noEnd⟩, place, rfl⟩

theorem Reading.prepend_failure (category : Category) (text : List Char)
    (start finish : Location) (reading : Reading) :
    (reading.prepend category text start finish).failure = reading.failure := by
  unfold prepend
  dsimp only
  split
  · rfl
  · split <;> rfl

theorem Reading.prepend_ended {reading : Reading} (ended : Ended reading.tokens)
    (category : Category) (text : List Char) (start finish : Location) :
    Ended (reading.prepend category text start finish).tokens := by
  unfold prepend
  dsimp only
  split
  · next kind found => exact ended.cons (Category.kind?_ne_eof found)
  · split <;> exact ended

theorem Reading.ofChars_ended (place : Location) (fresh : Bool) (text : List Char) :
    (ofChars place fresh text).failure = none → Ended (ofChars place fresh text).tokens := by
  fun_induction ofChars place fresh text with
  | case1 place fresh => exact fun _ => ⟨[], by simp, place, rfl⟩
  | case2 place fresh first rest error scanned =>
      intro whole
      cases whole
  | case3 place fresh first rest lexeme scanned covered next ih =>
      intro whole
      rw [prepend_failure] at whole
      exact prepend_ended (ih whole) _ _ _ _

/-- A source text without lexical errors ends where its tokens do. -/
theorem Reading.ofSource_ended {source : String} (whole : (ofSource source).failure = none) :
    Ended (ofSource source).tokens :=
  ofChars_ended .origin true source.toList whole

end SyntaxGraph.Token
