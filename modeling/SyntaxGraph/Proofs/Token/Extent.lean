import Mathlib.Data.List.TakeWhile
import SyntaxGraph.Token.Reading

/-!
# What a lexeme covers

The first lexeme of a text ends inside the text.  Its category says of the characters
that it covers as much as is needed to read them back: a run of blanks holds nothing but
blanks, a punctuator is its own spelling, and a directive is a number sign with only
blanks before it on its line, up to the first newline that no backslash precedes.
-/

set_option autoImplicit false

namespace SyntaxGraph.Token

variable {fresh : Bool} {first : Char} {rest : List Char} {lexeme : Lexeme}

/-! ## Extents -/

theorem quotedExtent_le {quote : Quote} {text : List Char} {extent : Nat}
    (found : quotedExtent quote text = some extent) : extent ≤ text.length := by
  fun_induction quotedExtent quote text generalizing extent with
  | case1 => cases found
  | case2 escaped rest ih =>
      obtain ⟨inner, ended, rfl⟩ := Option.map_eq_some_iff.mp found
      have inside := ih ended
      simp only [List.length_cons]
      omega
  | case3 c rest _ broken =>
      cases found
  | case4 rest _ unbroken =>
      cases found
      simp
  | case5 c rest _ unbroken other ih =>
      obtain ⟨inner, ended, rfl⟩ := Option.map_eq_some_iff.mp found
      have inside := ih ended
      simp only [List.length_cons]
      omega

theorem numberExtent_le (hex : Bool) (last : Char) (text : List Char) :
    numberExtent hex last text ≤ text.length := by
  fun_induction numberExtent hex last text with
  | case1 => exact Nat.le_refl _
  | case2 last c rest _ _ ih => exact Nat.succ_le_succ ih
  | case3 => exact Nat.zero_le _

theorem blockCommentExtent_le {text : List Char} {extent : Nat}
    (found : blockCommentExtent text = some extent) : extent ≤ text.length := by
  fun_induction blockCommentExtent text generalizing extent with
  | case1 => cases found
  | case2 rest =>
      cases found
      simp
  | case3 c rest _ ih =>
      obtain ⟨inner, ended, rfl⟩ := Option.map_eq_some_iff.mp found
      have inside := ih ended
      simp only [List.length_cons]
      omega

theorem directiveExtent_le (text : List Char) : directiveExtent text ≤ text.length := by
  fun_induction directiveExtent text with
  | case1 => exact Nat.le_refl _
  | case2 rest ih => simpa using ih
  | case3 => simp
  | case4 c rest _ _ ih => simpa using ih

/-- Every newline of a directive but the one that ends it has a backslash before it. -/
theorem directiveExtent_continued {text : List Char} {index : Nat}
    (inner : index + 1 < directiveExtent text) (newline : text[index]? = some '\n') :
    ∃ before, index = before + 1 ∧ text[before]? = some '\\' := by
  fun_induction directiveExtent text generalizing index with
  | case1 => cases newline
  | case2 rest ih =>
      match index with
      | 0 => cases newline
      | 1 => exact ⟨0, rfl, rfl⟩
      | index + 2 =>
          obtain ⟨before, rfl, backslash⟩ := ih (by omega) newline
          exact ⟨before + 2, rfl, backslash⟩
  | case3 => omega
  | case4 c rest _ other ih =>
      match index with
      | 0 => exact absurd (Option.some.inj newline) other
      | index + 1 =>
          obtain ⟨before, rfl, backslash⟩ := ih (by omega) newline
          exact ⟨before + 1, rfl, backslash⟩

/-- A directive goes on to the end of the text or to a newline without a backslash. -/
theorem directiveExtent_ends (text : List Char) :
    directiveExtent text = text.length ∨
      ∃ last, directiveExtent text = last + 1 ∧ text[last]? = some '\n' ∧
        ∀ before, last = before + 1 → text[before]? ≠ some '\\' := by
  fun_induction directiveExtent text with
  | case1 => exact .inl rfl
  | case2 rest ih =>
      rcases ih with whole | ⟨last, extent, newline, bare⟩
      · exact .inl (by simp [whole])
      · refine .inr ⟨last + 2, by omega, newline, fun before equal => ?_⟩
        match before with
        | 0 => omega
        | 1 => simp
        | before + 2 => exact bare before (by omega)
  | case3 rest => exact .inr ⟨0, rfl, rfl, fun before equal => by omega⟩
  | case4 c rest single other ih =>
      rcases ih with whole | ⟨last, extent, newline, bare⟩
      · exact .inl (by simp [whole])
      · refine .inr ⟨last + 1, by omega, newline, fun before equal => ?_⟩
        match before with
        | before + 1 => exact bare before (by omega)
        | 0 =>
            -- A backslash here would have taken the newline with it.
            intro backslash
            obtain rfl : c = '\\' := Option.some.inj backslash
            obtain rfl : last = 0 := by omega
            obtain ⟨tail, rfl⟩ : ∃ tail, rest = '\n' :: tail := by
              cases rest with
              | nil => cases newline
              | cons d tail => exact ⟨tail, by rw [Option.some.inj newline]⟩
            exact single tail rfl rfl

/-! ## The first lexeme -/

/-- What the category of the lexeme `first :: rest.take more` says of its characters. -/
def Category.Describes (fresh : Bool) (first : Char) (rest : List Char) (more : Nat) :
    Category → Prop
  | .blanks => ∀ c ∈ first :: rest.take more, isBlank c = true
  | .directive => first = '#' ∧ fresh = true ∧ more = directiveExtent rest
  | .punctuator mark => String.ofList (first :: rest.take more) = mark.spelling
  | .comment | .number | .quoted _ | .word => True

/-- A lexeme that ends inside the text and is what its category says. -/
def Lexeme.Fits (fresh : Bool) (first : Char) (rest : List Char) (lexeme : Lexeme) : Prop :=
  lexeme.more ≤ rest.length ∧ lexeme.category.Describes fresh first rest lexeme.more

theorem takeWhile_length_le (admits : Char → Bool) (text : List Char) :
    (text.takeWhile admits).length ≤ text.length :=
  (List.takeWhile_prefix admits).length_le

theorem scanQuoted_fits {quote : Quote} {opening : Nat} {behind : List Char}
    (length : rest.length = opening + behind.length)
    (scanned : scanQuoted quote opening behind = .ok lexeme) : lexeme.Fits fresh first rest := by
  unfold scanQuoted at scanned
  split at scanned
  · next extent found =>
      cases scanned
      have inside := quotedExtent_le found
      exact ⟨by dsimp only; omega, trivial⟩
  · cases scanned

theorem scanWord_fits (scanned : scanWord first rest = .ok lexeme) :
    lexeme.Fits fresh first rest := by
  have word : Lexeme.Fits fresh first rest ⟨.word, (rest.takeWhile isWordPart).length⟩ :=
    ⟨takeWhile_length_le isWordPart rest, trivial⟩
  unfold scanWord at scanned
  dsimp only at scanned
  split at scanned
  · next c tail =>
      split at scanned
      · exact scanQuoted_fits (by simp [Nat.add_comm]) scanned
      · cases scanned
        exact word
  · cases scanned
    exact word

theorem Punctuator.longest?_prefix {text : List Char} {mark : Punctuator}
    (found : longest? text = some mark) : mark.spelling.toList <+: text := by
  have starts := List.find?_some found
  exact List.isPrefixOf_iff_prefix.mp starts

theorem Punctuator.spelling_length_pos (mark : Punctuator) : 0 < mark.spelling.length := by
  cases mark <;> decide

theorem scanPunctuator_fits (scanned : scanPunctuator first rest = .ok lexeme) :
    lexeme.Fits fresh first rest := by
  unfold scanPunctuator at scanned
  split at scanned
  · next mark found =>
      cases scanned
      have starts := Punctuator.longest?_prefix found
      have positive := mark.spelling_length_pos
      have length : mark.spelling.toList.length = mark.spelling.length :=
        String.length_toList
      have inside := starts.length_le
      have equal := List.prefix_iff_eq_take.mp starts
      obtain ⟨more, size⟩ : ∃ more, mark.spelling.length = more + 1 :=
        ⟨mark.spelling.length - 1, by omega⟩
      rw [length, size, List.take_succ_cons] at equal
      rw [length, List.length_cons] at inside
      refine ⟨by dsimp only; omega, ?_⟩
      change String.ofList (first :: rest.take (mark.spelling.length - 1)) = mark.spelling
      rw [size, Nat.add_sub_cancel, ← equal, String.ofList_toList]
  · cases scanned

theorem scan_fits (scanned : scan fresh first rest = .ok lexeme) :
    lexeme.Fits fresh first rest := by
  unfold scan at scanned
  split at scanned
  · next blank =>
      cases scanned
      have covered := List.prefix_iff_eq_take.mp (List.takeWhile_prefix (l := rest) isBlank)
      refine ⟨takeWhile_length_le isBlank rest, fun c member => ?_⟩
      rw [← covered] at member
      rcases List.mem_cons.mp member with rfl | inside
      · exact blank
      · exact List.mem_takeWhile_imp inside
  split at scanned
  · cases scanned
    exact ⟨takeWhile_length_le _ rest, trivial⟩
  split at scanned
  · next opens =>
      split at scanned
      · next extent found =>
          cases scanned
          have star := (Bool.and_eq_true_iff.mp opens).2
          have inside := blockCommentExtent_le found
          cases rest with
          | nil => cases star
          | cons c tail => exact ⟨Nat.succ_le_succ inside, trivial⟩
      · cases scanned
  split at scanned
  · next sign =>
      cases scanned
      have ⟨number, atStart⟩ := Bool.and_eq_true_iff.mp sign
      exact ⟨directiveExtent_le rest, of_decide_eq_true number, atStart, rfl⟩
  split at scanned
  · cases scanned
    exact ⟨numberExtent_le _ _ rest, trivial⟩
  split at scanned
  · exact scanWord_fits scanned
  split at scanned
  · exact scanQuoted_fits (Nat.zero_add _).symm scanned
  · exact scanPunctuator_fits scanned

end SyntaxGraph.Token
