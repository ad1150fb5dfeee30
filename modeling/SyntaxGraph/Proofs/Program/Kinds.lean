import SyntaxGraph.Proofs.Agreement.TranslationUnit
import SyntaxGraph.Proofs.Program.Read

/-!
# Programs are read by the kinds of their tokens

White space, line breaks, comments, directives and other spellings of a mark make no
difference to a program but for its places and comments, and no difference to the cause for
which a source is refused or to the token at which it is.
-/

set_option autoImplicit false

namespace SyntaxGraph

open Grammar
open Token (Kind Reading)

theorem Token.Reading.parse_agree {first second : Reading}
    (same : first.tokens.map Token.kind = second.tokens.map Token.kind) :
    Matches Eq first.parse second.parse := by
  have similar : first.tokens.toArray.map Token.kind = second.tokens.toArray.map Token.kind := by
    rw [List.map_toArray, List.map_toArray, same]
  exact translationUnit_agree _ _ similar {} {} ⟨rfl, rfl, rfl⟩

theorem Grammar.Tokens.exists_start {tokens : List Token} {place : Nat}
    (inside : place < tokens.length) :
    ∃ token, tokens[place]? = some token ∧ Tokens.start tokens.toArray place = token.start := by
  have found : tokens[place]? = some tokens[place] := List.getElem?_eq_getElem inside
  exact ⟨tokens[place], found, by simp [Tokens.start, found]⟩

namespace Program

/-- Two sources with tokens of the same kinds are read to the same program, but for places
and comments, or both are refused for the same cause and at the token with the same index. -/
theorem read_kinds {first second : String} (file : String)
    (firstWhole : (Reading.ofSource first).failure = none)
    (secondWhole : (Reading.ofSource second).failure = none)
    (same : (Reading.ofSource first).tokens.map Token.kind =
      (Reading.ofSource second).tokens.map Token.kind) :
    (∃ p q, read file first = .ok p ∧ read file second = .ok q ∧ p.erased = q.erased) ∨
      ∃ (index : Nat) (cause : Cause) (one other : Token),
        (Reading.ofSource first).tokens[index]? = some one ∧
        (Reading.ofSource second).tokens[index]? = some other ∧
        read file first = .error ⟨file, one.start, cause⟩ ∧
        read file second = .error ⟨file, other.start, cause⟩ := by
  have agree : Matches Eq (Reading.ofSource first).parse (Reading.ofSource second).parse :=
    Reading.parse_agree same
  obtain ⟨-, completed | refused⟩ := read_of_tokens file firstWhole
  · obtain ⟨decls, s, run, -, -, answer⟩ := completed
    obtain ⟨-, completed | refused⟩ := read_of_tokens file secondWhole
    · obtain ⟨others, t, otherRun, -, -, otherAnswer⟩ := completed
      rw [run, otherRun] at agree
      cases agree with
      | ok values states =>
          left
          refine ⟨_, _, answer, otherAnswer, ?_⟩
          simp only [erased, values, states.arenas]
    · obtain ⟨cause, t, otherRun, -, -, -⟩ := refused
      rw [run, otherRun] at agree
      cases agree
  · obtain ⟨cause, s, run, -, inside, answer⟩ := refused
    obtain ⟨-, completed | refused⟩ := read_of_tokens file secondWhole
    · obtain ⟨others, t, otherRun, -, -, -⟩ := completed
      rw [run, otherRun] at agree
      cases agree
    · obtain ⟨otherCause, t, otherRun, -, otherInside, otherAnswer⟩ := refused
      rw [run, otherRun] at agree
      cases agree with
      | error states =>
          right
          obtain ⟨one, found, start⟩ := Tokens.exists_start inside
          obtain ⟨other, otherFound, otherStart⟩ := Tokens.exists_start otherInside
          rw [start] at answer
          rw [otherStart] at otherAnswer
          exact ⟨s.position, cause, one, other, found, states.position ▸ otherFound, answer,
            otherAnswer⟩

/-- A function and a declaration without a value, each in two layouts. -/
def tidySource : String := "int f(int n) \x7b return n; \x7d"

def spacedSource : String := "// f\n int f (\n# define A\nint n)\x7breturn n;\x7d"

def cutSource : String := "inline int g = ;"

def spacedCutSource : String := "__inline int\ng /* no */ =\n;"

theorem read_kinds_spacedSource :
    (∃ p q, read "f.c" tidySource = .ok p ∧ read "f.c" spacedSource = .ok q ∧
      p.erased = q.erased ∧ p ≠ q) ∧
      ∃ (cause : Cause) (start place : Location),
        read "g.c" cutSource = .error ⟨"g.c", start, cause⟩ ∧
        read "g.c" spacedCutSource = .error ⟨"g.c", place, cause⟩ := by
  constructor
  · have shape : (read "f.c" tidySource).toOption.map (·.arenas.decls.map Decl.comments) =
        some #[{}, {}] := by
      decide +kernel
    have spaced : (read "f.c" spacedSource).toOption.map (·.arenas.decls.map Decl.comments) =
        some #[{}, { before := ["// f"] }] := by
      decide +kernel
    obtain ⟨p, parsed, plain⟩ := exists_read_of_map shape
    obtain ⟨q, copied, commented⟩ := exists_read_of_map spaced
    have different : p ≠ q := by
      rintro rfl
      rw [plain] at commented
      revert commented
      decide
    have tidyWhole : (Reading.ofSource tidySource).failure = none := by decide +kernel
    have spacedWhole : (Reading.ofSource spacedSource).failure = none := by decide +kernel
    have same : (Reading.ofSource tidySource).tokens.map Token.kind =
        (Reading.ofSource spacedSource).tokens.map Token.kind := by
      decide +kernel
    rcases read_kinds "f.c" tidyWhole spacedWhole same with
      ⟨one, other, first, second, equal⟩ | ⟨_, _, _, _, -, -, first, -⟩
    · rw [parsed] at first
      rw [copied] at second
      cases first
      cases second
      exact ⟨p, q, parsed, copied, equal, different⟩
    · rw [parsed] at first
      cases first
  · have refused : (read "g.c" cutSource).toOption.isNone = true := by decide +kernel
    have cutWhole : (Reading.ofSource cutSource).failure = none := by decide +kernel
    have spacedWhole : (Reading.ofSource spacedCutSource).failure = none := by decide +kernel
    have same : (Reading.ofSource cutSource).tokens.map Token.kind =
        (Reading.ofSource spacedCutSource).tokens.map Token.kind := by
      decide +kernel
    rcases read_kinds "g.c" cutWhole spacedWhole same with
      ⟨one, _, first, -, -⟩ | ⟨_, cause, one, other, -, -, first, second⟩
    · rw [first] at refused
      cases refused
    · exact ⟨cause, one.start, other.start, first, second⟩

end Program

end SyntaxGraph
