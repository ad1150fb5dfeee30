import SyntaxGraph.Proofs.Grammar.TranslationUnit
import SyntaxGraph.Proofs.Walk.Closed

/-!
# What reading a source ends with

Every source text is read to a program or refused.  The tokens have one end of the file,
which is the last of them, and reading stops at one of them; it is never refused by a
fault, which is to say that no position is left, no repetition is idle, no closing
parenthesis is counted that has not been opened, and no node is looked up that is not
there.  A program that has been read owns whatever its nodes refer to.
-/

set_option autoImplicit false

namespace SyntaxGraph

open Grammar
open Token (Reading LexicalFailure Ended)

namespace Program

variable {file source : String}

theorem read_of_failure {failure : LexicalFailure}
    (failed : (Reading.ofSource source).failure = some failure) :
    read file source = .error ⟨file, failure.place, .lexical failure.error⟩ := by
  simp only [read, failed]

/-- What reading the tokens of a source ends with. -/
theorem read_of_tokens (file : String) (whole : (Reading.ofSource source).failure = none) :
    Ended (Reading.ofSource source).tokens ∧
      ((∃ decls state, (Reading.ofSource source).parse = .ok decls state ∧
          Sound (Reading.ofSource source).tokens.toArray state ∧
          state.arenas.OwnsAll (references decls) ∧
          read file source = .ok { file, decls, arenas := state.arenas }) ∨
        ∃ cause state, (Reading.ofSource source).parse = .error cause state ∧
          cause.isRefusal = true ∧
          state.position < (Reading.ofSource source).tokens.length ∧
          read file source =
            .error ⟨file, Tokens.start (Reading.ofSource source).tokens.toArray state.position,
              cause⟩) := by
  have ended : Ended (Reading.ofSource source).tokens := Reading.ofSource_ended whole
  have ends : Ends _ _ (Reading.ofSource source).parse :=
    translationUnit_ends ended (Reading.ofSource source).comments
  refine ⟨ended, ?_⟩
  cases outcome : (Reading.ofSource source).parse with
  | ok decls state =>
      rw [outcome] at ends
      obtain ⟨sound, owned⟩ := ends
      have answer : read file source = .ok { file, decls, arenas := state.arenas } := by
        simp only [read, whole, outcome]
      exact .inl ⟨decls, state, rfl, sound, owned, answer⟩
  | error cause state =>
      rw [outcome] at ends
      obtain ⟨refusal, inside⟩ := ends
      have answer : read file source =
          .error ⟨file, Tokens.start (Reading.ofSource source).tokens.toArray state.position,
            cause⟩ := by
        simp only [read, whole, outcome]
      exact .inr ⟨cause, state, rfl, refusal, inside, answer⟩

/-- The state in which reading a program ends. -/
theorem parse_of_read {p : Program} (parsed : read file source = .ok p) :
    ∃ state, (Reading.ofSource source).parse = .ok p.decls state ∧ state.arenas = p.arenas ∧
      Sound (Reading.ofSource source).tokens.toArray state := by
  cases outcome : (Reading.ofSource source).failure with
  | some failure =>
      rw [read_of_failure outcome] at parsed
      cases parsed
  | none =>
      obtain ⟨-, completed | refused⟩ := read_of_tokens file outcome
      · obtain ⟨decls, state, run, sound, -, answer⟩ := completed
        rw [answer] at parsed
        cases parsed
        exact ⟨state, run, rfl, sound⟩
      · obtain ⟨cause, state, -, -, -, answer⟩ := refused
        rw [answer] at parsed
        cases parsed

/-- What is seen of the answer shows that there is one. -/
theorem exists_read_of_map {α : Type} {seen : Program → α} {value : α}
    (shape : (read file source).toOption.map seen = some value) :
    ∃ p, read file source = .ok p ∧ seen p = value := by
  obtain ⟨p, found, same⟩ := Option.map_eq_some_iff.mp shape
  cases outcome : read file source with
  | ok other =>
      rw [outcome] at found
      exact ⟨p, by rw [Option.some.inj found], same⟩
  | error error =>
      rw [outcome] at found
      cases found

theorem seen_of_read {α : Type} {p : Program} {seen : Program → α} {value : α}
    (parsed : read file source = .ok p)
    (shape : (read file source).toOption.map seen = some value) : seen p = value := by
  rw [parsed] at shape
  exact Option.some.inj shape

/-- A program that has been read owns whatever its nodes refer to, so walks and dumps of
it do not fail. -/
theorem read_closed {p : Program} (parsed : read file source = .ok p) :
    (∀ node ∈ references p, p.owns node = true) ∧ (∃ text, p.dump = .ok text) ∧
      ∀ root, p.owns root = true →
        (∃ events, p.walk root = .ok events) ∧ ∃ text, p.dumpFrom root = .ok text := by
  have closed : p.Closed := by
    cases outcome : (Reading.ofSource source).failure with
    | some failure =>
        rw [read_of_failure outcome] at parsed
        cases parsed
    | none =>
        obtain ⟨-, completed | refused⟩ := read_of_tokens file outcome
        · obtain ⟨decls, state, -, sound, owned, answer⟩ := completed
          rw [answer] at parsed
          cases parsed
          exact Arenas.ownsAll_append.mpr ⟨owned, sound.closed⟩
        · obtain ⟨cause, state, -, -, -, answer⟩ := refused
          rw [answer] at parsed
          cases parsed
  refine ⟨closed, closed.dumpFrom rfl, fun root owned => ⟨?_, closed.dumpFrom owned⟩⟩
  obtain ⟨events, walked, -⟩ := closed.walk owned
  exact ⟨events, walked⟩

/-- A structure that refers to itself and is defined behind its first mention. -/
def listSource : String :=
  "struct item; struct item \x7b struct item *next; int width : 4; \x7d *list;"

theorem read_closed_listSource :
    ∃ p, read "list.c" listSource = .ok p ∧ p.decls.length = 2 ∧
      (∀ node ∈ references p, p.owns node = true) ∧ ∃ text, p.dump = .ok text := by
  have shape : (read "list.c" listSource).toOption.map (·.decls.length) = some 2 := by
    decide +kernel
  obtain ⟨p, found, length⟩ := Option.map_eq_some_iff.mp shape
  have parsed : read "list.c" listSource = .ok p := by
    cases outcome : read "list.c" listSource with
    | ok other =>
        rw [outcome] at found
        rw [Option.some.inj found]
    | error error =>
        rw [outcome] at found
        cases found
  obtain ⟨owned, dumped, -⟩ := read_closed parsed
  exact ⟨p, parsed, length, owned, dumped⟩

end Program

end SyntaxGraph
