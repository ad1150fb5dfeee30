import SyntaxGraph.Proofs.Program.Read
import SyntaxGraph.Proofs.Scope.Run

/-!
# Bodies of tags

A structure, a union or an enumeration counts as defined when it has declarations.  What
is defined in this sense is never completed again, unless a body of the same type ends
that has been begun before; and as long as the scope that binds its tag is the innermost
one, another body of the tag is refused.  A body that declares nothing defines nothing:
another body of the tag may follow it, and completes the same type.
-/

set_option autoImplicit false

namespace SyntaxGraph.Grammar

open Token (Kind Keyword Punctuator)

variable {rules : Rules} {tokens : Tokens} {floor : Nat} {s t : State} {word : Keyword}
  {kind : TypeKind} {tag : String} {rest : List Kind} {id : TypeId} {type : TypeNode}

/-! ## What is defined stays -/

/-- Only the end of a body changes a type. -/
theorem Step.type? (step : Step s t) (found : s.arenas.type? id = some type) :
    t.arenas.type? id = some type := by
  have known : (t.arenas.type? id).map (fun type => type) = some type :=
    step.type?_map (by simpa using found)
  simpa using known

theorem Arenas.type?_completeType_of_ne {a : Arenas} {completed : TypeId}
    (different : completed ≠ id) (decls : List DeclId) :
    (a.completeType completed decls).type? id = a.type? id := by
  rw [a.type?_completeType, if_neg different]

/-- By induction on the course: a body is read only for a type without declarations. -/
theorem Course.defined (course : Course s t) (found : s.arenas.type? id = some type)
    (full : type.decls ≠ []) : t.arenas.type? id = some type := by
  induction course with
  | done => exact found
  | step first _ ih => exact ih (first.type? found)
  | enclosed _ _ inner rest => exact rest (inner found)
  | body decls bare _ _ inner rest =>
      refine rest ((Arenas.type?_completeType_of_ne ?_ decls).trans (inner found))
      rintro rfl
      obtain ⟨empty, there, -, none⟩ := bare
      obtain rfl : empty = type := Option.some.inj (there.symm.trans found)
      exact full none

theorem Turn.defined (turn : Turn tokens (· ≠ id) s t)
    (found : s.arenas.type? id = some type) (full : type.decls ≠ []) :
    t.arenas.type? id = some type := by
  cases turn with
  | call production => exact (production.course tokens s).defined found full
  | enter => exact found
  | leave => exact found
  | close _ completed different decls =>
      exact (Arenas.type?_completeType_of_ne different decls).trans found

theorem Run.defined (run : Run tokens (· ≠ id) floor s t)
    (found : s.arenas.type? id = some type) (full : type.decls ≠ []) :
    t.arenas.type? id = some type := by
  induction run with
  | done => exact found
  | turn _ first _ ih => exact ih (first.defined found full)

/-! ## A body binds its tag -/

theorem taggedOwner_binds {start : Location} (standing : s.scopes ≠ [])
    (run : taggedOwner kind (some tag) start tokens s = .ok id t) :
    t.scopes.innerTag? tag = some id ∧ t.typeKind? id = some kind := by
  rcases taggedOwner_ok run with ⟨bound, rfl, type, found, rfl, -⟩ | declares
  · exact ⟨bound, congrArg (Option.map TypeNode.kind) found⟩
  · obtain ⟨span, arenas, rfl, scopes⟩ := declareTagged_ok declares
    constructor
    · obtain ⟨inner, outer, nonempty⟩ := List.exists_cons_of_ne_nil standing
      rw [scopes, nonempty]
      exact List.lookup_cons_self
    · rw [State.typeKind?, arenas, Arenas.type?_addType_self]
      rfl

/-- Behind a body its tag is bound to the type that the body is of. -/
theorem taggedSpecifier_binds (follow : rules.PartsFollow Course) (tagged : kind.isTagged = true)
    (ahead : tokens.ahead s.position =
      .keyword word :: .identifier tag :: .punctuator .braceOpen :: rest)
    (standing : s.scopes ≠ []) (run : taggedSpecifier rules kind tokens s = .ok id t) :
    t.scopes.innerTag? tag = some id ∧ t.typeKind? id = some kind := by
  obtain ⟨start, opened⟩ := taggedSpecifier_run rules kind ahead
  rw [opened, if_pos rfl] at run
  obtain ⟨owner, owned, owns, body⟩ := bind_ok run
  obtain ⟨bound, known⟩ :=
    taggedOwner_binds (s := { s with position := s.position + 2 }) standing owns
  obtain ⟨rfl, course⟩ := taggedBody_ok follow (taggedOwner_bare tagged owns) body
  exact ⟨course.innerTag? bound, course.typeKind? known⟩

/-! ## Another body -/

/-- What a body of a bound tag comes to; a type that is defined is never completed by
anything that is read later, but by the end of a body of its own that has been begun
before; and so a tag with a body that declares something has no further body for as long
as its scope is the innermost one. -/
theorem tag_defined_once (tokens : Tokens) :
    (∀ s depth word kind tag rest id, Reached tokens s → tagKind? word = some kind →
      tokens.ahead s.position =
        .keyword word :: .identifier tag :: .punctuator .braceOpen :: rest →
      s.scopes.innerTag? tag = some id →
      ∃ type, s.arenas.type? id = some type ∧
        taggedSpecifier (Rules.nested depth) kind tokens s =
          if type.kind ≠ kind then
            .error (.tagMismatch tag type.kind kind) { s with position := s.position + 2 }
          else if type.decls ≠ [] then
            .error (.redefinition kind tag) { s with position := s.position + 2 }
          else (do
            Parse.advance
            let decls ← tagBody (Rules.nested depth) kind
            Parse.completeType id decls
            return id) tokens { s with position := s.position + 2 }) ∧
    (∀ s t floor id type, Run tokens (· ≠ id) floor s t → s.arenas.type? id = some type →
      type.decls ≠ [] → t.arenas.type? id = some type) ∧
    ∀ s t u depth word kind tag rest id type deeper again other behind, Reached tokens s →
      tagKind? word = some kind →
      tokens.ahead s.position =
        .keyword word :: .identifier tag :: .punctuator .braceOpen :: rest →
      taggedSpecifier (Rules.nested depth) kind tokens s = .ok id t →
      t.arenas.type? id = some type → type.decls ≠ [] →
      Run tokens (· ≠ id) t.scopes.length t u → u.scopes.length = t.scopes.length →
      tagKind? again = some other →
      tokens.ahead u.position =
        .keyword again :: .identifier tag :: .punctuator .braceOpen :: behind →
      taggedSpecifier (Rules.nested deeper) other tokens u =
        if kind ≠ other then
          .error (.tagMismatch tag kind other) { u with position := u.position + 2 }
        else .error (.redefinition other tag) { u with position := u.position + 2 } := by
  refine ⟨?_, fun s t floor id type run found full => run.defined found full, ?_⟩
  · intro s depth word kind tag rest id reached named ahead bound
    have visible := Scopes.findTag?_of_innerTag? bound
    obtain ⟨type, found, -, -⟩ := reached.tagsSound.bears_of_findTag? visible
    exact ⟨type, found, taggedSpecifier_body _ kind ahead bound found⟩
  · intro s t u depth word kind tag rest id type deeper again other behind reached named ahead
      defines found full run same renamed further
    have standing : s.scopes ≠ [] := List.ne_nil_of_length_pos (Run.standing_end reached)
    obtain ⟨bound, known⟩ := taggedSpecifier_binds (Rules.nested_parts depth)
      (tagKind?_isTagged named) ahead standing defines
    obtain rfl : type.kind = kind := by
      rw [State.typeKind?, found] at known
      exact Option.some.inj known
    rw [Scopes.innerTag?_eq_tagAt] at bound
    have below := Nat.sub_lt (Nat.zero_lt_of_lt (Scopes.lt_length_of_tagAt bound)) Nat.one_pos
    have stillBound : u.scopes.innerTag? tag = some id := by
      rw [Scopes.innerTag?_eq_tagAt, same]
      exact run.tagAt below bound
    rw [taggedSpecifier_body _ other further stillBound (run.defined found full)]
    simp only [if_pos full]

/-- Two bodies of one tag, of which the first declares something. -/
def doubledTokens : Tokens :=
  (Token.Reading.ofSource "struct s \x7b int a; \x7d; struct s \x7b int b; \x7d;").tokens.toArray

/-- Both the first body and the mark behind it are read before the second body is refused. -/
theorem tag_defined_once_doubledTokens :
    ∃ t u type, taggedSpecifier (Rules.nested 9) .struct doubledTokens {} = .ok ⟨0⟩ t ∧
      Reached doubledTokens u ∧ Run doubledTokens (· ≠ ⟨0⟩) t.scopes.length t u ∧
      u.scopes.innerTag? "s" = some ⟨0⟩ ∧ u.arenas.type? ⟨0⟩ = some type ∧
      type.decls = [⟨0⟩] ∧
      taggedSpecifier (Rules.nested 9) .struct doubledTokens u =
        .error (.redefinition .struct "s") { u with position := u.position + 2 } := by
  let first := taggedSpecifier (Rules.nested 9) .struct
  let mark := Parse.accept (.punctuator .semicolon)
  have named : tagKind? .structKw = some .struct := rfl
  have defining : Production (Rules.nested 9) first := .taggedSpecifier named
  have marking : Production (Rules.nested 9) mark := .accept _
  let t := endState (first doubledTokens {})
  let u := endState (mark doubledTokens t)
  have alone : t.scopes.length = 1 := by decide +kernel
  have same : u.scopes.length = t.scopes.length := by decide +kernel
  have opens : doubledTokens.ahead (State.position {}) = .keyword .structKw ::
      .identifier "s" :: .punctuator .braceOpen :: doubledTokens.ahead 3 := by
    decide +kernel
  have further : doubledTokens.ahead u.position = .keyword .structKw ::
      .identifier "s" :: .punctuator .braceOpen :: doubledTokens.ahead 11 := by
    decide +kernel
  have ended : seenAtEnd? (fun id s => (id, (s.arenas.type? ⟨0⟩).map TypeNode.decls))
      (first doubledTokens {}) = some (⟨0⟩, some [⟨0⟩]) := by
    decide +kernel
  have bound : u.scopes.innerTag? "s" = some ⟨0⟩ := by decide +kernel
  obtain ⟨id, defined, run, seen⟩ := ok_of_seenAtEnd? ended
  obtain ⟨rfl, shape⟩ := Prod.mk.inj seen
  obtain rfl : t = defined := congrArg endState run
  obtain ⟨type, found, decls⟩ := Option.map_eq_some_iff.mp shape
  have full : type.decls ≠ [] := decls ▸ List.cons_ne_nil _ _
  have onward : Run doubledTokens (· ≠ ⟨0⟩) t.scopes.length t u :=
    .turn (Nat.le_refl _) (.call marking t) (.done _ (Nat.le_of_eq same.symm))
  have reached : Reached doubledTokens u :=
    .turn (Nat.le_refl 1) (.call defining {}) (.turn (Nat.le_of_eq alone.symm)
      (.call marking t) (.done _ (Nat.le_of_eq (alone.symm.trans same.symm))))
  obtain ⟨-, stays, refuses⟩ := tag_defined_once doubledTokens
  have start : Reached doubledTokens {} := .done _ (Nat.le_refl 1)
  have refused := refuses {} t u 9 .structKw .struct "s" _ ⟨0⟩ type 9 .structKw .struct _ start
    rfl opens run found full onward same rfl further
  exact ⟨t, u, type, run, reached, onward, bound,
    stays t u t.scopes.length ⟨0⟩ type onward found full, decls, refused⟩

end SyntaxGraph.Grammar

namespace SyntaxGraph.Program

/-- Two bodies of one tag in the scope of the file, of which the first declares nothing. -/
def reopenedSource : String := "struct S \x7b \x7d; struct S \x7b int a; \x7d;"

/-- The second body is not refused: it completes the type of the first one again. -/
theorem reopenedSource_read :
    ∃ p, read "t.c" reopenedSource = .ok p ∧
      p.decls.map (fun id => (p.decl? id).map Decl.type) = [some ⟨0⟩, some ⟨0⟩] ∧
      (p.type? ⟨0⟩).map TypeNode.decls = some [⟨1⟩] := by
  have shape : (read "t.c" reopenedSource).toOption.map (fun p =>
      (p.decls.map (fun id => (p.decl? id).map Decl.type),
        (p.type? ⟨0⟩).map TypeNode.decls)) =
      some ([some ⟨0⟩, some ⟨0⟩], some [⟨1⟩]) := by
    decide +kernel
  obtain ⟨p, parsed, seen⟩ := exists_read_of_map shape
  obtain ⟨types, reopened⟩ := Prod.mk.inj seen
  exact ⟨p, parsed, types, reopened⟩

end SyntaxGraph.Program
