import SyntaxGraph.Proofs.Grammar.Parses
import SyntaxGraph.Proofs.Scope.Tags

/-!
# A keyword with a tag

What a specifier does with `struct`, `union` or `enum`, a tag and whatever comes next.
Without a body it answers the type that the tag is bound to, or refuses the tag if that
type is of another kind.  With a body it refuses the tag also if the innermost scope binds
it to a type that has declarations; otherwise it reads the body for the type that the
innermost scope binds the tag to, which may be a new one.
-/

set_option autoImplicit false

namespace SyntaxGraph.Grammar

open Token (Kind Keyword Punctuator)

variable {rules : Rules} {tokens : Tokens} {s t : State} {word : Keyword} {kind : TypeKind}
  {tag : String} {next : Kind} {rest : List Kind} {id : TypeId} {type : TypeNode}

theorem taggedSpecifier_run (rules : Rules) (kind : TypeKind)
    (ahead : tokens.ahead s.position = .keyword word :: .identifier tag :: next :: rest) :
    ∃ start, taggedSpecifier rules kind tokens s =
      (if next = .punctuator .braceOpen then do
          let id ← taggedOwner kind (some tag) start
          Parse.advance
          let decls ← tagBody rules kind
          Parse.completeType id decls
          return id
        else taggedReference kind (some tag) start : Parse TypeId)
      tokens { s with position := s.position + 2 } := by
  obtain ⟨inside, -, atTag⟩ := Tokens.of_ahead_cons ahead
  obtain ⟨-, -, atNext⟩ := Tokens.of_ahead_cons atTag
  obtain ⟨start, here⟩ := here_run inside
  have named := identifier?_run (s := { s with position := s.position + 1 }) atTag (by simp)
  have opens := at?_run (s := { s with position := s.position + 2 }) atNext
    (.punctuator .braceOpen)
  refine ⟨start, ?_⟩
  rw [taggedSpecifier, bind_of_ok here, bind_of_ok (advance_run ahead (by simp) (by simp)),
    bind_of_ok named, bind_of_ok opens]
  by_cases brace : next = .punctuator .braceOpen
  · simp only [brace, decide_true, if_true]
  · simp only [brace, decide_false, if_false]
    rfl

theorem checkTagKind_run (found : s.arenas.type? id = some type) :
    checkTagKind id kind tag tokens s =
      if type.kind ≠ kind then .error (.tagMismatch tag type.kind kind) s else .ok () s := by
  rw [checkTagKind, bind_of_ok (typeNode_apply found)]
  split <;> rfl

theorem taggedOwner_run {start : Location} (bound : s.scopes.innerTag? tag = some id)
    (found : s.arenas.type? id = some type) :
    taggedOwner kind (some tag) start tokens s =
      if type.kind ≠ kind then .error (.tagMismatch tag type.kind kind) s
      else if type.decls ≠ [] then .error (.redefinition kind tag) s
      else .ok id s := by
  have scopes : Parse.scopes tokens s = .ok s.scopes s := rfl
  have there : (some tag).bind s.scopes.innerTag? = some id := bound
  rw [taggedOwner, bind_of_ok scopes]
  simp only [there]
  rw [bind_apply, checkTagKind_run found]
  by_cases differs : type.kind ≠ kind
  · rw [if_pos differs, if_pos differs]
  · rw [if_neg differs, if_neg differs]
    change (Parse.typeNode id >>= _ : Parse TypeId) tokens s = _
    rw [bind_of_ok (typeNode_apply found)]
    cases type.decls <;> rfl

/-- A tag without a body stands for the type that it is bound to, if the kinds agree. -/
theorem taggedSpecifier_bound (rules : Rules) (kind : TypeKind)
    (ahead : tokens.ahead s.position = .keyword word :: .identifier tag :: next :: rest)
    (bodiless : next ≠ .punctuator .braceOpen)
    (bound : (if next = .punctuator .semicolon then s.scopes.innerTag? tag
      else s.scopes.findTag? tag) = some id)
    (found : s.arenas.type? id = some type) :
    taggedSpecifier rules kind tokens s =
      if type.kind ≠ kind then
        .error (.tagMismatch tag type.kind kind) { s with position := s.position + 2 }
      else .ok id { s with position := s.position + 2 } := by
  obtain ⟨start, opened⟩ := taggedSpecifier_run rules kind ahead
  obtain ⟨-, -, atTag⟩ := Tokens.of_ahead_cons ahead
  obtain ⟨-, -, atNext⟩ := Tokens.of_ahead_cons atTag
  have declares := at?_run (s := { s with position := s.position + 2 }) atNext
    (.punctuator .semicolon)
  have scopes : Parse.scopes tokens { s with position := s.position + 2 } =
      .ok s.scopes { s with position := s.position + 2 } := rfl
  let behind : State := { s with position := s.position + 2 }
  have there : behind.arenas.type? id = some type := found
  rw [opened, if_neg bodiless, taggedReference, bind_of_ok declares, bind_of_ok scopes]
  simp only [decide_eq_true_eq, bound]
  rw [bind_apply, checkTagKind_run there]
  by_cases differs : type.kind ≠ kind
  · rw [if_pos differs, if_pos differs]
  · rw [if_neg differs, if_neg differs]
    rfl

/-- A body of a bound tag: the kinds have to agree, and the type must have no declarations
yet. -/
theorem taggedSpecifier_body (rules : Rules) (kind : TypeKind)
    (ahead : tokens.ahead s.position =
      .keyword word :: .identifier tag :: .punctuator .braceOpen :: rest)
    (bound : s.scopes.innerTag? tag = some id) (found : s.arenas.type? id = some type) :
    taggedSpecifier rules kind tokens s =
      if type.kind ≠ kind then
        .error (.tagMismatch tag type.kind kind) { s with position := s.position + 2 }
      else if type.decls ≠ [] then
        .error (.redefinition kind tag) { s with position := s.position + 2 }
      else (do
        Parse.advance
        let decls ← tagBody rules kind
        Parse.completeType id decls
        return id) tokens { s with position := s.position + 2 } := by
  obtain ⟨start, opened⟩ := taggedSpecifier_run rules kind ahead
  let behind : State := { s with position := s.position + 2 }
  have same : behind.scopes.innerTag? tag = some id := bound
  have there : behind.arenas.type? id = some type := found
  rw [opened, if_pos rfl, bind_apply, taggedOwner_run same there]
  by_cases differs : type.kind ≠ kind
  · rw [if_pos differs, if_pos differs]
  · rw [if_neg differs, if_neg differs]
    by_cases full : type.decls ≠ []
    · rw [if_pos full, if_pos full]
    · rw [if_neg full, if_neg full]

end SyntaxGraph.Grammar
