import SyntaxGraph.Proofs.Scope.Specifier

/-!
# Tags are bound for good

A file is read by functions of the grammar that call each other.  Between two calls a
scope is opened or left, or a body ends and its type is given its declarations; `Turn` is
one of all these, and a `Run` goes through the states between them.  Every state in which
a file is ever read is reached by a run from the state in which reading starts.

In all of them tags are sound.  A scope is counted from that of the file, so as long as
a run stays above its height it is the same scope, and what it binds a tag to stays.
Types keep their kinds and tags throughout.  So all references that come to the same
binding stand for the same type, whether its body has been read or not.
-/

set_option autoImplicit false

namespace SyntaxGraph.Grammar

open Token (Kind Keyword Punctuator)

variable {tokens : Tokens} {closing : TypeId → Prop} {floor : Nat} {s t : State}
  {tag : String} {id : TypeId}

/-- What may come next while a file is read; `closing` says of which types a body may end. -/
inductive Turn (tokens : Tokens) (closing : TypeId → Prop) : State → State → Prop
  | call {depth : Nat} {α : Type} {reading : Parse α}
      (production : Production (Rules.nested depth) reading) (s : State) :
    Turn tokens closing s (endState (reading tokens s))
  | enter (s : State) : Turn tokens closing s { s with scopes := {} :: s.scopes }
  | leave (s : State) : Turn tokens closing s { s with scopes := s.scopes.tail }
  | close (s : State) (id : TypeId) (closes : closing id) (decls : List DeclId) :
    Turn tokens closing s { s with arenas := s.arenas.completeType id decls }

/-- Turns one after the other, with at least `floor` scopes all the time. -/
inductive Run (tokens : Tokens) (closing : TypeId → Prop) (floor : Nat) : State → State → Prop
  | done (s : State) (standing : floor ≤ s.scopes.length) : Run tokens closing floor s s
  | turn {s middle t : State} (standing : floor ≤ s.scopes.length)
      (first : Turn tokens closing s middle) (rest : Run tokens closing floor middle t) :
    Run tokens closing floor s t

/-- The state is reached from the one in which reading starts; the scope of the file is
always there. -/
def Reached (tokens : Tokens) (s : State) : Prop := Run tokens (fun _ => True) 1 {} s

theorem Run.standing (run : Run tokens closing floor s t) : floor ≤ s.scopes.length := by
  cases run with
  | done _ standing => exact standing
  | turn standing _ _ => exact standing

theorem Run.standing_end (run : Run tokens closing floor s t) : floor ≤ t.scopes.length := by
  induction run with
  | done _ standing => exact standing
  | turn _ _ _ ih => exact ih

theorem Production.course {depth : Nat} {α : Type} {reading : Parse α}
    (production : Production (Rules.nested depth) reading) (tokens : Tokens) (s : State) :
    Course s (endState (reading tokens s)) :=
  production.follows (Rules.nested_follow depth) tokens s

/-! ## What a turn keeps -/

theorem Turn.tagsSound (turn : Turn tokens closing s t) (sound : s.TagsSound) :
    t.TagsSound := by
  cases turn with
  | call production => exact (production.course tokens s).tagsSound sound
  | enter => exact sound.enter
  | leave => exact sound.leave
  | close _ completed _ decls => exact sound.complete completed decls

theorem Turn.type?_map {β : Type} {field : TypeNode → β} {value : β}
    (blind : ∀ (type : TypeNode) (decls : List DeclId), field { type with decls } = field type)
    (turn : Turn tokens closing s t) (known : (s.arenas.type? id).map field = some value) :
    (t.arenas.type? id).map field = some value := by
  cases turn with
  | call production => exact (production.course tokens s).type?_map blind known
  | enter => exact known
  | leave => exact known
  | close _ completed _ decls =>
      change ((s.arenas.completeType completed decls).type? id).map field = some value
      rwa [Arenas.type?_map_completeType _ _ _ _ (blind · decls)]

/-- A scope that is there before a turn and after it is the same one. -/
theorem Turn.tagAt {height : Nat} (turn : Turn tokens closing s t)
    (below : height < t.scopes.length) (bound : s.scopes.tagAt height tag = some id) :
    t.scopes.tagAt height tag = some id := by
  cases turn with
  | call production => exact (production.course tokens s).tagAt bound
  | enter =>
      have lower := Scopes.lt_length_of_tagAt bound
      rw [Scopes.tagAt_cons, if_neg (Nat.ne_of_lt lower)]
      exact bound
  | leave =>
      cases scopes : s.scopes with
      | nil =>
          rw [scopes] at bound
          cases bound
      | cons inner outer =>
          rw [scopes, Scopes.tagAt_cons] at bound
          rw [scopes] at below
          have lower : height < outer.length := below
          rwa [if_neg (Nat.ne_of_lt lower)] at bound
  | close => exact bound

/-! ## What a run keeps -/

theorem Run.tagsSound (run : Run tokens closing floor s t) (sound : s.TagsSound) :
    t.TagsSound := by
  induction run with
  | done => exact sound
  | turn _ first _ ih => exact ih (first.tagsSound sound)

theorem Run.type?_map {β : Type} {field : TypeNode → β} {value : β}
    (blind : ∀ (type : TypeNode) (decls : List DeclId), field { type with decls } = field type)
    (run : Run tokens closing floor s t) (known : (s.arenas.type? id).map field = some value) :
    (t.arenas.type? id).map field = some value := by
  induction run with
  | done => exact known
  | turn _ first _ ih => exact ih (first.type?_map blind known)

theorem Run.tagAt {height : Nat} (run : Run tokens closing floor s t) (below : height < floor)
    (bound : s.scopes.tagAt height tag = some id) : t.scopes.tagAt height tag = some id := by
  induction run with
  | done => exact bound
  | turn _ first rest ih =>
      exact ih (first.tagAt (Nat.lt_of_lt_of_le below rest.standing) bound)

theorem Reached.tagsSound (reached : Reached tokens s) : s.TagsSound := by
  refine Run.tagsSound reached fun scope member => ?_
  obtain rfl := List.mem_singleton.mp member
  exact ⟨List.nodup_nil, fun _ _ inside => nomatch inside⟩

/-- A tag that is found is found bound to a type that bears it. -/
theorem State.TagsSound.bears_of_findTag? (sound : s.TagsSound)
    (found : s.scopes.findTag? tag = some id) : s.arenas.Bears tag id := by
  obtain ⟨scope, member, inside⟩ := List.exists_of_findSome?_eq_some found
  obtain ⟨before, after, split, -⟩ := List.lookup_eq_some_iff.mp inside
  exact (sound scope member).bears tag id (by simp [split])

theorem Scopes.findTag?_of_innerTag? {scopes : Scopes} (bound : scopes.innerTag? tag = some id) :
    scopes.findTag? tag = some id := by
  cases scopes with
  | nil => cases bound
  | cons inner outer =>
      have own : inner.tags.lookup tag = some id := bound
      rw [findTag?, List.findSome?_cons, own]

/-- In every state in which a file is read, tags are sound; as long as a scope is there no
tag is bound anew in it, and no type changes its kind or its tag; references that come to
the same binding stand for the same type or are refused for their kind. -/
theorem tags_bound_once (tokens : Tokens) :
    (∀ s, Reached tokens s → s.TagsSound) ∧
    (∀ s t floor, Reached tokens s → Run tokens (fun _ => True) floor s t →
      (∀ height tag id, height < floor →
        s.scopes.tagAt height tag = some id → t.scopes.tagAt height tag = some id) ∧
      (∀ id type, s.arenas.type? id = some type →
        ∃ later, t.arenas.type? id = some later ∧ later.kind = type.kind ∧
          later.tag = type.tag) ∧
      ∀ height tag id, height < floor →
        s.scopes.tagAt height tag = some id →
        (∀ higher, height < higher → s.scopes.tagAt higher tag = none) →
        (∀ higher, height < higher → t.scopes.tagAt higher tag = none) →
        s.scopes.findTag? tag = some id ∧ t.scopes.findTag? tag = some id) ∧
    ∀ s rules word kind tag next rest id, Reached tokens s →
      tagKind? word = some kind →
      tokens.ahead s.position = .keyword word :: .identifier tag :: next :: rest →
      next ≠ .punctuator .braceOpen →
      (if next = .punctuator .semicolon then s.scopes.innerTag? tag
        else s.scopes.findTag? tag) = some id →
      ∃ type, s.arenas.type? id = some type ∧ type.tag = some tag ∧
        type.kind.isTagged = true ∧
        taggedSpecifier rules kind tokens s =
          if type.kind ≠ kind then
            .error (.tagMismatch tag type.kind kind) { s with position := s.position + 2 }
          else .ok id { s with position := s.position + 2 } := by
  refine ⟨fun s reached => reached.tagsSound, fun s t floor reached run => ⟨?_, ?_, ?_⟩, ?_⟩
  · exact fun height tag id below bound => run.tagAt below bound
  · intro id type found
    have known : (s.arenas.type? id).map (fun type => (type.kind, type.tag)) =
        some (type.kind, type.tag) := by
      rw [found, Option.map_some]
    obtain ⟨later, there, equal⟩ :=
      Option.map_eq_some_iff.mp (run.type?_map (fun _ _ => rfl) known)
    obtain ⟨kinds, tags⟩ := Prod.mk.inj equal
    exact ⟨later, there, kinds, tags⟩
  · intro height tag id below bound first last
    exact ⟨Scopes.findTag?_eq_some_iff.mpr ⟨height, bound, first⟩,
      Scopes.findTag?_eq_some_iff.mpr ⟨height, run.tagAt below bound, last⟩⟩
  · intro s rules word kind tag next rest id reached named ahead bodiless bound
    have visible : s.scopes.findTag? tag = some id := by
      split at bound
      · exact Scopes.findTag?_of_innerTag? bound
      · exact bound
    obtain ⟨type, found, tagged, same⟩ := reached.tagsSound.bears_of_findTag? visible
    exact ⟨type, found, same, tagged,
      taggedSpecifier_bound rules kind ahead bodiless bound found⟩

/-- A reference to a structure behind its body. -/
def referringTokens : Tokens :=
  (Token.Reading.ofSource "struct s \x7b int a; \x7d; struct s x;").tokens.toArray

/-- The state between the two declarations. -/
def referringState : State := endState (external? (Rules.nested 9) referringTokens {})

theorem tags_bound_once_referringTokens :
    Reached referringTokens referringState ∧ referringState.TagsSound ∧
      (∃ t, Run referringTokens (fun _ => True) 1 referringState t ∧
        t.scopes.tagAt 0 "s" = some ⟨0⟩ ∧ t.scopes.findTag? "s" = some ⟨0⟩) ∧
      ∃ type, referringState.arenas.type? ⟨0⟩ = some type ∧ type.decls = [⟨0⟩] ∧
        type.tag = some "s" ∧
        taggedSpecifier (Rules.nested 9) .struct referringTokens referringState =
          .ok ⟨0⟩ { referringState with position := referringState.position + 2 } := by
  let t := endState (external? (Rules.nested 9) referringTokens referringState)
  have alone : referringState.scopes.length = 1 := by decide +kernel
  have stillAlone : t.scopes.length = 1 := by decide +kernel
  have reads : Production (Rules.nested 9) (external? (Rules.nested 9)) := .external?
  have reached : Reached referringTokens referringState :=
    .turn (Nat.le_refl 1) (.call reads {}) (.done _ (Nat.le_of_eq alone.symm))
  have run : Run referringTokens (fun _ => True) 1 referringState t :=
    .turn (Nat.le_of_eq alone.symm) (.call reads referringState)
      (.done _ (Nat.le_of_eq stillAlone.symm))
  have ahead : referringTokens.ahead referringState.position =
      [.keyword .structKw, .identifier "s", .identifier "x", .punctuator .semicolon, .eof] := by
    decide +kernel
  have bound : referringState.scopes.tagAt 0 "s" = some ⟨0⟩ := by decide +kernel
  have shape : (referringState.arenas.type? ⟨0⟩).map (fun type => (type.kind, type.decls)) =
      some (.struct, [⟨0⟩]) := by
    decide +kernel
  obtain ⟨sound, kept, resolved⟩ := tags_bound_once referringTokens
  obtain ⟨stays, -, visible⟩ := kept referringState t 1 reached run
  obtain ⟨before, behind⟩ := visible 0 "s" ⟨0⟩ Nat.one_pos bound
    (fun _ above => Scopes.tagAt_of_length_le (alone ▸ above) "s")
    fun _ above => Scopes.tagAt_of_length_le (stillAlone ▸ above) "s"
  obtain ⟨type, found, tagged, -, answer⟩ := resolved referringState (Rules.nested 9) .structKw
    .struct "s" (.identifier "x") _ ⟨0⟩ reached rfl ahead (by decide)
    (by rw [if_neg (by decide)]; exact before)
  rw [found, Option.map_some] at shape
  obtain ⟨kind, decls⟩ := Prod.mk.inj (Option.some.inj shape)
  rw [if_neg (not_not_intro kind)] at answer
  exact ⟨reached, sound _ reached, ⟨t, run, stays 0 "s" ⟨0⟩ Nat.one_pos bound, behind⟩,
    type, found, decls, tagged, answer⟩

end SyntaxGraph.Grammar
