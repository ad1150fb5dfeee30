import SyntaxGraph.Proofs.Scope.Discipline

/-!
# Tags

A tag is bound in a scope once at the most, and to a type that bears it: a structure, a
union or an enumeration with this tag.  A type that is there keeps its kind and its tag,
whatever is read later, so the binding stays right for as long as the scope is there.

A reading consists of calls of one function by another, with scopes that are opened and
left and bodies that end in between; `Turn` is one such step and `Run` a sequence of
them.  A run says how many scopes are there all the time: a scope is counted from that of
the file, so it is the same one as long as the run does not fall below it.
-/

set_option autoImplicit false

namespace SyntaxGraph.Grammar

open Token (Kind Keyword Punctuator)

variable {s t : State} {tag : String} {id : TypeId}

/-! ## Types keep their kinds and tags -/

theorem Course.bears (course : Course s t) (bears : s.arenas.Bears tag id) :
    t.arenas.Bears tag id :=
  Arenas.bears_iff.mpr (course.type?_map (fun _ _ => rfl) (Arenas.bears_iff.mp bears))

/-! ## What scopes bind -/

/-- No tag is bound twice in a scope, and every tag is bound to a type that bears it. -/
structure Scope.TagsSound (a : Arenas) (scope : Scope) : Prop where
  once : (scope.tags.map Prod.fst).Nodup
  bears : ∀ tag id, (tag, id) ∈ scope.tags → a.Bears tag id

/-- The tags of all scopes are sound. -/
def State.TagsSound (s : State) : Prop := ∀ scope ∈ s.scopes, scope.TagsSound s.arenas

theorem Scope.TagsSound.mono {a b : Arenas} {scope : Scope} (sound : scope.TagsSound a)
    (kept : ∀ tag id, a.Bears tag id → b.Bears tag id) : scope.TagsSound b :=
  ⟨sound.once, fun tag id member => kept tag id (sound.bears tag id member)⟩

/-- A binding is added to the tags of a scope that has none such. -/
theorem Scope.TagsSound.bindTag {a : Arenas} {scope : Scope} (sound : scope.TagsSound a)
    (fresh : scope.tags.lookup tag = none) (bears : a.Bears tag id) :
    Scope.TagsSound a { scope with tags := (tag, id) :: scope.tags } where
  once := by
    refine List.nodup_cons.mpr ⟨fun member => ?_, sound.once⟩
    obtain ⟨⟨_, other⟩, inside, rfl⟩ := List.mem_map.mp member
    have apart := List.lookup_eq_none_iff.mp fresh _ inside
    simp at apart
  bears other type member := by
    rcases List.mem_cons.mp member with same | inside
    · obtain ⟨rfl, rfl⟩ := Prod.mk.inj same
      exact bears
    · exact sound.bears other type inside

theorem State.TagsSound.enter (sound : s.TagsSound) :
    State.TagsSound { s with scopes := {} :: s.scopes } := by
  intro scope member
  rcases List.mem_cons.mp member with rfl | outer
  · exact ⟨List.nodup_nil, fun _ _ member => nomatch member⟩
  · exact sound scope outer

theorem State.TagsSound.leave (sound : s.TagsSound) :
    State.TagsSound { s with scopes := s.scopes.tail } :=
  fun scope member => sound scope (List.mem_of_mem_tail member)

theorem State.TagsSound.complete (sound : s.TagsSound) (completed : TypeId)
    (decls : List DeclId) :
    State.TagsSound { s with arenas := s.arenas.completeType completed decls } :=
  fun scope member => (sound scope member).mono fun _ _ bears => bears.complete completed decls

/-- Only the innermost scope changes. -/
theorem State.TagsSound.modifyInner {change : Scope → Scope} (sound : s.TagsSound)
    (changes : ∀ scope, s.scopes.head? = some scope → scope.TagsSound s.arenas →
      (change scope).TagsSound s.arenas) :
    State.TagsSound { s with scopes := s.scopes.modifyInner change } := by
  intro scope member
  change scope ∈ s.scopes.modifyInner change at member
  cases scopes : s.scopes with
  | nil =>
      rw [scopes] at member
      cases member
  | cons inner outer =>
      rw [scopes] at member
      rcases List.mem_cons.mp member with rfl | outside
      · exact changes inner (by rw [scopes]; rfl) (sound inner (scopes ▸ List.mem_cons_self))
      · exact sound scope (scopes ▸ List.mem_cons_of_mem inner outside)

theorem Step.tagsSound (step : Step s t) (sound : s.TagsSound) : t.TagsSound := by
  have kept : ∀ scope : Scope, scope.TagsSound s.arenas → scope.TagsSound t.arenas :=
    fun scope before => before.mono fun _ _ => step.course.bears
  cases step with
  | bindName name kind =>
      change State.TagsSound { s with scopes := s.scopes.bindName name kind }
      unfold Scopes.bindName
      split
      · exact sound
      · exact sound.modifyInner fun _ _ before => ⟨before.once, before.bears⟩
  | bindTag tag id fresh bears =>
      refine sound.modifyInner fun scope inner before => before.bindTag ?_ bears
      rwa [Scopes.innerTag?, inner] at fresh
  | _ => exact fun scope member => kept scope (sound scope member)

/-- By induction on the course; a scope of its own has no tags at first. -/
theorem Course.tagsSound (course : Course s t) (sound : s.TagsSound) : t.TagsSound := by
  induction course with
  | done => exact sound
  | step first _ ih => exact ih (first.tagsSound sound)
  | enclosed _ _ inner rest => exact rest (inner sound.enter).leave
  | body decls _ _ _ inner rest => exact rest ((inner sound).complete _ decls)

/-! ## Bindings last as long as their scope -/

namespace Scopes

/-- What a scope binds a tag to; the scope of the file is at height zero. -/
def tagAt (scopes : Scopes) (height : Nat) (tag : String) : Option TypeId :=
  scopes.reverse[height]?.bind fun scope => scope.tags.lookup tag

variable {scopes : Scopes} {height : Nat}

theorem tagAt_cons (inner : Scope) (outer : Scopes) (height : Nat) (tag : String) :
    tagAt (inner :: outer) height tag =
      if height = outer.length then inner.tags.lookup tag else tagAt outer height tag := by
  rw [tagAt, List.reverse_cons, tagAt]
  rcases Nat.lt_trichotomy height outer.length with below | rfl | above
  · rw [List.getElem?_append_left (by simpa using below), if_neg (Nat.ne_of_lt below)]
  · rw [List.getElem?_append_right (by simp), if_pos rfl]
    simp
  · rw [List.getElem?_eq_none (by simpa using Nat.succ_le_of_lt above),
      if_neg (Nat.ne_of_gt above), List.getElem?_eq_none (by simpa using Nat.le_of_lt above)]

theorem tagAt_of_length_le (above : scopes.length ≤ height) (tag : String) :
    scopes.tagAt height tag = none := by
  rw [tagAt, List.getElem?_eq_none (by simpa using above)]
  rfl

theorem lt_length_of_tagAt (bound : scopes.tagAt height tag = some id) :
    height < scopes.length := by
  by_contra above
  rw [tagAt_of_length_le (Nat.le_of_not_lt above)] at bound
  cases bound

theorem innerTag?_eq_tagAt (scopes : Scopes) (tag : String) :
    scopes.innerTag? tag = scopes.tagAt (scopes.length - 1) tag := by
  cases scopes with
  | nil => rfl
  | cons inner outer =>
      rw [tagAt_cons, List.length_cons, Nat.add_sub_cancel, if_pos rfl]
      rfl

/-- The binding of the tag that a look-up from the inside out comes to. -/
def Sees (scopes : Scopes) (tag : String) (height : Nat) (id : TypeId) : Prop :=
  scopes.tagAt height tag = some id ∧
    ∀ higher, height < higher → scopes.tagAt higher tag = none

/-- By induction on the scopes: a scope without the tag is looked past. -/
theorem findTag?_eq_some_iff :
    scopes.findTag? tag = some id ↔ ∃ height, scopes.Sees tag height id := by
  induction scopes with
  | nil => exact ⟨fun found => (nomatch found), fun ⟨_, bound, _⟩ => nomatch bound⟩
  | cons inner outer ih =>
      rw [findTag?, List.findSome?_cons]
      cases own : inner.tags.lookup tag with
      | some bound =>
          have top : tagAt (inner :: outer) outer.length tag = some bound := by
            rw [tagAt_cons, if_pos rfl, own]
          constructor
          · rintro ⟨⟩
            refine ⟨outer.length, top, fun higher above => tagAt_of_length_le ?_ tag⟩
            exact above
          · rintro ⟨height, seen, highest⟩
            have below : height ≤ outer.length := Nat.le_of_lt_succ (lt_length_of_tagAt seen)
            rcases Nat.lt_or_eq_of_le below with lower | rfl
            · rw [highest _ lower] at top
              cases top
            · exact top.symm.trans seen
      | none =>
          have same : ∀ height, tagAt (inner :: outer) height tag = tagAt outer height tag := by
            intro height
            rw [tagAt_cons]
            split
            · next top => rw [own, tagAt_of_length_le (Nat.le_of_eq top.symm)]
            · rfl
          simp only [Sees, same]
          exact ih

end Scopes

/-- What the innermost scope binds a tag to stays. -/
theorem Step.innerTag? (step : Step s t) (bound : s.scopes.innerTag? tag = some id) :
    t.scopes.innerTag? tag = some id := by
  cases step with
  | bindName name kind => rwa [State.bindName_scopes, Scopes.bindName_innerTag?]
  | bindTag other type fresh bears =>
      have different : tag ≠ other := by
        rintro rfl
        rw [fresh] at bound
        cases bound
      have apart : (tag == other) = false := beq_false_of_ne different
      cases scopes : s.scopes with
      | nil =>
          rw [scopes] at bound
          cases bound
      | cons inner outer =>
          rw [scopes] at bound
          change ((other, type) :: inner.tags).lookup tag = some id
          rw [List.lookup_cons, apart]
          exact bound
  | _ => exact bound

theorem Course.innerTag? (course : Course s t) (bound : s.scopes.innerTag? tag = some id) :
    t.scopes.innerTag? tag = some id := by
  induction course with
  | done => exact bound
  | step first _ ih => exact ih (first.innerTag? bound)
  | enclosed inner _ _ rest =>
      refine rest ?_
      rwa [inner.frames.tail_eq]
  | body _ _ _ _ inner rest => exact rest (inner bound)

theorem Course.tagAt (course : Course s t) {height : Nat}
    (bound : s.scopes.tagAt height tag = some id) : t.scopes.tagAt height tag = some id := by
  have inner : s.scopes.innerTag? tag = some id → t.scopes.innerTag? tag = some id :=
    course.innerTag?
  obtain ⟨sameLength, sameTail⟩ := course.frames
  cases before : s.scopes with
  | nil =>
      rw [before] at bound
      cases bound
  | cons first outer =>
      cases after : t.scopes with
      | nil => simp [before, after] at sameLength
      | cons last rest =>
          rw [before, after] at sameTail inner
          obtain rfl : rest = outer := sameTail
          rw [before, Scopes.tagAt_cons] at bound
          rw [Scopes.tagAt_cons]
          split
          · next top =>
            rw [if_pos top] at bound
            exact inner bound
          · next below =>
            rwa [if_neg below] at bound

end SyntaxGraph.Grammar
