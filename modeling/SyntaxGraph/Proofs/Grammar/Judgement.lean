import SyntaxGraph.Grammar.Rules
import SyntaxGraph.Proofs.Graph.Rank
import SyntaxGraph.Proofs.Token.Ending

/-!
# What reading keeps up

A state is sound if its position is one of the tokens, its arenas are closed and ranked,
and its scopes bind tags to owned types only.  `Reads` says of a reading that from every sound
state of which something is known it ends in a sound state of which something else is
known, or refuses the source while it stands at one of its tokens; to refuse is to name
a rule of the language, never a fault of the reader.

Mostly two things are known of a state: a position that it has reached, and nodes that
it owns.  Both stay true while reading goes on, except where it goes back on purpose,
so `Yields` can leave the states out: it says how many tokens a reading consumes at
least, and the references of its value are owned from then on.
-/

set_option autoImplicit false

namespace SyntaxGraph.Grammar

open Token (Kind Keyword Punctuator Ended)

/-- Whether a source can be refused for this cause. -/
def Cause.isRefusal : Cause → Bool
  | .fault _ | .unnamedFunction | .unnamedDeclarator => false
  | _ => true

instance : Refers Scope := ⟨fun scope => references scope.tags⟩

@[simp, grind =] theorem references_scope (scope : Scope) :
    references scope = references scope.tags := rfl

structure Sound (tokens : Tokens) (s : State) : Prop where
  ended : Ended tokens.toList
  inside : s.position < tokens.size
  closed : s.arenas.Closed
  ranked : s.arenas.Ranked
  tags : s.arenas.OwnsAll (references s.scopes)

/-- A sound state of which `after` holds, or a refusal at a token. -/
def Ends {α : Type} (tokens : Tokens) (after : α → State → Prop) :
    EStateM.Result Cause State α → Prop
  | .ok value s => Sound tokens s ∧ after value s
  | .error cause s => cause.isRefusal = true ∧ s.position < tokens.size

/-- What the reading ends with from every sound state of which `before` holds. -/
def Reads {α : Type} (tokens : Tokens) (before : State → Prop) (reading : Parse α)
    (after : α → State → Prop) : Prop :=
  ∀ s, Sound tokens s → before s → Ends tokens after (reading tokens s)

/-- A position that the state has reached, and nodes that it owns. -/
structure Known (position : Nat) (nodes : List NodeRef) (s : State) : Prop where
  position_le : position ≤ s.position
  owned : s.arenas.OwnsAll nodes

/-- The reading consumes at least so many tokens, and owns what its value refers to. -/
abbrev Yields {α : Type} [Refers α] (tokens : Tokens) (position : Nat) (nodes : List NodeRef)
    (reading : Parse α) (consumed : Nat) : Prop :=
  Reads tokens (Known position nodes) reading
    fun value => Known (position + consumed) (references value ++ nodes)

variable {α β : Type} {tokens : Tokens} {before : State → Prop} {after : α → State → Prop}

/-- Only behind the end of the file there is no other token. -/
theorem Sound.next_inside {s : State} (sound : Sound tokens s)
    (inner : tokens.kind s.position ≠ .eof) : s.position + 1 < tokens.size := by
  obtain ⟨front, -, place, equal⟩ := sound.ended
  have size : tokens.size = front.length + 1 := by simp [← Array.length_toList, equal]
  have inside := sound.inside
  rcases Nat.lt_or_ge (s.position + 1) tokens.size with next | beyond
  · exact next
  · have last : s.position = front.length := by omega
    refine absurd ?_ inner
    rw [Tokens.kind, ← Array.getElem?_toList, equal, last]
    simp

/-! ## Composition -/

theorem Ends.mono {weaker : α → State → Prop} {result : EStateM.Result Cause State α}
    (ends : Ends tokens after result)
    (holds : ∀ value s, Sound tokens s → after value s → weaker value s) :
    Ends tokens weaker result := by
  cases result with
  | ok value s => exact ⟨ends.1, holds value s ends.1 ends.2⟩
  | error cause s => exact ends

theorem bind_apply (reading : Parse α) (next : α → Parse β) (tokens : Tokens) (s : State) :
    (reading >>= next) tokens s = match reading tokens s with
      | .ok value s => next value tokens s
      | .error cause s => .error cause s := by
  change EStateM.bind _ _ s = _
  unfold EStateM.bind
  cases reading tokens s <;> rfl

namespace Reads

theorem pure {value : α} (holds : ∀ s, before s → after value s) :
    Reads tokens before (pure value) after :=
  fun s sound known => ⟨sound, holds s known⟩

theorem fail {cause : Cause} (refusal : cause.isRefusal = true) :
    Reads tokens before (Parse.fail cause : Parse α) after :=
  fun _ sound _ => ⟨refusal, sound.inside⟩

theorem bind {reading : Parse α} {next : α → Parse β} {final : β → State → Prop}
    (first : Reads tokens before reading after)
    (rest : ∀ value, Reads tokens (after value) (next value) final) :
    Reads tokens before (reading >>= next) final := by
  intro s sound known
  have reached := first s sound known
  rw [bind_apply]
  cases outcome : reading tokens s with
  | ok value s' =>
      rw [outcome] at reached
      exact rest value s' reached.1 reached.2
  | error cause s' =>
      rw [outcome] at reached
      exact reached

theorem refuse {cause : Cause} {next : β → Parse α} (refusal : cause.isRefusal = true) :
    Reads tokens before (Parse.fail cause >>= next) after :=
  fun _ sound _ => ⟨refusal, sound.inside⟩

theorem map {reading : Parse α} {change : α → β} {final : β → State → Prop}
    (first : Reads tokens before reading fun value => final (change value)) :
    Reads tokens before (change <$> reading) final :=
  first.bind fun _ => .pure fun _ known => known

theorem weaken {reading : Parse α} {stronger : State → Prop} {weaker : α → State → Prop}
    (reads : Reads tokens before reading after) (known : ∀ s, stronger s → before s)
    (holds : ∀ value s, Sound tokens s → after value s → weaker value s) :
    Reads tokens stronger reading weaker :=
  fun s sound holdsBefore => (reads s sound (known s holdsBefore)).mono holds

end Reads

/-! ## What is known -/

theorem Known.mono {position reached : Nat} {nodes others : List NodeRef} {s : State}
    (known : Known reached others s) (le : position ≤ reached) (inside : nodes ⊆ others) :
    Known position nodes s where
  position_le := Nat.le_trans le known.position_le
  owned := known.owned.subset inside

/-- The current token is of a kind. -/
structure At (tokens : Tokens) (kind : Kind) (position : Nat) (nodes : List NodeRef)
    (s : State) : Prop extends Known position nodes s where
  kind_eq : tokens.kind s.position = kind

variable {position reached consumed : Nat} {nodes others : List NodeRef} {kind : Kind}

namespace Reads

/-- The value at which a reading ends. -/
theorem give [Refers α] {value : α} (le : position ≤ reached)
    (inside : references value ++ nodes ⊆ others) :
    Reads tokens (Known reached others) (Pure.pure value)
      fun value => Known position (references value ++ nodes) :=
  .pure fun _ known => known.mono le inside

/-- The reading with which another one ends. -/
theorem last [Refers α] {reading : Parse α}
    (yields : Yields tokens reached others reading consumed)
    (le : position ≤ reached + consumed) (inside : nodes ⊆ others) :
    Reads tokens (Known reached others) reading
      fun value => Known position (references value ++ nodes) := by
  refine yields.weaken (fun _ known => known) fun value s _ known => known.mono le ?_
  have kept : nodes ⊆ references value ++ others :=
    List.subset_append_of_subset_right _ inside
  exact List.append_subset.mpr ⟨List.subset_append_left _ _, kept⟩

theorem stay {reading : Parse α} (reads : Reads tokens (Known position nodes) reading after) :
    Reads tokens (At tokens kind position nodes) reading after :=
  reads.weaken (fun _ => At.toKnown) fun _ _ _ holds => holds

theorem branch {taken : Bool} {yes no : State → Prop} {first second : Parse α}
    (whenTaken : Reads tokens yes first after) (otherwise : Reads tokens no second after) :
    Reads tokens (bif taken then yes else no) (if taken = true then first else second)
      after := by
  cases taken with
  | true => exact whenTaken
  | false => exact otherwise

theorem forSome {ι : Type} {known : ι → State → Prop} {reading : Parse α}
    (each : ∀ choice, Reads tokens (known choice) reading after) :
    Reads tokens (fun s => ∃ choice, known choice s) reading after :=
  fun s sound ⟨choice, holds⟩ => each choice s sound holds

theorem oneOf {first second : State → Prop} {reading : Parse α}
    (one : Reads tokens first reading after) (other : Reads tokens second reading after) :
    Reads tokens (fun s => first s ∨ second s) reading after :=
  fun s sound known => known.elim (one s sound) (other s sound)

/-- What holds whatever the answer is. -/
theorem either {reading : Parse Bool} {yes no weaker : State → Prop}
    (reads : Reads tokens before reading fun taken => bif taken then yes else no)
    (whenTaken : ∀ s, yes s → weaker s) (otherwise : ∀ s, no s → weaker s) :
    Reads tokens before reading fun _ => weaker := by
  refine reads.weaken (fun _ known => known) fun taken s _ known => ?_
  cases taken with
  | true => exact whenTaken s known
  | false => exact otherwise s known

/-- What follows from a fact holds where the fact is known. -/
theorem assuming {reading : Parse α} {fact : Prop}
    (reads : fact → Reads tokens before reading after) :
    Reads tokens (fun s => fact ∧ before s) reading after :=
  fun s sound ⟨holds, known⟩ => reads holds s sound known

end Reads

end SyntaxGraph.Grammar
