import SyntaxGraph.Proofs.Grammar.Primitives

/-!
# What repetition keeps up

Each round of a repetition that goes on consumes a token, and there is always a token
left to stand at, so the rounds end before their bound does.
-/

set_option autoImplicit false

namespace SyntaxGraph.Grammar

open Token (Kind Keyword Punctuator)

variable {α β : Type} {tokens : Tokens} {position consumed : Nat} {nodes : List NodeRef}

/-- Where there is a value, a token has been consumed for it. -/
abbrev Offered [Refers α] (position : Nat) (nodes : List NodeRef) : Option α → State → Prop
  | none => Known position nodes
  | some value => Known (position + 1) (references value ++ nodes)

section

variable [Refers α] {reached : Nat} {others : List NodeRef}

theorem Reads.nothing (le : position ≤ reached) (inside : nodes ⊆ others) :
    Reads tokens (Known reached others) (Pure.pure none) (Offered (α := α) position nodes) :=
  .pure fun _ known => known.mono le inside

theorem Reads.something {value : α} (le : position + 1 ≤ reached)
    (inside : references value ++ nodes ⊆ others) :
    Reads tokens (Known reached others) (Pure.pure (some value)) (Offered position nodes) :=
  .pure fun _ known => known.mono le inside

theorem Reads.offer {reading : Parse α} (yields : Yields tokens reached others reading consumed)
    (le : position + 1 ≤ reached + consumed) (inside : nodes ⊆ others) :
    Reads tokens (Known reached others) (some <$> reading) (Offered position nodes) := by
  refine .map ?_
  exact yields.last le inside

end

/-! ## Rounds -/

/-- After a round from `place`: the repetition is over, or it goes on further ahead. -/
abbrev Continues (before : α → State → Prop) (after : State → Prop) (place : Nat) :
    Option α → State → Prop
  | none => after
  | some next => fun s => place < s.position ∧ before next s

/-- What holds before each round, and after the last one. -/
theorem rounds_ends (before after : α → State → Prop) {step : α → Parse (Option α)}
    (round : ∀ value place, Reads tokens (fun s => s.position = place ∧ before value s)
      (step value) (Continues before (after value) place))
    (bound : Nat) : ∀ value s, Sound tokens s → before value s →
      tokens.size < bound + s.position →
      Ends tokens after (Parse.rounds step bound value tokens s) := by
  induction bound with
  | zero =>
      intro value s sound known enough
      have inside := sound.inside
      omega
  | succ bound ih =>
      intro value s sound known enough
      have reached := round value s.position s sound ⟨rfl, known⟩
      have unfolded : Parse.rounds step (bound + 1) value tokens s =
          (step value >>= fun next => match next with
            | none => (return value : Parse α)
            | some next => do
              if s.position < (← Parse.position) then Parse.rounds step bound next
              else Parse.fail (.fault .idle)) tokens s := rfl
      rw [unfolded, bind_apply]
      cases outcome : step value tokens s with
      | error cause s' =>
          rw [outcome] at reached
          exact reached
      | ok next s' =>
          rw [outcome] at reached
          cases next with
          | none => exact reached
          | some next =>
              obtain ⟨sound, further, known⟩ := reached
              -- A round that goes on has moved ahead, so the bound left still covers
              -- the tokens left.
              change Ends tokens after ((if s.position < s'.position then
                Parse.rounds step bound next else Parse.fail (.fault .idle) : Parse α) tokens s')
              rw [if_pos further]
              exact ih next s' sound known (by omega)

theorem iterate_reads (before after : α → State → Prop) {step : α → Parse (Option α)}
    (round : ∀ value place, Reads tokens (fun s => s.position = place ∧ before value s)
      (step value) (Continues before (after value) place))
    (value : α) : Reads tokens (before value) (Parse.iterate step value) after := by
  intro s sound known
  have inside := sound.inside
  have enough : tokens.size < tokens.size - s.position + 1 + s.position := by omega
  exact rounds_ends before after round _ value s sound known enough

/-- A repetition ends where it started, unless a round went on. -/
theorem iterate_moves [Refers α] {step : α → Parse (Option α)} {value : α}
    (round : ∀ value place known, position ≤ place → nodes ⊆ known →
      references value ⊆ known →
      Reads tokens (Known place known) (step value) (Offered place known))
    (inside : references value ⊆ nodes) :
    Reads tokens (Known position nodes) (Parse.iterate step value) fun final s =>
      (final = value ∧ Known position nodes s) ∨
        Known (position + 1) (references final ++ nodes) s := by
  let kept : α → State → Prop := fun final s =>
    (final = value ∧ Known position nodes s) ∨
      Known (position + 1) (references final ++ nodes) s
  have rounds : Reads tokens (kept value) (Parse.iterate step value) kept := by
    refine iterate_reads kept kept (fun current place s sound ⟨here, known⟩ => ?_) value
    obtain ⟨further, owned⟩ : Known position (references current ++ nodes) s := by
      rcases known with ⟨rfl, known⟩ | known
      · exact known.mono (Nat.le_refl _) (by simp [inside])
      · exact known.mono (Nat.le_succ _) (List.Subset.refl _)
    have reached := round current s.position (references current ++ nodes) further
      (List.subset_append_right _ _) (List.subset_append_left _ _) s sound
      ⟨Nat.le_refl _, owned⟩
    refine reached.mono fun next s' _ known' => ?_
    cases next with
    | none =>
        rcases known with ⟨rfl, known⟩ | known
        · exact .inl ⟨rfl, known'.mono further (List.subset_append_right _ _)⟩
        · exact .inr (known'.mono known.position_le (List.Subset.refl _))
    | some next =>
        subst here
        exact ⟨known'.position_le, .inr (known'.mono (by omega) (by simp))⟩
  exact rounds.weaken (fun s known => .inl ⟨rfl, known⟩) fun _ _ _ known => known

theorem iterate_yields [Refers α] {step : α → Parse (Option α)} {value : α}
    (round : ∀ value place known, position ≤ place → nodes ⊆ known →
      references value ⊆ known →
      Reads tokens (Known place known) (step value) (Offered place known))
    (inside : references value ⊆ nodes) :
    Yields tokens position nodes (Parse.iterate step value) 0 := by
  refine (iterate_moves round inside).weaken (fun _ known => known) fun final s _ known => ?_
  rcases known with ⟨rfl, known⟩ | known
  · exact known.mono (Nat.le_refl _) (by simp [inside])
  · exact known.mono (Nat.le_succ _) (List.Subset.refl _)

/-- An item may be read wherever the reading has got to, and whatever is owned by then. -/
theorem many_yields [Refers α] {item : Parse (Option α)}
    (each : ∀ place known, position ≤ place → nodes ⊆ known →
      Reads tokens (Known place known) item (Offered place known)) :
    Yields tokens position nodes (Parse.many item) 0 := by
  have collected : Yields tokens position nodes
      (Parse.iterate (fun found => Option.map (· :: found) <$> item) []) 0 := by
    refine iterate_yields (fun found place known le owned within => .map ?_) (List.nil_subset _)
    refine (each place known le owned).weaken (fun _ known => known) fun next s _ known => ?_
    cases next with
    | none => exact known
    | some next => exact known.mono (Nat.le_refl _) (by simp [within])
  refine .map (collected.weaken (fun _ known => known) fun found s _ known => ?_)
  have within := references_reverse_subset found
  exact known.mono (Nat.le_refl _) (by simp [within])

theorem separated_yields [Refers α] {item : Parse α}
    (each : ∀ place known, position ≤ place → nodes ⊆ known →
      Yields tokens place known item consumed) :
    Yields tokens position nodes (Parse.separated item) consumed := by
  apply (each position nodes (Nat.le_refl _) (List.Subset.refl _)).bind
  intro first
  refine .bind (many_yields fun place known le owned => ?_) fun others => ?_
  · refine acceptMark_reads.bind fun taken => .branch ?_ ?_
    · refine .offer (each (place + 1) known (by omega) ?_) (by omega) (List.Subset.refl _)
      exact List.Subset.trans (List.subset_append_right _ _) owned
    · exact .nothing (Nat.le_refl _) (List.Subset.refl _)
  · exact .give (by omega) (by simp)

theorem listedRound_reads [Refers α] {close : Punctuator} {item : Parse α}
    (each : Yields tokens position nodes item 1) {collected : Bool × List α}
    (inside : references collected ⊆ nodes) :
    Reads tokens (Known position nodes) (Parse.listedRound close item collected)
      (Offered position nodes) := by
  apply at?_keeps.bind
  intro closed
  split
  · exact .nothing (Nat.le_refl _) (List.Subset.refl _)
  · apply each.bind
    intro next
    apply (accept_keeps (by simp)).bind
    intro taken
    have listed : references collected.2 ⊆ nodes := inside
    refine .something (Nat.le_refl _) ?_
    simp only [references_pair, references_bool, references_cons, List.nil_append]
    grind

theorem listed_yields [Refers α] {close : Punctuator} {item : Parse α}
    (each : ∀ place known, position ≤ place → nodes ⊆ known →
      Yields tokens place known item 1) :
    Yields tokens position nodes (Parse.listed close item) 0 := by
  have collected : Yields tokens position nodes
      (Parse.iterate (Parse.listedRound close item) (true, [])) 0 :=
    iterate_yields (fun _ place known le owned within =>
      listedRound_reads (each place known le owned) within) (List.nil_subset _)
  apply collected.bind
  intro found
  have within : references found.2.reverse ⊆ references found :=
    references_reverse_subset found.2
  exact .give (by omega) (by simp [within])

/-! ## Lists -/

theorem mapM_yields [Refers β] {action : α → Parse β} {values : List α}
    (each : ∀ value ∈ values, ∀ known, nodes ⊆ known →
      Yields tokens position known (action value) 0) :
    Yields tokens position nodes (values.mapM action) 0 := by
  induction values generalizing nodes with
  | nil => exact .give (Nat.le_refl _) (by simp)
  | cons value values ih =>
      rw [List.mapM_cons]
      apply (each value List.mem_cons_self nodes (List.Subset.refl _)).bind
      intro result
      have others : Yields tokens position (references result ++ nodes)
          (values.mapM action) 0 :=
        ih fun other member known owned => each other (List.mem_cons_of_mem _ member) known
          (List.Subset.trans (List.subset_append_right _ _) owned)
      exact others.bind fun results => .give (by omega) (by simp)

end SyntaxGraph.Grammar
