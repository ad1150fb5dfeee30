import SyntaxGraph.Grammar.Declarator
import SyntaxGraph.Proofs.Nesting.Specifier

/-!
# Declarators are balanced

A nested declarator is read out of order: its suffixes first, from behind the parenthesis
that closes it, and then its inside.  The parenthesis is found by counting, and again by
reading the inside; since the inside is balanced, both find the same one.  So the tokens of
a nested declarator are the parentheses with the inside between them and then the suffixes.
-/

set_option autoImplicit false

namespace SyntaxGraph.Grammar

open Token (Kind Keyword Punctuator Balanced nesting nesting_cons)

variable {tokens : Tokens} {rules : Rules} {a b : Nat}

/-! ## Skipping -/

/-- A token that leaves a parenthesis open is counted and passed. -/
theorem skipRound_run {kind : Kind} {rest : List Kind} {depth behind : Nat} {s : State}
    (step : kind.nest depth = some behind) (ahead : tokens.ahead s.position = kind :: rest)
    (more : rest ≠ []) :
    skipRound (depth + 1, false) tokens s =
      .ok (some (behind + 1, false)) { s with position := s.position + 1 } := by
  have inner : kind ≠ .eof := by
    rintro rfl
    cases step
  have advanced := advance_run ahead inner more
  rw [skipRound, bind_of_ok (peek_run ahead)]
  unfold Kind.nest at step
  split at step
  · cases step
    change (Parse.advance >>= _) tokens s = _
    rw [bind_of_ok advanced]
    rfl
  · by_cases closed : depth = 0
    · rw [if_pos closed] at step
      cases step
    · rw [if_neg closed] at step
      cases step
      change (Parse.advance >>= _) tokens s = _
      have single : decide (depth + 1 = 1) = false := decide_eq_false (by omega)
      have count : depth - 1 + 1 = depth + 1 - 1 := by omega
      rw [bind_of_ok advanced, single, count]
      rfl
  · cases step
  · cases step
    split
    · contradiction
    · contradiction
    · contradiction
    · rw [bind_of_ok advanced]
      rfl

/-- With `depth + 1` parentheses open, skipping goes on behind the first parenthesis that
closes more than the stretch in front of it has opened. -/
theorem skipRounds_run {run rest : List Kind} {depth : Nat} {s : State}
    (nests : nesting depth run = some 0)
    (ahead : tokens.ahead s.position = run ++ .punctuator .parenClose :: rest)
    (more : rest ≠ []) :
    Parse.iterate skipRound (depth + 1, false) tokens s =
      .ok (0, true) { s with position := s.position + (run.length + 1) } := by
  induction run generalizing depth s with
  | nil =>
      obtain rfl : depth = 0 := by
        cases nests
        rfl
      have closes : skipRound (1, false) tokens s =
          .ok (some (0, true)) { s with position := s.position + 1 } := by
        rw [skipRound, bind_of_ok (peek_run ahead)]
        change (Parse.advance >>= _) tokens s = _
        rw [bind_of_ok (advance_run ahead (by simp) more)]
        rfl
      obtain ⟨inside, -, -⟩ := Tokens.of_ahead_cons ahead
      exact iterate_next closes (Nat.lt_succ_self _) inside (iterate_stop rfl)
  | cons kind run ih =>
      rw [nesting_cons] at nests
      obtain ⟨behind, step, nests⟩ := Option.bind_eq_some_iff.mp nests
      obtain ⟨inside, -, further⟩ := Tokens.of_ahead_cons ahead
      have round := skipRound_run step ahead (by simp)
      have rest : Parse.iterate skipRound (behind + 1, false) tokens
          { s with position := s.position + 1 } =
            .ok (0, true) { s with position := s.position + 1 + (run.length + 1) } :=
        ih nests further
      refine iterate_next round (Nat.lt_succ_self _) inside ?_
      rw [rest, List.length_cons, Nat.add_assoc s.position 1, Nat.add_comm 1]

/-- From a parenthesis, over a balanced stretch, to behind the one that closes it. -/
theorem skipParenthesized_run {run rest : List Kind} {s : State} (balanced : Balanced run)
    (ahead : tokens.ahead s.position =
      .punctuator .parenOpen :: (run ++ .punctuator .parenClose :: rest))
    (more : rest ≠ []) :
    skipParenthesized tokens s = .ok () { s with position := s.position + (run.length + 2) } := by
  obtain ⟨inside, -, further⟩ := Tokens.of_ahead_cons ahead
  have opens : skipRound (0, false) tokens s =
      .ok (some (1, false)) { s with position := s.position + 1 } := by
    rw [skipRound, bind_of_ok (peek_run ahead)]
    change (Parse.advance >>= _) tokens s = _
    rw [bind_of_ok (advance_run ahead (by simp) (by simp))]
    rfl
  have rest : Parse.iterate skipRound (1, false) tokens
      { s with position := s.position + 1 } =
        .ok (0, true) { s with position := s.position + 1 + (run.length + 1) } :=
    skipRounds_run balanced further more
  have skipped := iterate_next opens (Nat.lt_succ_self _) inside rest
  rw [skipParenthesized, bind_of_ok skipped, Nat.add_assoc s.position 1, Nat.add_left_comm 1]
  rfl

/-- A round counts the token that it consumes, and the last one leaves none open. -/
theorem skipRound_ok {depth : Nat} {next : Option (Nat × Bool)} {s s' : State}
    (run : skipRound (depth, false) tokens s = .ok next s') :
    ∃ behind last, next = some (behind, last) ∧ (last = true → behind = 0) ∧
      (tokens.kind s.position).nest depth = some behind ∧ s.position < tokens.size ∧
        s' = { s with position := s.position + 1 } := by
  obtain ⟨kind, middle, looked, rest⟩ := bind_ok run
  obtain ⟨same, rfl, inside⟩ := peek_ok looked
  have consumed {value : Unit} {last : State} (inner : kind ≠ .eof)
      (moved : Parse.advance tokens middle = .ok value last) :
      last = { middle with position := middle.position + 1 } :=
    (advance_ok moved (same ▸ inner)).1
  rw [← same]
  split at rest
  · cases rest
  · obtain ⟨⟨⟩, last, moved, done⟩ := bind_ok rest
    obtain ⟨equal, rfl⟩ := pure_ok done
    exact ⟨_, _, equal, by simp, rfl, inside, consumed (by simp) moved⟩
  · by_cases closed : depth = 0
    · subst closed
      cases rest
    · rw [if_neg closed] at rest
      obtain ⟨⟨⟩, last, moved, done⟩ := bind_ok rest
      obtain ⟨equal, rfl⟩ := pure_ok done
      refine ⟨_, _, equal, fun last => ?_, if_neg closed, inside, consumed (by simp) moved⟩
      have single : depth = 1 := of_decide_eq_true last
      rw [single]
  · next notEof notOpen notClose =>
      obtain ⟨⟨⟩, last, moved, done⟩ := bind_ok rest
      obtain ⟨equal, rfl⟩ := pure_ok done
      refine ⟨_, _, equal, by simp, ?_, inside, consumed notEof moved⟩
      unfold Kind.nest
      split
      · exact absurd rfl notOpen
      · exact absurd rfl notClose
      · exact absurd rfl notEof
      · rfl

theorem skipRounds_ok {bound depth : Nat} {final : Nat × Bool} {s s' : State}
    (run : Parse.rounds skipRound bound (depth, false) tokens s = .ok final s') :
    s.position ≤ s'.position ∧
      nesting depth (tokens.between s.position s'.position) = some 0 := by
  induction bound generalizing depth s with
  | zero => cases run
  | succ bound ih =>
      obtain ⟨before, middle, placed, rest⟩ := bind_ok run
      cases placed
      obtain ⟨next, reached, round, rest⟩ := bind_ok rest
      obtain ⟨behind, last, rfl, settled, step, inside, rfl⟩ := skipRound_ok round
      obtain ⟨place, middle, placed, rest⟩ := bind_ok rest
      cases placed
      rw [if_pos (Nat.lt_succ_self _)] at rest
      cases last with
      | true =>
          obtain rfl := settled rfl
          cases bound with
          | zero => cases rest
          | succ bound =>
              cases rest
              refine ⟨Nat.le_succ _, ?_⟩
              rw [Tokens.between_succ inside, nesting_cons, step]
              rfl
      | false =>
          obtain ⟨le, nests⟩ := ih rest
          refine ⟨Nat.le_of_succ_le le, ?_⟩
          rw [← Tokens.between_append (Nat.le_succ _) le, Tokens.between_succ inside]
          change nesting depth (tokens.kind s.position :: _) = some 0
          rw [nesting_cons, step]
          exact nests

theorem skipParenthesized_consumes {value : Unit} {s s' : State}
    (run : skipParenthesized tokens s = .ok value s') :
    s.position ≤ s'.position ∧ Balanced (tokens.between s.position s'.position) := by
  obtain ⟨final, middle, rounds, done⟩ := bind_ok run
  obtain ⟨-, rfl⟩ := pure_ok done
  exact skipRounds_ok rounds

/-! ## Nested declarators -/

/-- A nested declarator, from its opening parenthesis at `s` to its end at `s'`. -/
structure NestedRun (tokens : Tokens) (rules : Rules) (type : TypeId) (abstractOk : Bool)
    (s : State) (declarator : Declarator) (s' : State) (skipped : State) (outer : TypeId)
    (behind inside : State) : Prop where
  skips : skipParenthesized tokens s = .ok () skipped
  suffixes : Grammar.suffixes rules type tokens skipped = .ok outer behind
  declares : rules.declarator outer abstractOk tokens
    { behind with position := s.position + 1 } = .ok declarator inside
  closes : tokens.kind inside.position = .punctuator .parenClose
  /-- The inside ends at the parenthesis that skipping has found. -/
  meets : skipped = { s with position := inside.position + 1 }
  resumes : s' = { inside with position := behind.position }
  stretch : tokens.between s.position s'.position =
    .punctuator .parenOpen :: (tokens.between (s.position + 1) inside.position ++
      .punctuator .parenClose :: tokens.between skipped.position behind.position)

theorem nestedDeclarator_ok {type : TypeId} {abstractOk : Bool} {s s' : State}
    {declarator : Declarator} (opens : tokens.kind s.position = .punctuator .parenOpen)
    (declares : ∀ outer, Neutral tokens (rules.declarator outer abstractOk))
    (suffixes : ∀ type, Neutral tokens (Grammar.suffixes rules type))
    (run : nestedDeclarator rules type abstractOk tokens s = .ok declarator s') :
    ∃ skipped outer behind inside,
      NestedRun tokens rules type abstractOk s declarator s' skipped outer behind inside := by
  obtain ⟨place, middle, placed, run⟩ := bind_ok run
  cases placed
  obtain ⟨⟨⟩, skipped, skips, run⟩ := bind_ok run
  obtain ⟨outer, behind, outside, run⟩ := bind_ok run
  obtain ⟨resume, middle, placed, run⟩ := bind_ok run
  cases placed
  obtain ⟨⟨⟩, middle, moved, run⟩ := bind_ok run
  obtain ⟨-, rfl⟩ := moveTo_ok moved
  obtain ⟨found, inside, inner, run⟩ := bind_ok run
  obtain ⟨⟨⟩, middle, expected, run⟩ := bind_ok run
  obtain ⟨closes, rfl, more⟩ := expect_ok (by simp) expected
  obtain ⟨⟨⟩, middle, moved, run⟩ := bind_ok run
  obtain ⟨-, rfl⟩ := moveTo_ok moved
  obtain ⟨rfl, rfl⟩ := pure_ok run
  obtain ⟨le, balanced, -⟩ := (declares outer).consumes inner
  obtain ⟨further, -, -⟩ := (suffixes type).consumes outside
  -- Counting from the opening parenthesis over the inside, which is balanced, leads to
  -- the parenthesis behind it.
  have openInside : s.position < tokens.size := by
    refine Tokens.inside_of_kind ?_
    rw [opens]
    simp
  have closeInside : inside.position < tokens.size := by omega
  have ahead : tokens.ahead s.position = .punctuator .parenOpen ::
      (tokens.between (s.position + 1) inside.position ++
        .punctuator .parenClose :: tokens.ahead (inside.position + 1)) := by
    rw [Tokens.ahead_cons openInside, opens, Tokens.ahead_eq_between le,
      Tokens.ahead_cons closeInside, closes]
  have length := Tokens.between_length le (Nat.le_of_lt closeInside)
  have counted := skipParenthesized_run balanced ahead (by
    rw [Tokens.ahead_cons more]
    simp)
  rw [length] at counted
  rw [counted] at skips
  cases skips
  have meets : s.position + (inside.position - (s.position + 1) + 2) = inside.position + 1 := by
    change s.position + 1 ≤ inside.position at le
    omega
  rw [meets] at outside further counted
  refine ⟨_, outer, behind, inside, counted, outside, inner, closes, rfl, rfl, ?_⟩
  have whole : s.position + 1 ≤ inside.position + 1 := Nat.le_succ_of_le le
  change tokens.between s.position behind.position = _
  rw [← Tokens.between_append (Nat.le_succ s.position) (Nat.le_trans whole further),
    Tokens.between_succ openInside, opens, ← Tokens.between_append whole further,
    ← Tokens.between_append le (Nat.le_succ _), Tokens.between_succ closeInside, closes]
  simp

theorem NestedRun.consumes {type outer : TypeId} {abstractOk : Bool} {declarator : Declarator}
    {s s' skipped behind inside : State}
    (nested : NestedRun tokens rules type abstractOk s declarator s' skipped outer behind inside)
    (declares : Neutral tokens (rules.declarator outer abstractOk))
    (suffixes : Neutral tokens (Grammar.suffixes rules type)) :
    s.position ≤ s'.position ∧ Balanced (tokens.between s.position s'.position) ∧
      s.arenas.exprs.toList <+: s'.arenas.exprs.toList := by
  obtain ⟨le, inner, kept⟩ := declares.consumes nested.declares
  obtain ⟨further, outside, added⟩ := suffixes.consumes nested.suffixes
  have passes : s.position ≤ inside.position := Nat.le_of_succ_le le
  have ends : s'.position = behind.position := by rw [nested.resumes]
  rw [nested.meets] at further added
  have resumed : s.position ≤ behind.position := Nat.le_trans (Nat.le_succ_of_le passes) further
  refine ⟨ends ▸ resumed, ?_, ?_⟩
  · have whole := inner.parenthesized.append outside
    rw [nested.stretch]
    simpa using whole
  · rw [nested.resumes]
    exact added.trans kept

/-! ## The parts of a declarator -/

theorem qualifierRound_neutral {q : Qualifiers} : Neutral tokens (qualifierRound q) := by
  refine .peek fun kind => ?_
  split
  · split
    · exact .advance rfl .pure
    · exact .pure
  · exact .pure

theorem qualifiers_neutral : Neutral tokens qualifiers :=
  .iterate (fun _ => qualifierRound_neutral) _

theorem pointers_neutral {base : TypeId} : Neutral tokens (pointers base) := by
  refine .iterate (fun type => .look here_observes fun start => ?_) _
  refine .ifAccept rfl (qualifiers_neutral.bind fun found => ?_) .pure
  exact .look spanFrom_observes fun span => .map .addType

theorem parameter_neutral (neutral : rules.AllNeutral tokens) :
    Neutral tokens (parameter rules) := by
  refine .look here_observes fun start => neutral.specifiers.bind fun specifiers => ?_
  refine (neutral.declarator specifiers.type true).bind fun declarator => ?_
  exact .look spanFrom_observes fun _ => .addDecl

theorem parameterRound_neutral (neutral : rules.AllNeutral tokens) {list : ParameterList} :
    Neutral tokens (parameterRound rules list) := by
  unfold parameterRound
  split
  · exact .pure
  · refine .ifAccept rfl .pure ((parameter_neutral neutral).bind fun next => ?_)
    exact .bind (.accept rfl) fun more => .pure

theorem parameters_nests (neutral : rules.AllNeutral tokens) :
    Nests tokens [] 1 0 (parameters rules) := by
  have listed : Nests tokens [] 1 0 (do
      let list ← Parse.iterate (parameterRound rules) {}
      Parse.expectMark .parenClose "after parameters"
      return (list.found.reverse, list.variadic)) :=
    .andThen (.iterate (fun _ => parameterRound_neutral neutral) _) fun list => .closeParen .pure
  refine .ifAccept rfl .pure (.at? ?_ (.look peekNext_observes fun _ => listed))
  refine .peekNext (fun behind inner => ?_) (.stay listed)
  by_cases closes : behind = .punctuator .parenClose
  · subst closes
    exact .advance rfl (.advance rfl .pure)
  · rw [decide_eq_false closes]
    exact .stay listed

theorem arrayLength?_neutral (neutral : rules.AllNeutral tokens) :
    Neutral tokens (arrayLength? rules) :=
  .ifAt .pure (.map neutral.assignment)

theorem arraySuffix_neutral (neutral : rules.AllNeutral tokens) {start : Location} :
    Neutral tokens (arraySuffix rules start) := by
  refine qualifiers_neutral.bind fun _ => .bind (.accept rfl) fun _ => ?_
  refine (arrayLength?_neutral neutral).bind fun length => .bind (.expect rfl) fun _ => ?_
  exact .look spanFrom_observes fun _ => .pure

theorem functionSuffix_nests (neutral : rules.AllNeutral tokens) {start : Location} :
    Nests tokens [] 1 0 (functionSuffix rules start) :=
  (parameters_nests neutral).bind fun _ => .look spanFrom_observes fun _ => .pure

theorem suffix?_neutral (neutral : rules.AllNeutral tokens) :
    Neutral tokens (suffix? rules) := by
  refine .look here_observes fun start => ?_
  refine .ifAccept rfl (.map (arraySuffix_neutral neutral)) ?_
  exact .ifAccept rfl (.map (functionSuffix_nests neutral)) .pure

theorem suffixes_neutral (neutral : rules.AllNeutral tokens) {base : TypeId} :
    Neutral tokens (suffixes rules base) :=
  .bind (.many (suffix?_neutral neutral)) fun found => .foldrM (fun _ _ => .addType) base found

/-! ## Declarators -/

theorem plainDeclarator_neutral (neutral : rules.AllNeutral tokens) {type : TypeId}
    {abstractOk : Bool} : Neutral tokens (plainDeclarator rules type abstractOk) := by
  refine .bind .identifier? fun name => ?_
  dsimp only
  split
  · exact .look peek_observes fun _ => .refuse
  · exact (suffixes_neutral neutral).bind fun _ => .pure

theorem atNestedDeclarator_ok {found : Bool} {s s' : State}
    (run : atNestedDeclarator tokens s = .ok found s') :
    s' = s ∧ (found = true → tokens.kind s.position = .punctuator .parenOpen) := by
  obtain ⟨opens, middle, looked, rest⟩ := bind_ok run
  obtain ⟨rfl, rfl, -⟩ := at?_ok looked
  by_cases there : tokens.kind middle.position = .punctuator .parenOpen
  · rw [if_pos (decide_eq_true there)] at rest
    obtain ⟨next, last, looked, answer⟩ := bind_ok rest
    obtain ⟨-, rfl⟩ := peekNext_ok looked
    refine ⟨?_, fun _ => there⟩
    split at answer
    · exact (pure_ok answer).2
    · exact (pure_ok answer).2
    · exact (isTypedef_observes.bind fun _ => pure_observes) _ _ _ _ answer
    · exact (pure_ok answer).2
  · rw [if_neg (by simpa using there)] at rest
    obtain ⟨rfl, rfl⟩ := pure_ok rest
    exact ⟨rfl, by simp⟩

theorem declarator_neutral (neutral : rules.AllNeutral tokens) {base : TypeId}
    {abstractOk : Bool} : Neutral tokens (declarator rules base abstractOk) := by
  refine pointers_neutral.bind fun type => ?_
  intro origin base depth s passed ahead value s' run
  obtain ⟨nested, middle, looked, rest⟩ := bind_ok run
  obtain ⟨rfl, opens⟩ := atNestedDeclarator_ok looked
  cases nested with
  | true =>
      obtain ⟨skipped, outer, behind, inside, nested⟩ := nestedDeclarator_ok (opens rfl)
        (fun outer => neutral.declarator outer abstractOk)
        (fun type => suffixes_neutral neutral) rest
      obtain ⟨le, balanced, exprs⟩ := nested.consumes
        (neutral.declarator outer abstractOk) (suffixes_neutral neutral)
      exact passed.extend le (balanced.nesting depth) exprs
  | false =>
      exact plainDeclarator_neutral neutral origin base depth middle passed ahead value s' rest

theorem typeName_neutral (neutral : rules.AllNeutral tokens) :
    Neutral tokens (typeName rules) := by
  refine (specifiers_neutral neutral).bind fun specifiers => ?_
  dsimp only
  split
  · exact .refuse
  · refine (declarator_neutral neutral).bind fun declarator => ?_
    split
    · exact .fail
    · exact .pure

end SyntaxGraph.Grammar
