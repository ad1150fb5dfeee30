import SyntaxGraph.Grammar.Expression
import SyntaxGraph.Proofs.Grammar.Primitives
import SyntaxGraph.Proofs.Token.Stretch

/-!
# Runs that end with a value

What a reading has done where it ends with a value, of any tokens and from any state,
sound or not.  The run of a reading in parts is taken apart into the runs of its parts.
-/

set_option autoImplicit false

namespace SyntaxGraph.Grammar

open Token (Kind Keyword Punctuator)

variable {α β : Type} {tokens : Tokens} {s s' : State} {kind : Kind}

/-! ## Composition -/

theorem bind_ok {reading : Parse α} {next : α → Parse β} {value : β}
    (run : (reading >>= next) tokens s = .ok value s') :
    ∃ first middle, reading tokens s = .ok first middle ∧
      next first tokens middle = .ok value s' := by
  rw [bind_apply] at run
  cases outcome : reading tokens s with
  | ok first middle =>
      rw [outcome] at run
      exact ⟨first, middle, rfl, run⟩
  | error cause middle =>
      rw [outcome] at run
      cases run

theorem bind_of_ok {reading : Parse α} {next : α → Parse β} {first : α} {middle : State}
    (run : reading tokens s = .ok first middle) :
    (reading >>= next) tokens s = next first tokens middle := by
  rw [bind_apply, run]

theorem map_ok {reading : Parse α} {change : α → β} {value : β}
    (run : (change <$> reading) tokens s = .ok value s') :
    ∃ first, reading tokens s = .ok first s' ∧ change first = value := by
  rw [map_eq_pure_bind] at run
  obtain ⟨first, middle, ran, done⟩ := bind_ok run
  cases done
  exact ⟨first, ran, rfl⟩

theorem pure_ok {value result : α} (run : (pure value : Parse α) tokens s = .ok result s') :
    result = value ∧ s' = s := by
  cases run
  exact ⟨rfl, rfl⟩

/-- What is seen where a reading has ended with a value. -/
def seenAtEnd? (view : α → State → β) : EStateM.Result Cause State α → Option β
  | .ok value s => some (view value s)
  | .error _ _ => none

theorem ok_of_seenAtEnd? {view : α → State → β} {result : EStateM.Result Cause State α}
    {seen : β} (ended : seenAtEnd? view result = some seen) :
    ∃ value s, result = .ok value s ∧ view value s = seen := by
  cases result with
  | ok value s => exact ⟨value, s, rfl, Option.some.inj ended⟩
  | error cause s => cases ended

/-! ## Looking at the state -/

/-- The reading leaves the state as it is where it ends with a value. -/
def Observes (reading : Parse α) : Prop :=
  ∀ tokens s value s', reading tokens s = .ok value s' → s' = s

theorem Observes.bind {reading : Parse α} {next : α → Parse β} (first : Observes reading)
    (rest : ∀ value, Observes (next value)) : Observes (reading >>= next) := by
  intro tokens s value s' run
  obtain ⟨found, middle, ran, done⟩ := bind_ok run
  obtain rfl := first tokens s found middle ran
  exact rest found tokens middle value s' done

theorem pure_observes {value : α} : Observes (pure value : Parse α) :=
  fun _ _ _ _ run => (pure_ok run).2

theorem fail_observes {cause : Cause} : Observes (Parse.fail cause : Parse α) := by
  intro tokens s value s' run
  cases run

theorem get_observes : Observes (get : Parse State) := by
  intro tokens s value s' run
  cases run
  rfl

theorem read_observes : Observes (read : Parse Tokens) := by
  intro tokens s value s' run
  cases run
  rfl

theorem tokenAt_observes {place : Nat} : Observes (Parse.tokenAt place) := by
  refine read_observes.bind fun tokens => ?_
  split
  · exact pure_observes
  · exact fail_observes

theorem position_observes : Observes Parse.position :=
  get_observes.bind fun _ => pure_observes

theorem peek_observes : Observes Parse.peek :=
  position_observes.bind fun _ => tokenAt_observes.bind fun _ => pure_observes

theorem at?_observes : Observes (Parse.at? kind) :=
  peek_observes.bind fun _ => pure_observes

theorem peekNext_observes : Observes Parse.peekNext :=
  read_observes.bind fun _ => position_observes.bind fun _ => pure_observes

theorem here_observes : Observes Parse.here :=
  position_observes.bind fun _ => tokenAt_observes.bind fun _ => pure_observes

theorem finishBefore_observes : Observes Parse.finishBefore :=
  position_observes.bind fun _ => tokenAt_observes.bind fun _ => pure_observes

theorem spanFrom_observes {start : Location} : Observes (Parse.spanFrom start) :=
  finishBefore_observes.bind fun _ => pure_observes

theorem arenas_observes : Observes Parse.arenas :=
  get_observes.bind fun _ => pure_observes

theorem scopes_observes : Observes Parse.scopes :=
  get_observes.bind fun _ => pure_observes

theorem isTypedef_observes {name : String} : Observes (Parse.isTypedef name) :=
  scopes_observes.bind fun _ => pure_observes

theorem present_observes {node : NodeRef} {found : Option α} :
    Observes (Parse.present node found) := by
  unfold Parse.present
  split
  · exact pure_observes
  · exact fail_observes

theorem declNode_observes {id : DeclId} : Observes (Parse.declNode id) :=
  arenas_observes.bind fun _ => present_observes

theorem typeNode_observes {id : TypeId} : Observes (Parse.typeNode id) :=
  arenas_observes.bind fun _ => present_observes

theorem exprNode_observes {id : ExprId} : Observes (Parse.exprNode id) :=
  arenas_observes.bind fun _ => present_observes

theorem declName_observes {id : DeclId} : Observes (Parse.declName id) :=
  declNode_observes.bind fun _ => pure_observes

theorem declSpan_observes {id : DeclId} : Observes (Parse.declSpan id) :=
  declNode_observes.bind fun _ => pure_observes

theorem exprSpan_observes {id : ExprId} : Observes (Parse.exprSpan id) :=
  exprNode_observes.bind fun _ => pure_observes

/-! ## What is answered -/

/-- Where the reading ends with a value, it is one of these. -/
def Answers (holds : α → Prop) (reading : Parse α) : Prop :=
  ∀ tokens s value s', reading tokens s = .ok value s' → holds value

namespace Answers

variable {holds : α → Prop} {reading : Parse α}

theorem bind {next : α → Parse β} {after : β → Prop} (first : Answers holds reading)
    (rest : ∀ value, holds value → Answers after (next value)) :
    Answers after (reading >>= next) := by
  intro tokens s value s' run
  obtain ⟨found, middle, ran, done⟩ := bind_ok run
  exact rest found (first tokens s found middle ran) tokens middle value s' done

/-- What is read in front makes no difference. -/
theorem past {next : α → Parse β} {after : β → Prop}
    (rest : ∀ value, Answers after (next value)) : Answers after (reading >>= next) := by
  intro tokens s value s' run
  obtain ⟨found, middle, -, done⟩ := bind_ok run
  exact rest found tokens middle value s' done

theorem pure {value : α} (holding : holds value) : Answers holds (Pure.pure value : Parse α) := by
  intro tokens s result s' run
  exact (pure_ok run).1 ▸ holding

theorem refuse {cause : Cause} {next : β → Parse α} :
    Answers holds (Parse.fail cause >>= next) :=
  fun _ _ _ _ run => nomatch run

theorem separated {item : Parse α} : Answers (· ≠ []) (Parse.separated item) :=
  .past fun first => .past fun others => .pure (List.cons_ne_nil first others)

end Answers

/-! ## Tokens -/

theorem tokenAt_ok {place : Nat} {token : Token}
    (run : Parse.tokenAt place tokens s = .ok token s') :
    place < tokens.size ∧ tokens[place]? = some token := by
  rcases Nat.lt_or_ge place tokens.size with inside | outside
  · rw [tokenAt_apply inside] at run
    cases run
    exact ⟨inside, Array.getElem?_eq_getElem inside⟩
  · obtain ⟨found, middle, readIt, refused⟩ := bind_ok run
    cases readIt
    rw [Array.getElem?_eq_none outside] at refused
    cases refused

theorem peek_ok {found : Kind} (run : Parse.peek tokens s = .ok found s') :
    found = tokens.kind s.position ∧ s' = s ∧ s.position < tokens.size := by
  have unchanged := peek_observes tokens s found s' run
  have opened : (do return (← Parse.tokenAt s.position).kind : Parse Kind) tokens s =
      .ok found s' := run
  obtain ⟨token, middle, looked, done⟩ := bind_ok opened
  obtain ⟨inside, equal⟩ := tokenAt_ok looked
  obtain ⟨rfl, -⟩ := pure_ok done
  refine ⟨?_, unchanged, inside⟩
  rw [Tokens.kind, equal]
  rfl

theorem peekNext_ok {found : Kind} (run : Parse.peekNext tokens s = .ok found s') :
    found = tokens.kind (s.position + 1) ∧ s' = s := by
  cases run
  exact ⟨rfl, rfl⟩

theorem scopes_ok {found : Scopes}
    (run : Parse.scopes tokens s = .ok found s') : found = s.scopes ∧ s' = s := by
  cases run
  exact ⟨rfl, rfl⟩

theorem typeNode_ok {id : TypeId} {type : TypeNode}
    (run : Parse.typeNode id tokens s = .ok type s') :
    s.arenas.type? id = some type ∧ s' = s := by
  have same := typeNode_observes _ _ _ _ run
  obtain ⟨arenas, middle, looked, present⟩ := bind_ok run
  cases looked
  revert present
  cases s.arenas.type? id with
  | none => exact fun present => nomatch present
  | some found => exact fun present => ⟨congrArg some (pure_ok present).1.symm, same⟩

theorem moveTo_ok {place : Nat} {value : Unit}
    (run : Parse.moveTo place tokens s = .ok value s') :
    place < tokens.size ∧ s' = { s with position := place } := by
  rcases Nat.lt_or_ge place tokens.size with inside | outside
  · rw [moveTo_apply inside] at run
    cases run
    exact ⟨inside, rfl⟩
  · have opened : (if place < tokens.size then modify fun s => { s with position := place }
        else Parse.fail (.fault (.outside place)) : Parse Unit) tokens s = .ok value s' := run
    rw [if_neg (Nat.not_lt.mpr outside)] at opened
    cases opened

theorem at?_ok {found : Bool} (run : Parse.at? kind tokens s = .ok found s') :
    found = decide (tokens.kind s.position = kind) ∧ s' = s ∧ s.position < tokens.size := by
  obtain ⟨current, middle, looked, done⟩ := bind_ok run
  obtain ⟨rfl, rfl, inside⟩ := peek_ok looked
  obtain ⟨rfl, rfl⟩ := pure_ok done
  exact ⟨rfl, rfl, inside⟩

theorem atParenthesizedType_ok {found : Bool}
    (run : atParenthesizedType tokens s = .ok found s') :
    found = (decide (tokens.kind s.position = .punctuator .parenOpen) &&
        startsTypeName s.scopes (tokens.kind (s.position + 1))) ∧
      s' = s ∧ s.position < tokens.size := by
  obtain ⟨opens, middle, looked, rest⟩ := bind_ok run
  obtain ⟨rfl, rfl, inside⟩ := at?_ok looked
  cases rest
  exact ⟨rfl, rfl, inside⟩

/-- An operator is found where there is a mark that writes one. -/
theorem operatorAt_ok {admits : BinaryOp → Bool} {found : Option BinaryOp}
    (run : operatorAt admits tokens s = .ok found s') :
    s' = s ∧ s.position < tokens.size ∧ ∀ op, found = some op →
      ∃ mark, tokens.kind s.position = .punctuator mark ∧ binaryOp? mark = some op ∧
        admits op = true := by
  obtain ⟨current, middle, looked, rest⟩ := bind_ok run
  obtain ⟨same, rfl, inside⟩ := peek_ok looked
  cases current with
  | punctuator mark =>
      obtain ⟨rfl, rfl⟩ := pure_ok rest
      refine ⟨rfl, inside, fun op equal => ⟨mark, same.symm, ?_⟩⟩
      exact Option.filter_eq_some_iff.mp equal
  | _ =>
      obtain ⟨rfl, rfl⟩ := pure_ok rest
      exact ⟨rfl, inside, by simp⟩

/-- A token that is not the end of the file is consumed, and another one comes next. -/
theorem advance_ok {value : Unit} (run : Parse.advance tokens s = .ok value s')
    (inner : tokens.kind s.position ≠ .eof) :
    s' = { s with position := s.position + 1 } ∧ s.position + 1 < tokens.size := by
  obtain ⟨found, middle, looked, rest⟩ := bind_ok run
  obtain ⟨rfl, rfl, -⟩ := peek_ok looked
  rw [if_pos inner] at rest
  have moved : Parse.moveTo (middle.position + 1) tokens middle = .ok value s' := rest
  obtain ⟨inside, equal⟩ := moveTo_ok moved
  exact ⟨equal, inside⟩

theorem advance_arenas {value : Unit}
    (run : Parse.advance tokens s = .ok value s') : s'.arenas = s.arenas := by
  by_cases inner : tokens.kind s.position = .eof
  · obtain ⟨found, middle, looked, rest⟩ := bind_ok run
    obtain ⟨rfl, rfl, -⟩ := peek_ok looked
    rw [if_neg (not_not.mpr inner)] at rest
    rw [(pure_ok rest).2]
  · rw [(advance_ok run inner).1]

theorem accept_ok {taken : Bool} (inner : kind ≠ .eof)
    (run : Parse.accept kind tokens s = .ok taken s') :
    if taken then tokens.kind s.position = kind ∧ s' = { s with position := s.position + 1 }
    else tokens.kind s.position ≠ kind ∧ s' = s := by
  obtain ⟨found, middle, looked, rest⟩ := bind_ok run
  obtain ⟨rfl, rfl, -⟩ := peek_ok looked
  by_cases same : tokens.kind middle.position = kind
  · rw [if_pos same] at rest
    obtain ⟨nothing, moved, advanced, done⟩ := bind_ok rest
    obtain ⟨rfl, rfl⟩ := pure_ok done
    exact ⟨same, (advance_ok advanced (same ▸ inner)).1⟩
  · rw [if_neg same] at rest
    obtain ⟨rfl, rfl⟩ := pure_ok rest
    exact ⟨same, rfl⟩

theorem expect_ok {context : String} {value : Unit} (inner : kind ≠ .eof)
    (run : Parse.expect kind context tokens s = .ok value s') :
    tokens.kind s.position = kind ∧ s' = { s with position := s.position + 1 } ∧
      s.position + 1 < tokens.size := by
  obtain ⟨found, middle, looked, rest⟩ := bind_ok run
  obtain ⟨rfl, rfl, -⟩ := peek_ok looked
  by_cases same : tokens.kind middle.position = kind
  · rw [if_pos same] at rest
    exact ⟨same, advance_ok rest (same ▸ inner)⟩
  · rw [if_neg same] at rest
    cases rest

theorem identifier_ok {name : String} (run : Parse.identifier tokens s = .ok name s') :
    tokens.kind s.position = .identifier name ∧
      s' = { s with position := s.position + 1 } := by
  obtain ⟨found, middle, looked, rest⟩ := bind_ok run
  obtain ⟨same, rfl, -⟩ := peek_ok looked
  cases found with
  | identifier other =>
      obtain ⟨nothing, moved, advanced, done⟩ := bind_ok rest
      obtain ⟨rfl, rfl⟩ := pure_ok done
      have inner : tokens.kind middle.position ≠ .eof := by
        rw [← same]
        simp
      exact ⟨same.symm, (advance_ok advanced inner).1⟩
  | _ => cases rest

/-- What is read in a scope of its own ends with one scope more. -/
theorem inScope_ok {body : Parse α} {value : α}
    (run : Parse.inScope body tokens s = .ok value s') :
    ∃ middle, body tokens { s with scopes := {} :: s.scopes } = .ok value middle ∧
      s' = { middle with scopes := middle.scopes.tail } := by
  unfold Parse.inScope at run
  cases outcome : body tokens { s with scopes := {} :: s.scopes } with
  | ok found middle =>
      rw [outcome] at run
      cases run
      exact ⟨middle, rfl, rfl⟩
  | error cause middle =>
      rw [outcome] at run
      cases run

theorem Answers.inScope {holds : α → Prop} {body : Parse α} (answers : Answers holds body) :
    Answers holds (Parse.inScope body) := by
  intro tokens s value s' run
  obtain ⟨middle, ran, -⟩ := inScope_ok run
  exact answers tokens _ value middle ran

theorem inScope_of_ok {body : Parse α} {value : α} {middle : State}
    (run : body tokens { s with scopes := {} :: s.scopes } = .ok value middle) :
    Parse.inScope body tokens s = .ok value { middle with scopes := middle.scopes.tail } := by
  rw [Parse.inScope, run]

/-! What is read behind one of these is read from a state that is known. -/

theorem look_then {reading : Parse α} {next : α → Parse β} {value : β}
    (observes : Observes reading) (run : (reading >>= next) tokens s = .ok value s') :
    ∃ found, next found tokens s = .ok value s' := by
  obtain ⟨found, middle, looked, rest⟩ := bind_ok run
  rw [observes tokens s found middle looked] at rest
  exact ⟨found, rest⟩

theorem peek_then {next : Kind → Parse β} {value : β}
    (run : (Parse.peek >>= next) tokens s = .ok value s') :
    ∃ found, tokens.kind s.position = found ∧ next found tokens s = .ok value s' := by
  obtain ⟨found, middle, looked, rest⟩ := bind_ok run
  obtain ⟨there, same, -⟩ := peek_ok looked
  rw [same] at rest
  exact ⟨found, there.symm, rest⟩

theorem advance_then {next : Unit → Parse β} {value : β}
    (there : tokens.kind s.position = kind) (inner : kind ≠ .eof)
    (run : (Parse.advance >>= next) tokens s = .ok value s') :
    next () tokens { s with position := s.position + 1 } = .ok value s' := by
  obtain ⟨⟨⟩, middle, moved, rest⟩ := bind_ok run
  rwa [(advance_ok moved (there ▸ inner)).1] at rest

theorem expect_then {context : String} {next : Unit → Parse β} {value : β} (inner : kind ≠ .eof)
    (run : (Parse.expect kind context >>= next) tokens s = .ok value s') :
    tokens.kind s.position = kind ∧
      next () tokens { s with position := s.position + 1 } = .ok value s' := by
  obtain ⟨⟨⟩, middle, expected, rest⟩ := bind_ok run
  obtain ⟨there, moved, -⟩ := expect_ok inner expected
  rw [moved] at rest
  exact ⟨there, rest⟩

theorem accept_then {next : Bool → Parse β} {value : β} (inner : kind ≠ .eof)
    (run : (Parse.accept kind >>= next) tokens s = .ok value s') :
    tokens.kind s.position = kind ∧
        next true tokens { s with position := s.position + 1 } = .ok value s' ∨
      tokens.kind s.position ≠ kind ∧ next false tokens s = .ok value s' := by
  obtain ⟨taken, middle, accepted, rest⟩ := bind_ok run
  have answer := accept_ok inner accepted
  cases taken with
  | true =>
      obtain ⟨there, moved⟩ := answer
      rw [moved] at rest
      exact .inl ⟨there, rest⟩
  | false =>
      obtain ⟨other, same⟩ := answer
      rw [same] at rest
      exact .inr ⟨other, rest⟩

theorem identifier?_arenas {name : Option String}
    (run : Parse.identifier? tokens s = .ok name s') : s'.arenas = s.arenas := by
  obtain ⟨found, there, rest⟩ := peek_then run
  cases found with
  | identifier text =>
      have done := advance_then there (by simp) rest
      rw [(pure_ok done).2]
  | _ => rw [(pure_ok rest).2]

/-! What comes next is enough for these to succeed. -/

theorem peek_run {next : Kind} {rest : List Kind}
    (ahead : tokens.ahead s.position = next :: rest) : Parse.peek tokens s = .ok next s := by
  obtain ⟨inside, same, -⟩ := Tokens.of_ahead_cons ahead
  have opened : Parse.peek tokens s =
      (do return (← Parse.tokenAt s.position).kind : Parse Kind) tokens s := rfl
  rw [opened, bind_of_ok (tokenAt_apply inside s), ← same, Tokens.kind,
    Array.getElem?_eq_getElem inside]
  rfl

theorem peekNext_run {first next : Kind} {rest : List Kind}
    (ahead : tokens.ahead s.position = first :: next :: rest) :
    Parse.peekNext tokens s = .ok next s := by
  obtain ⟨-, -, behind⟩ := Tokens.of_ahead_cons ahead
  obtain ⟨-, same, -⟩ := Tokens.of_ahead_cons behind
  change EStateM.Result.ok (tokens.kind (s.position + 1)) s = _
  rw [same]

theorem advance_run {first : Kind} {rest : List Kind}
    (ahead : tokens.ahead s.position = first :: rest) (inner : first ≠ .eof)
    (more : rest ≠ []) :
    Parse.advance tokens s = .ok () { s with position := s.position + 1 } := by
  obtain ⟨next, others, rfl⟩ := List.exists_cons_of_ne_nil more
  obtain ⟨-, -, behind⟩ := Tokens.of_ahead_cons ahead
  obtain ⟨inside, -, -⟩ := Tokens.of_ahead_cons behind
  rw [Parse.advance, bind_of_ok (peek_run ahead), if_pos inner]
  exact moveTo_apply inside s

theorem identifier?_run {name : String} {rest : List Kind}
    (ahead : tokens.ahead s.position = .identifier name :: rest) (more : rest ≠ []) :
    Parse.identifier? tokens s = .ok (some name) { s with position := s.position + 1 } := by
  rw [Parse.identifier?, bind_of_ok (peek_run ahead)]
  change (Parse.advance >>= fun _ => pure (some name)) tokens s = _
  rw [bind_of_ok (advance_run ahead (by simp) more)]
  rfl

/-! ## Nodes -/

theorem toList_prefix_push {Node : Type} (nodes : Array Node) (node : Node) :
    nodes.toList <+: (nodes.push node).toList := by
  rw [Array.toList_push]
  exact List.prefix_append _ _

theorem add_ok {ι : Type} {insert : Arenas → ι × Arenas} {id : ι}
    (run : Parse.add insert tokens s = .ok id s') :
    id = (insert s.arenas).1 ∧ s' = { s with arenas := (insert s.arenas).2 } := by
  cases run
  exact ⟨rfl, rfl⟩

theorem typeNode_apply {id : TypeId} {type : TypeNode} (found : s.arenas.type? id = some type) :
    Parse.typeNode id tokens s = .ok type s := by
  change Parse.present (.type id) (s.arenas.type? id) tokens s = _
  rw [found]
  rfl

theorem typeNode_missing {id : TypeId} (missing : s.arenas.type? id = none) :
    Parse.typeNode id tokens s = .error (.fault (.missing (.type id))) s := by
  change Parse.present (.type id) (s.arenas.type? id) tokens s = _
  rw [missing]
  rfl

/-! ## Repetition -/

theorem rounds_mono {step : α → Parse (Option α)} {bound larger : Nat} (le : bound ≤ larger)
    {value final : α} (run : Parse.rounds step bound value tokens s = .ok final s') :
    Parse.rounds step larger value tokens s = .ok final s' := by
  induction bound generalizing larger value s with
  | zero => cases run
  | succ bound ih =>
      obtain ⟨larger, rfl⟩ : ∃ less, larger = less + 1 := ⟨larger - 1, by omega⟩
      obtain ⟨before, middle, placed, rest⟩ := bind_ok run
      obtain ⟨next, reached, ran, rest⟩ := bind_ok rest
      rw [Parse.rounds, bind_of_ok placed, bind_of_ok ran]
      cases next with
      | none => exact rest
      | some next =>
          obtain ⟨behind, last, placed, rest⟩ := bind_ok rest
          change (Parse.position >>= _) tokens reached = _
          rw [bind_of_ok placed]
          split at rest
          · next further =>
              rw [if_pos further]
              exact ih (by omega) rest
          · cases rest

theorem iterate_stop {step : α → Parse (Option α)} {value : α}
    (run : step value tokens s = .ok none s') :
    Parse.iterate step value tokens s = .ok value s' := by
  change Parse.rounds step (tokens.size - s.position + 1) value tokens s = _
  change (step value >>= _) tokens s = _
  rw [bind_of_ok run]
  rfl

/-- A round that consumes a token can be put in front of a repetition. -/
theorem iterate_next {step : α → Parse (Option α)} {value next final : α} {middle : State}
    (run : step value tokens s = .ok (some next) middle)
    (further : s.position < middle.position) (inside : s.position < tokens.size)
    (rest : Parse.iterate step next tokens middle = .ok final s') :
    Parse.iterate step value tokens s = .ok final s' := by
  have others : Parse.rounds step (tokens.size - middle.position + 1) next tokens middle =
      .ok final s' := rest
  change Parse.rounds step (tokens.size - s.position + 1) value tokens s = _
  change (step value >>= _) tokens s = _
  rw [bind_of_ok run]
  change (if s.position < middle.position then
    Parse.rounds step (tokens.size - s.position) next else Parse.fail (.fault .idle) : Parse α)
      tokens middle = _
  rw [if_pos further]
  exact rounds_mono (by omega) others

/-- The rounds of a repetition, from one value and state to another. -/
inductive Iterates (tokens : Tokens) (step : α → Parse (Option α)) :
    α → State → α → State → Prop
  | stop {value : α} {s s' : State} (round : step value tokens s = .ok none s') :
      Iterates tokens step value s value s'
  | next {value next final : α} {s middle s' : State}
      (round : step value tokens s = .ok (some next) middle)
      (rest : Iterates tokens step next middle final s') : Iterates tokens step value s final s'

theorem iterate_ok {step : α → Parse (Option α)} {value final : α}
    (run : Parse.iterate step value tokens s = .ok final s') :
    Iterates tokens step value s final s' := by
  have rounds (bound : Nat) (value : α) (s : State)
      (run : Parse.rounds step bound value tokens s = .ok final s') :
      Iterates tokens step value s final s' := by
    induction bound generalizing value s with
    | zero => cases run
    | succ bound ih =>
        obtain ⟨before, middle, placed, rest⟩ := bind_ok run
        cases placed
        obtain ⟨next, reached, round, rest⟩ := bind_ok rest
        cases next with
        | none =>
            obtain ⟨rfl, rfl⟩ := pure_ok rest
            exact .stop round
        | some next =>
            obtain ⟨place, middle, placed, rest⟩ := bind_ok rest
            cases placed
            split at rest
            · exact .next round (ih next _ rest)
            · cases rest
  exact rounds _ value s run

/-- The items of a repetition, in order. -/
inductive Collects (tokens : Tokens) (item : Parse (Option α)) :
    State → List α → State → Prop
  | stop {s s' : State} (last : item tokens s = .ok none s') : Collects tokens item s [] s'
  | next {s middle s' : State} {first : α} {others : List α}
      (one : item tokens s = .ok (some first) middle)
      (rest : Collects tokens item middle others s') :
      Collects tokens item s (first :: others) s'

theorem many_ok {item : Parse (Option α)} {found : List α}
    (run : Parse.many item tokens s = .ok found s') : Collects tokens item s found s' := by
  have rounds {before collected : List α} {s s' : State}
      (iterates : Iterates tokens (fun found => Option.map (· :: found) <$> item) before s
        collected s') :
      ∃ items, collected.reverse = before.reverse ++ items ∧ Collects tokens item s items s' := by
    induction iterates with
    | stop round =>
        obtain ⟨next, last, same⟩ := map_ok round
        cases next with
        | none => exact ⟨[], by simp, .stop last⟩
        | some next => cases same
    | next round _ ih =>
        obtain ⟨next, one, same⟩ := map_ok round
        cases next with
        | none => cases same
        | some next =>
            cases same
            obtain ⟨items, equal, rest⟩ := ih
            exact ⟨next :: items, by simpa using equal, .next one rest⟩
  obtain ⟨collected, ran, rfl⟩ := map_ok run
  obtain ⟨items, equal, collects⟩ := rounds (iterate_ok ran)
  rw [equal]
  exact collects

theorem many_stop {item : Parse (Option α)} (last : item tokens s = .ok none s') :
    Parse.many item tokens s = .ok [] s' := by
  have round : (Option.map (· :: []) <$> item) tokens s = .ok none s' := by
    rw [map_eq_pure_bind, bind_of_ok last]
    rfl
  rw [Parse.many, map_eq_pure_bind, bind_of_ok (iterate_stop round)]
  rfl

/-- What has been found before a repetition makes no difference to what it finds. -/
theorem rounds_behind {item : Parse (Option α)} {bound : Nat} {found final : List α}
    (run : Parse.rounds (fun found => Option.map (· :: found) <$> item) bound found tokens s =
      .ok final s') (before : List α) :
    Parse.rounds (fun found => Option.map (· :: found) <$> item) bound (found ++ before)
      tokens s = .ok (final ++ before) s' := by
  induction bound generalizing found s with
  | zero => cases run
  | succ bound ih =>
      obtain ⟨place, middle, placed, rest⟩ := bind_ok run
      cases placed
      obtain ⟨next, reached, round, rest⟩ := bind_ok rest
      obtain ⟨one, ran, rfl⟩ := map_ok round
      have again : (Option.map (· :: (found ++ before)) <$> item) tokens s =
          .ok (one.map (· :: (found ++ before))) reached := by
        rw [map_eq_pure_bind, bind_of_ok ran]
        rfl
      change (Option.map (· :: (found ++ before)) <$> item >>= _) tokens s = _
      rw [bind_of_ok again]
      cases one with
      | none =>
          obtain ⟨rfl, rfl⟩ := pure_ok rest
          rfl
      | some one =>
          change (if s.position < reached.position then _ else _ : Parse (List α))
            tokens reached = _ at rest
          change (if s.position < reached.position then _ else _ : Parse (List α))
            tokens reached = _
          by_cases further : s.position < reached.position
          · rw [if_pos further] at rest ⊢
            exact ih rest
          · rw [if_neg further] at rest
            cases rest

theorem many_next {item : Parse (Option α)} {first : α} {others : List α} {middle : State}
    (one : item tokens s = .ok (some first) middle) (further : s.position < middle.position)
    (inside : s.position < tokens.size)
    (rest : Parse.many item tokens middle = .ok others s') :
    Parse.many item tokens s = .ok (first :: others) s' := by
  obtain ⟨final, rounds, rfl⟩ := map_ok rest
  have round : (Option.map (· :: []) <$> item) tokens s = .ok (some [first]) middle := by
    rw [map_eq_pure_bind, bind_of_ok one]
    rfl
  have others : Parse.iterate (fun found => Option.map (· :: found) <$> item) [first] tokens
      middle = .ok (final ++ [first]) s' := rounds_behind rounds [first]
  rw [Parse.many, map_eq_pure_bind, bind_of_ok (iterate_next round further inside others)]
  change EStateM.Result.ok (final ++ [first]).reverse s' = _
  rw [List.reverse_append]
  rfl

end SyntaxGraph.Grammar
