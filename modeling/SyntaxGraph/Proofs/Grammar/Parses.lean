import SyntaxGraph.Proofs.Grammar.Runs

/-!
# Readings that succeed

`Parses` says of a reading that it succeeds from a state, which tokens are ahead of the
state where it ends, and what holds of its value there.  The scopes are as before, and the
arenas have only had nodes added.  There is one rule for each primitive, with what has to
be ahead for it to succeed, and one for each way to put readings together.
-/

set_option autoImplicit false

namespace SyntaxGraph

/-- Every arena of `b` begins with that of `a`. -/
structure Arenas.Extends (a b : Arenas) : Prop where
  decls : a.decls.toList <+: b.decls.toList
  types : a.types.toList <+: b.types.toList
  exprs : a.exprs.toList <+: b.exprs.toList

namespace Arenas.Extends

variable {a b c : Arenas}

theorem refl (a : Arenas) : a.Extends a := ⟨List.prefix_rfl, List.prefix_rfl, List.prefix_rfl⟩

theorem trans (first : a.Extends b) (second : b.Extends c) : a.Extends c where
  decls := first.decls.trans second.decls
  types := first.types.trans second.types
  exprs := first.exprs.trans second.exprs

theorem addDecl (a : Arenas) (decl : Decl) : a.Extends (a.addDecl decl).2 where
  decls := Grammar.toList_prefix_push a.decls decl
  types := List.prefix_rfl
  exprs := List.prefix_rfl

theorem addType (a : Arenas) (type : TypeNode) : a.Extends (a.addType type).2 where
  decls := List.prefix_rfl
  types := Grammar.toList_prefix_push a.types type
  exprs := List.prefix_rfl

theorem addExpr (a : Arenas) (expr : Expr) : a.Extends (a.addExpr expr).2 where
  decls := List.prefix_rfl
  types := List.prefix_rfl
  exprs := Grammar.toList_prefix_push a.exprs expr

end Arenas.Extends

namespace Grammar

open Token (Kind Keyword Punctuator)

variable {α β : Type} {tokens : Tokens} {s middle s' : State} {kind : Kind}
  {between behind rest : List Kind} {after : β → State → Prop}

/-- From `s` to `s'`, with `rest` ahead, in the same scopes. -/
structure Reaches (tokens : Tokens) (s : State) (rest : List Kind) (s' : State) : Prop where
  ahead : tokens.ahead s'.position = rest
  scopes : s'.scopes = s.scopes
  grows : s.arenas.Extends s'.arenas

theorem Reaches.trans (first : Reaches tokens s between middle)
    (second : Reaches tokens middle rest s') : Reaches tokens s rest s' :=
  ⟨second.ahead, second.scopes.trans first.scopes, first.grows.trans second.grows⟩

def Parses (tokens : Tokens) (s : State) (reading : Parse α) (rest : List Kind)
    (after : α → State → Prop) : Prop :=
  ∃ value s', reading tokens s = .ok value s' ∧ Reaches tokens s rest s' ∧ after value s'

namespace Parses

/-! ## Composition -/

theorem pure {value : β} (ahead : tokens.ahead s.position = rest) (holds : after value s) :
    Parses tokens s (pure value) rest after :=
  ⟨value, s, rfl, ⟨ahead, rfl, .refl _⟩, holds⟩

theorem weaken {before : β → State → Prop} {reading : Parse β}
    (parses : Parses tokens s reading rest before)
    (weaker : ∀ value s', Reaches tokens s rest s' → before value s' → after value s') :
    Parses tokens s reading rest after := by
  obtain ⟨value, s', run, reaches, holds⟩ := parses
  exact ⟨value, s', run, reaches, weaker value s' reaches holds⟩

theorem bind {reading : Parse α} {next : α → Parse β} {first : α → State → Prop}
    (parses : Parses tokens s reading between first)
    (further : ∀ value middle, Reaches tokens s between middle → first value middle →
      Parses tokens middle (next value) rest after) :
    Parses tokens s (reading >>= next) rest after := by
  obtain ⟨value, middle, run, reaches, holds⟩ := parses
  obtain ⟨last, s', ran, reached, done⟩ := further value middle reaches holds
  exact ⟨last, s', (bind_of_ok run).trans ran, reaches.trans reached, done⟩

theorem map {reading : Parse α} {change : α → β}
    (parses : Parses tokens s reading rest fun value s' => after (change value) s') :
    Parses tokens s (change <$> reading) rest after := by
  obtain ⟨value, s', run, reaches, holds⟩ := parses
  refine ⟨change value, s', ?_, reaches, holds⟩
  rw [map_eq_pure_bind, bind_of_ok run]
  rfl

/-- A look at the state that succeeds. -/
theorem look {reading : Parse α} {next : α → Parse β}
    (succeeds : ∃ value, reading tokens s = .ok value s)
    (further : ∀ value, Parses tokens s (next value) rest after) :
    Parses tokens s (reading >>= next) rest after := by
  obtain ⟨value, run⟩ := succeeds
  obtain ⟨last, s', ran, reached, done⟩ := further value
  exact ⟨last, s', (bind_of_ok run).trans ran, reached, done⟩

theorem of_run {reading : Parse α} {next : α → Parse β} {value : α}
    (run : reading tokens s = .ok value s)
    (further : Parses tokens s (next value) rest after) :
    Parses tokens s (reading >>= next) rest after := by
  obtain ⟨last, s', ran, reached, done⟩ := further
  exact ⟨last, s', (bind_of_ok run).trans ran, reached, done⟩

/-- A reading that only goes on at another place. -/
theorem jump {reading : Parse α} {next : α → Parse β} {value : α} {place : Nat}
    (run : reading tokens s = .ok value { s with position := place })
    (further : Parses tokens { s with position := place } (next value) rest after) :
    Parses tokens s (reading >>= next) rest after := by
  obtain ⟨last, s', ran, reached, done⟩ := further
  refine ⟨last, s', (bind_of_ok run).trans ran, ?_, done⟩
  exact ⟨reached.ahead, reached.scopes, reached.grows⟩

end Parses

/-! ## Looking at the state -/

theorem inside_of_ahead (ahead : tokens.ahead s.position = kind :: rest) :
    s.position < tokens.size := (Tokens.of_ahead_cons ahead).1

theorem here_run (inside : s.position < tokens.size) :
    ∃ place, Parse.here tokens s = .ok place s := by
  refine ⟨tokens[s.position].start, ?_⟩
  change (Parse.tokenAt s.position >>= _ : Parse Location) tokens s = _
  rw [bind_of_ok (tokenAt_apply inside s)]
  rfl

theorem spanFrom_run {start : Location} (inside : s.position < tokens.size) :
    ∃ span, Parse.spanFrom start tokens s = .ok span s := by
  have before : s.position - 1 < tokens.size := Nat.lt_of_le_of_lt (Nat.sub_le _ _) inside
  refine ⟨⟨start, max tokens[s.position - 1].finish start⟩, ?_⟩
  have finish : Parse.finishBefore tokens s = .ok tokens[s.position - 1].finish s := by
    change (Parse.tokenAt (s.position - 1) >>= _ : Parse Location) tokens s = _
    rw [bind_of_ok (tokenAt_apply before s)]
    rfl
  rw [Parse.spanFrom, bind_of_ok finish]
  rfl

theorem exprSpan_run {id : ExprId} {expr : Expr} (found : s.arenas.expr? id = some expr) :
    ∃ span, Parse.exprSpan id tokens s = .ok span s := by
  refine ⟨expr.span, ?_⟩
  have node : Parse.exprNode id tokens s = .ok expr s := by
    change Parse.present (.expr id) (s.arenas.expr? id) tokens s = _
    rw [found]
    rfl
  rw [Parse.exprSpan, bind_of_ok node]
  rfl

theorem at?_run (ahead : tokens.ahead s.position = kind :: rest) (wanted : Kind) :
    Parse.at? wanted tokens s = .ok (decide (kind = wanted)) s := by
  rw [Parse.at?, bind_of_ok (peek_run ahead)]
  rfl

namespace Parses

/-! ## Tokens -/

theorem here {next : Location → Parse β} (inside : s.position < tokens.size)
    (further : ∀ place, Parses tokens s (next place) rest after) :
    Parses tokens s (Parse.here >>= next) rest after :=
  look (here_run inside) further

theorem span {start : Location} {next : Span → Parse β} (inside : s.position < tokens.size)
    (further : ∀ span, Parses tokens s (next span) rest after) :
    Parses tokens s (Parse.spanFrom start >>= next) rest after :=
  look (spanFrom_run inside) further

theorem peek {next : Kind → Parse β} (ahead : tokens.ahead s.position = kind :: behind)
    (further : Parses tokens s (next kind) rest after) :
    Parses tokens s (Parse.peek >>= next) rest after :=
  of_run (peek_run ahead) further

theorem advance {next : Unit → Parse β} (ahead : tokens.ahead s.position = kind :: behind)
    (inner : kind ≠ .eof) (more : behind ≠ [])
    (further : tokens.ahead (s.position + 1) = behind →
      Parses tokens { s with position := s.position + 1 } (next ()) rest after) :
    Parses tokens s (Parse.advance >>= next) rest after := by
  obtain ⟨-, -, moved⟩ := Tokens.of_ahead_cons ahead
  exact .jump (advance_run ahead inner more) (further moved)

theorem accept {next : Bool → Parse β} (ahead : tokens.ahead s.position = kind :: behind)
    (inner : kind ≠ .eof) (more : behind ≠ [])
    (further : tokens.ahead (s.position + 1) = behind →
      Parses tokens { s with position := s.position + 1 } (next true) rest after) :
    Parses tokens s (Parse.accept kind >>= next) rest after := by
  obtain ⟨-, -, moved⟩ := Tokens.of_ahead_cons ahead
  have accepted : Parse.accept kind tokens s =
      .ok true { s with position := s.position + 1 } := by
    rw [Parse.accept, bind_of_ok (peek_run ahead), if_pos rfl,
      bind_of_ok (advance_run ahead inner more)]
    rfl
  exact .jump accepted (further moved)

theorem decline {wanted : Kind} {next : Bool → Parse β}
    (ahead : tokens.ahead s.position = kind :: behind) (other : kind ≠ wanted)
    (further : Parses tokens s (next false) rest after) :
    Parses tokens s (Parse.accept wanted >>= next) rest after := by
  have declined : Parse.accept wanted tokens s = .ok false s := by
    rw [Parse.accept, bind_of_ok (peek_run ahead), if_neg other]
    rfl
  exact of_run declined further

theorem expect {context : String} {next : Unit → Parse β}
    (ahead : tokens.ahead s.position = kind :: behind) (inner : kind ≠ .eof)
    (more : behind ≠ [])
    (further : tokens.ahead (s.position + 1) = behind →
      Parses tokens { s with position := s.position + 1 } (next ()) rest after) :
    Parses tokens s (Parse.expect kind context >>= next) rest after := by
  obtain ⟨-, -, moved⟩ := Tokens.of_ahead_cons ahead
  have expected : Parse.expect kind context tokens s =
      .ok () { s with position := s.position + 1 } := by
    rw [Parse.expect, bind_of_ok (peek_run ahead), if_pos rfl, advance_run ahead inner more]
  exact .jump expected (further moved)

theorem identifier {name : String} {next : String → Parse β}
    (ahead : tokens.ahead s.position = .identifier name :: behind) (more : behind ≠ [])
    (further : tokens.ahead (s.position + 1) = behind →
      Parses tokens { s with position := s.position + 1 } (next name) rest after) :
    Parses tokens s (Parse.identifier >>= next) rest after := by
  obtain ⟨-, -, moved⟩ := Tokens.of_ahead_cons ahead
  have named : Parse.identifier tokens s = .ok name { s with position := s.position + 1 } := by
    rw [Parse.identifier, bind_of_ok (peek_run ahead)]
    change (Parse.advance >>= _ : Parse String) tokens s = _
    rw [bind_of_ok (advance_run ahead (by simp) more)]
    rfl
  exact .jump named (further moved)

/-! ## Nodes -/

theorem addExpr {form : Expr.Form} {span : Span} {after : ExprId → State → Prop}
    (ahead : tokens.ahead s.position = rest)
    (holds : ∀ id s', Reaches tokens s rest s' →
      s'.arenas.expr? id = some { form, span } → after id s') :
    Parses tokens s (Parse.addExpr form span) rest after := by
  have reached : Reaches tokens s rest
      { s with arenas := (s.arenas.addExpr { form, span }).2 } :=
    ⟨ahead, rfl, .addExpr _ _⟩
  exact ⟨_, _, rfl, reached, holds _ _ reached Array.getElem?_push_size⟩

theorem addType {type : TypeNode} {after : TypeId → State → Prop}
    (ahead : tokens.ahead s.position = rest)
    (holds : ∀ id s', Reaches tokens s rest s' → s'.arenas.type? id = some type →
      after id s') :
    Parses tokens s (Parse.addType type) rest after := by
  have reached : Reaches tokens s rest { s with arenas := (s.arenas.addType type).2 } :=
    ⟨ahead, rfl, .addType _ _⟩
  exact ⟨_, _, rfl, reached, holds _ _ reached Array.getElem?_push_size⟩

theorem addDecl {decl : Decl} {after : DeclId → State → Prop}
    (ahead : tokens.ahead s.position = rest)
    (holds : ∀ id s', Reaches tokens s rest s' → s'.arenas.decl? id = some decl →
      after id s') :
    Parses tokens s (Parse.addDecl decl) rest after := by
  have reached : Reaches tokens s rest { s with arenas := (s.arenas.addDecl decl).2 } :=
    ⟨ahead, rfl, .addDecl _ _⟩
  exact ⟨_, _, rfl, reached, holds _ _ reached Array.getElem?_push_size⟩

end Parses

/-! ## Repetition -/

/-- With something left ahead, the tokens in front of it have been passed exactly. -/
theorem position_of_ahead (ahead : tokens.ahead s.position = behind ++ kind :: rest)
    (reached : tokens.ahead s'.position = kind :: rest) :
    s'.position = s.position + behind.length := by
  have first := congrArg List.length ahead
  have second := congrArg List.length reached
  rw [Tokens.ahead, List.length_drop, Tokens.kinds_length, List.length_append,
    List.length_cons] at first
  rw [Tokens.ahead, List.length_drop, Tokens.kinds_length, List.length_cons] at second
  omega

theorem position_lt_of_ahead (ahead : tokens.ahead s.position = behind)
    (reached : tokens.ahead middle.position = rest) (shorter : rest.length < behind.length) :
    s.position < middle.position ∧ s.position < tokens.size := by
  have first : behind.length = tokens.size - s.position := by
    rw [← ahead, Tokens.ahead, List.length_drop, Tokens.kinds_length]
  have second : rest.length = tokens.size - middle.position := by
    rw [← reached, Tokens.ahead, List.length_drop, Tokens.kinds_length]
  omega

namespace Parses

theorem stop {step : β → Parse (Option β)} {value : β}
    (parses : Parses tokens s (step value) rest fun next s' => next = none ∧ after value s') :
    Parses tokens s (Parse.iterate step value) rest after := by
  obtain ⟨next, s', run, reaches, rfl, holds⟩ := parses
  exact ⟨value, s', iterate_stop run, reaches, holds⟩

/-- A round that leaves less ahead than before, and the others. -/
theorem round {step : β → Parse (Option β)} {value : β} {first : β → State → Prop}
    (ahead : tokens.ahead s.position = behind) (shorter : between.length < behind.length)
    (parses : Parses tokens s (step value) between fun next middle =>
      ∃ found, next = some found ∧ first found middle)
    (further : ∀ found middle, Reaches tokens s between middle → first found middle →
      Parses tokens middle (Parse.iterate step found) rest after) :
    Parses tokens s (Parse.iterate step value) rest after := by
  obtain ⟨next, middle, run, reaches, found, rfl, holds⟩ := parses
  obtain ⟨final, s', ran, reached, done⟩ := further found middle reaches holds
  obtain ⟨moved, inside⟩ := position_lt_of_ahead ahead reaches.ahead shorter
  exact ⟨final, s', iterate_next run moved inside ran, reaches.trans reached, done⟩

/-- A round in front of a repetition whose answer is used. -/
theorem roundThen {step : α → Parse (Option α)} {value : α} {next : α → Parse β}
    {first : α → State → Prop} (ahead : tokens.ahead s.position = behind)
    (shorter : between.length < behind.length)
    (parses : Parses tokens s (step value) between fun answer middle =>
      ∃ found, answer = some found ∧ first found middle)
    (further : ∀ found middle, Reaches tokens s between middle → first found middle →
      Parses tokens middle (Parse.iterate step found >>= next) rest after) :
    Parses tokens s (Parse.iterate step value >>= next) rest after := by
  obtain ⟨answer, middle, run, reaches, found, rfl, holds⟩ := parses
  obtain ⟨last, s', ran, reached, done⟩ := further found middle reaches holds
  obtain ⟨final, behind, others, rest⟩ := bind_ok ran
  obtain ⟨moved, inside⟩ := position_lt_of_ahead ahead reaches.ahead shorter
  have whole := iterate_next run moved inside others
  exact ⟨last, s', (bind_of_ok whole).trans rest, reaches.trans reached, done⟩

theorem manyStop {item : Parse (Option α)} {after : List α → State → Prop}
    (parses : Parses tokens s item rest fun next s' => next = none ∧ after [] s') :
    Parses tokens s (Parse.many item) rest after := by
  obtain ⟨next, s', run, reaches, rfl, holds⟩ := parses
  exact ⟨[], s', many_stop run, reaches, holds⟩

theorem manyNext {item : Parse (Option α)} {after : List α → State → Prop}
    {first : α → State → Prop} (ahead : tokens.ahead s.position = behind)
    (shorter : between.length < behind.length)
    (parses : Parses tokens s item between fun next middle =>
      ∃ found, next = some found ∧ first found middle)
    (further : ∀ found middle, Reaches tokens s between middle → first found middle →
      Parses tokens middle (Parse.many item) rest fun others s' => after (found :: others) s') :
    Parses tokens s (Parse.many item) rest after := by
  obtain ⟨next, middle, run, reaches, found, rfl, holds⟩ := parses
  obtain ⟨others, s', ran, reached, done⟩ := further found middle reaches holds
  obtain ⟨moved, inside⟩ := position_lt_of_ahead ahead reaches.ahead shorter
  exact ⟨found :: others, s', many_next run moved inside ran, reaches.trans reached, done⟩

end Parses

end Grammar

end SyntaxGraph
